import Rv32Gdb.Equiv.StopReplies
import Rv32Gdb.Equiv.Vcont

/-!
# Unknown commands

`emptyReply_iff`: a packet whose command is not one of the supported ones is answered by the empty
reply, and nothing else is done, unless it is taken for a known one (`TakenForKnown`): the names of
queries are only compared up to their length, a framed `0x03` is taken for a Ctrl-C, and what
follows `vCont` is read as actions until a letter is none.
-/

namespace Rv32Gdb

variable {x : Xlen} {σ : Type}

/-! ### Command names -/

/-- The command of a packet: its first character, or for `q`, `Q` and `v` packets the name up to the
first `,`, `;`, `:` or `?`. -/
def commandName : List Byte → List Byte
  | [] => []
  | c :: p =>
    if c = chr 'q' ∨ c = chr 'Q' ∨ c = chr 'v' then
      (c :: p).takeWhile fun c => c ≠ chr ',' ∧ c ≠ chr ';' ∧ c ≠ chr ':' ∧ c ≠ chr '?'
    else [c]

/-- The commands that the documentation lists. -/
def supportedCommands : List (List Byte) :=
  ((ascii "?gGpPmMXcsZzHTkDR").map fun c => [c]) ++ [ascii "qSupported", ascii "qC", ascii "qOffsets",
    ascii "qAttached", ascii "qTStatus", ascii "qSearch", ascii "qfThreadInfo", ascii "qsThreadInfo",
    ascii "vCont", ascii "QStartNoAckMode"]

/-- A packet whose command is neither supported nor `qXfer`. -/
def UnknownCommand (p : List Byte) : Prop :=
  commandName p ∉ supportedCommands ∧ commandName p ≠ ascii "qXfer"

/-- The names of queries that a longer name may begin with. -/
def queryNames : List (List Byte) :=
  [ascii "qSupported", ascii "qAttached", ascii "qC", ascii "qfThreadInfo", ascii "qsThreadInfo",
    ascii "qOffsets", ascii "qTStatus"]

/-- Read as actions of `vCont`, the text comes to a letter that is none, before a thread id that is
too long or of another process and before its end. -/
inductive ComesToUnknown : List Byte → Prop
  | unknown {letter : Byte} {rest next : List Byte} {ids : Int × Int}
      (hletter : letter ∉ vcontLetters)
      (hspec : vcontSpec (skipSignal letter rest) = .ok (some (ids, next)))
      (hpid : threadPidValid ids.1) : ComesToUnknown (letter :: rest)
  | action {letter : Byte} {rest next : List Byte} {ids : Int × Int}
      (hletter : letter ∈ vcontLetters)
      (hspec : vcontSpec (skipSignal letter rest) = .ok (some (ids, next)))
      (hpid : threadPidValid ids.1) (hnext : ComesToUnknown (skipSemicolon next)) :
      ComesToUnknown (letter :: rest)

/-- The packet is handled as if it were a known one. -/
def TakenForKnown (p : List Byte) : Prop :=
  p.head? = some 0x03 ∨ (∃ name ∈ ascii "QStartNoAckMode" :: queryNames, name <+: p) ∨
    (ascii "vCont" <+: p ∧ ¬ComesToUnknown ((p.drop 5).takeWhile (· ≠ 0#8)))

/-! ### The empty reply -/

/-- No other reply is written like the empty one. -/
theorem send_ne_send_nil {w w₁ : World x σ} {payload : List Byte} (hne : payload ≠ [])
    (hout : w₁.stub.output = w.stub.output) : w₁.send payload ≠ w.send [] := by
  intro heq
  have houtput : (w₁.send payload).stub.output = w.stub.output ++ [frame []] := by
    rw [heq, output_send_of_le w (Nat.zero_le _)]
  by_cases hlen : payload.length ≤ 4091
  · rw [output_send_of_le w₁ hlen, hout] at houtput
    have hframe := List.singleton_inj.mp (List.append_cancel_left houtput)
    have hlength := congrArg List.length hframe
    rw [length_frame, length_frame, List.length_nil] at hlength
    exact hne (List.eq_nil_of_length_eq_zero (by omega))
  · rw [World.send, sendPacket_of_lt (not_le.mp hlen), hout] at houtput
    have hlength := congrArg List.length houtput
    rw [List.length_append, List.length_singleton] at hlength
    omega

theorem ok_send_ne {w w₁ : World x σ} {payload : List Byte} (hne : payload ≠ [])
    (hout : w₁.stub.output = w.stub.output) :
    (.ok (w₁.send payload) : Result (World x σ)) ≠ .ok (w.send []) :=
  fun h => send_ne_send_nil hne hout (Except.ok.inj h)

/-! ### Queries -/

/-- A query gets the empty reply if its name does not begin with one that is tested for. -/
theorem handleQuery_eq_send_nil_iff (fuel : Nat) (cb : GdbCallbacks x σ) {w : World x σ}
    (hxfer : ¬strncmpEq w.packetText (ascii "qXfer:features:read:target.xml"))
    (hsearch : ¬strncmpEq w.packetText (ascii "qSearch:memory:")) :
    handleQuery fuel cb w = .ok (w.send []) ↔
      ∀ name ∈ queryNames, ¬strncmpEq w.packetText name := by
  let P : Result (World x σ) → Prop := fun r =>
    r = .ok (w.send []) ↔ ∀ name ∈ queryNames, ¬strncmpEq w.packetText name
  have hfalse : ∀ {name : List Byte} {r : Result (World x σ)}, name ∈ queryNames →
      strncmpEq w.packetText name → r ≠ .ok (w.send []) → P r :=
    fun hmem hname hne => ⟨fun h => absurd h hne, fun h => absurd hname (h _ hmem)⟩
  change P _
  unfold handleQuery
  simp only [if_neg hxfer, if_neg hsearch]
  refine iteInduction (fun h₁ => ?_) fun h₁ => ?_
  · refine hfalse (by decide) h₁ ?_
    unfold handleQSupported
    exact ok_send_ne (List.cons_ne_nil _ _) rfl
  refine iteInduction (fun h₂ => hfalse (by decide) h₂ (ok_send_ne (by decide) rfl)) fun h₂ => ?_
  refine iteInduction (fun h₃ => hfalse (by decide) h₃
    (ok_send_ne (by simp [snprintf, ascii]) rfl)) fun h₃ => ?_
  refine iteInduction (fun h₄ => ?_) fun h₄ => ?_
  · refine hfalse (by decide) h₄ ?_
    obtain ⟨payload, hok, hhead, -⟩ := handleThreadInfo_cases cb w
    have hnil : payload ≠ [] := by
      rintro rfl
      cases hhead
    have hthread : handleThreadInfo cb w ≠ .ok (w.send []) := by
      rw [hok]
      exact ok_send_ne hnil (congrArg GdbStub.output (World.stub_callOpt w cb.getNumHarts 1))
    exact hthread
  refine iteInduction (fun h₅ => hfalse (by decide) h₅ (ok_send_ne (by decide) rfl)) fun h₅ => ?_
  refine iteInduction (fun h₆ => hfalse (by decide) h₆ (ok_send_ne (by decide) rfl)) fun h₆ => ?_
  refine iteInduction (fun h₇ => hfalse (by decide) h₇ (ok_send_ne (by decide) rfl)) fun h₇ => ?_
  refine iff_of_true rfl fun name hmem => ?_
  simp only [queryNames, List.mem_cons, List.not_mem_nil, or_false] at hmem
  rcases hmem with rfl | rfl | rfl | rfl | rfl | rfl | rfl
  exacts [h₁, h₂, h₃, h₄, h₅, h₆, h₇]

theorem handleGeneralSet_eq_send_nil_iff (w : World x σ) :
    handleGeneralSet w = w.send [] ↔ ¬strncmpEq w.packetText (ascii "QStartNoAckMode") := by
  unfold handleGeneralSet
  split_ifs with h
  · exact iff_of_false (send_ne_send_nil (by decide) rfl) fun hne => hne h
  · exact iff_of_true rfl h

/-! ### `vCont` -/

/-- The action loop ends with the empty reply if it comes to an unknown letter. -/
theorem vcontLoop_eq_reply_nil_iff {d : DebugState x} (hd : d.currentThread ≠ -2) {fuel : Nat}
    (actions : List Byte) (s : VcontState) (h : actions.length ≤ fuel) :
    vcontLoop d fuel actions s = .ok (.reply []) ↔ ComesToUnknown actions := by
  have hrefused : VcontOutcome.reply (ascii "E01") ≠ .reply [] := fun he =>
    absurd (VcontOutcome.reply.inj he) (by decide)
  induction fuel generalizing actions s with
  | zero =>
    obtain rfl := List.length_eq_zero_iff.mp (Nat.le_zero.mp h)
    exact ⟨nofun, nofun⟩
  | succ fuel ih =>
    cases actions with
    | nil => exact ⟨nofun, nofun⟩
    | cons letter actions =>
      -- an id that does not fit its buffer is refused
      rcases vcontSpec_cases (skipSignal letter actions) with hspec | ⟨⟨pid, tid⟩, next, hspec, -⟩
      · rw [vcontLoop, hspec]
        refine iff_of_false (fun he => hrefused (Except.ok.inj he)) fun hunknown => ?_
        cases hunknown with
        | unknown _ hspec' => rw [hspec] at hspec'; cases hspec'
        | action _ hspec' => rw [hspec] at hspec'; cases hspec'
      have hlen := length_lt_of_vcontSpec hspec
      have hids : ∀ {ids : Int × Int} {next' : List Byte},
          vcontSpec (skipSignal letter actions) = .ok (some (ids, next')) →
            ids = (pid, tid) ∧ next' = next := by
        intro ids next' hspec'
        exact Prod.mk.inj (Option.some.inj (Except.ok.inj (hspec'.symm.trans hspec)))
      -- the process id is checked before the letter
      by_cases hpid : threadPidValid pid
      · by_cases hletter : letter ∈ vcontLetters
        · rw [vcontLoop_succ_of_accepted fuel s hspec ⟨hletter, hpid, fun _ => hd⟩]
          refine (ih (skipSemicolon next) _ (by omega)).trans
            ⟨fun hnext => .action hletter hspec hpid hnext, fun hunknown => ?_⟩
          cases hunknown with
          | unknown hno => exact absurd hletter hno
          | action _ hspec' _ hnext =>
            obtain ⟨-, rfl⟩ := hids hspec'
            exact hnext
        · rw [vcontLoop_succ d fuel s hspec, if_neg (by simp [hpid]),
            ReadAction.vcontAction_of_notMem d pid tid s hletter]
          exact iff_of_true rfl (.unknown hletter hspec hpid)
      · rw [vcontLoop_succ d fuel s hspec, if_pos (by simp [hpid])]
        refine iff_of_false (fun he => hrefused (Except.ok.inj he)) fun hunknown => ?_
        cases hunknown with
        | unknown _ hspec' hpid' =>
          obtain ⟨rfl, -⟩ := hids hspec'
          exact hpid hpid'
        | action _ hspec' hpid' =>
          obtain ⟨rfl, -⟩ := hids hspec'
          exact hpid hpid'

/-- What follows `vCont` gets the empty reply if it comes to an unknown letter. -/
theorem handleVcont_eq_send_nil_iff (cb : GdbCallbacks x σ) {w : World x σ} {actions : List Byte}
    (hcurrent : w.dbg.currentThread ≠ -2) (htext : w.packetText = ascii "vCont" ++ actions)
    (hquery : actions ≠ ascii "?") (hsep : actions.head? ≠ some (chr ';')) :
    handleVcont cb w = .ok (false, w.send []) ↔ ComesToUnknown actions := by
  have hsend : ∀ payload : List Byte, payload ≠ [] →
      (.ok (false, w.send payload) : Result (Bool × World x σ)) ≠ .ok (false, w.send []) :=
    fun payload hne he => send_ne_send_nil hne rfl (Prod.mk.inj (Except.ok.inj he)).2
  have hne : ascii "vCont" ++ actions ≠ ascii "vCont?" := by
    have hsplit : ascii "vCont?" = ascii "vCont" ++ ascii "?" := rfl
    rw [hsplit]
    exact fun he => hquery (List.append_cancel_left he)
  have hfront : strncmpEq (ascii "vCont" ++ actions) (ascii "vCont") = true :=
    List.isPrefixOf_iff_prefix.mpr (List.prefix_append _ _)
  have hdrop : (ascii "vCont" ++ actions).drop 5 = actions := rfl
  have hskip : skipSemicolon actions = actions := by
    cases actions with
    | nil => rfl
    | cons c rest => exact if_neg fun hc => hsep (congrArg some hc)
  unfold handleVcont
  simp only [htext, hfront, hdrop, hskip, if_neg hne]
  rw [if_neg (by simp)]
  by_cases hnil : actions = []
  · rw [if_pos hnil, hnil]
    exact ⟨fun he => absurd he (hsend _ (by decide)), nofun⟩
  rw [if_neg hnil, ← vcontLoop_eq_reply_nil_iff hcurrent actions ⟨false, -1, -1, false⟩ le_rfl]
  obtain ⟨r, hloop, -⟩ := vcontLoop_eq_ok w.dbg actions ⟨false, -1, -1, false⟩ le_rfl
  rw [hloop]
  cases r with
  | reply payload =>
    by_cases hpayload : payload = []
    · rw [hpayload]
      exact iff_of_true rfl rfl
    · refine iff_of_false (hsend payload hpayload) fun he => hpayload ?_
      exact VcontOutcome.reply.inj (Except.ok.inj he)
  | actions s =>
    refine iff_of_false ?_ fun he => by cases Except.ok.inj he
    simp only [bind, Except.bind]
    have hrun : ∀ u : World x σ, (.ok (true, u) : Result (Bool × World x σ)) ≠
        .ok (false, w.send []) := fun u he => by cases (Prod.mk.inj (Except.ok.inj he)).1
    split_ifs
    · exact hsend _ (by decide)
    · exact hrun _
    · exact hrun _

/-! ### The dispatcher -/

/-- Any other character gets the empty reply. -/
theorem dispatch_of_notMem (fuel : Nat) (cb : GdbCallbacks x σ) {w : World x σ}
    (hcmd : byteAt w.stub.packetBuffer 0 ∉ 0x03 :: ascii "?gGpPmMXcsZzHTkDRqQv") :
    dispatch fuel cb w = .ok (0, w.send []) := by
  have hne : ∀ c ∈ 0x03 :: ascii "?gGpPmMXcsZzHTkDRqQv", byteAt w.stub.packetBuffer 0 ≠ c :=
    fun c hc he => hcmd (he ▸ hc)
  unfold dispatch
  simp only [hne 0x03 (by decide), hne (chr '?') (by decide), hne (chr 'q') (by decide),
    hne (chr 'Q') (by decide), hne (chr 'g') (by decide), hne (chr 'G') (by decide),
    hne (chr 'm') (by decide), hne (chr 'M') (by decide), hne (chr 'p') (by decide),
    hne (chr 'P') (by decide), hne (chr 'X') (by decide), hne (chr 'R') (by decide),
    hne (chr 'H') (by decide), hne (chr 'T') (by decide), hne (chr 'v') (by decide),
    hne (chr 'c') (by decide), hne (chr 's') (by decide), hne (chr 'Z') (by decide),
    hne (chr 'z') (by decide), hne (chr 'k') (by decide), hne (chr 'D') (by decide), if_false]

/-- A Ctrl-C is answered by a stop reply. -/
theorem dispatch_interrupt_ne (fuel : Nat) (cb : GdbCallbacks x σ) {w : World x σ}
    (hcmd : byteAt w.stub.packetBuffer 0 = 0x03) : dispatch fuel cb w ≠ .ok (0, w.send []) := by
  intro he
  have hdispatch : dispatch fuel cb w = .ok (0, handleInterrupt cb w) := by
    unfold dispatch
    simp only [hcmd]
    rfl
  obtain ⟨tid, cause, reply, ⟨multiprocess, signal, rfl⟩, hstub⟩ := stub_handleInterrupt cb w
  have heq := (Prod.mk.inj (Except.ok.inj (hdispatch.symm.trans he))).2
  have hout : (handleInterrupt cb w).stub.output = w.stub.output ++ [frame []] := by
    rw [heq, output_send_of_le w (Nat.zero_le _)]
  rw [hstub] at hout
  have hframe := List.singleton_inj.mp (List.append_cancel_left hout)
  have hlength := congrArg List.length hframe
  rw [length_frame, length_frame] at hlength
  have hpos : 0 < (stopReplyPrefix multiprocess signal tid ++ cause).length := Nat.succ_pos _
  rw [List.length_nil] at hlength
  omega

/-- A name without NUL is in front of a packet if it is in front of the packet text. -/
theorem prefix_takeWhile_iff {name p : List Byte} (hname : 0#8 ∉ name) :
    name <+: p.takeWhile (· ≠ 0#8) ↔ name <+: p := by
  refine ⟨fun h => h.trans (List.takeWhile_prefix _), ?_⟩
  rintro ⟨t, rfl⟩
  have hne : ∀ c ∈ name, decide (c ≠ 0#8) = true := by
    intro c hc
    exact decide_eq_true fun he => hname (he ▸ hc)
  rw [List.takeWhile_append_of_pos hne]
  exact List.prefix_append _ _

/-- A `v` packet. -/
theorem dispatch_v_iff (fuel : Nat) (cb : GdbCallbacks x σ) {w : World x σ} {q : List Byte}
    (hcurrent : 1 ≤ w.dbg.currentThread) (hcmd : byteAt w.stub.packetBuffer 0 = chr 'v')
    (htext : w.packetText = (chr 'v' :: q).takeWhile (· ≠ 0#8))
    (hunknown : commandName (chr 'v' :: q) ∉ supportedCommands) :
    dispatch fuel cb w = .ok (0, w.send []) ↔ ¬(ascii "vCont" <+: chr 'v' :: q ∧
      ¬ComesToUnknown (((chr 'v' :: q).drop 5).takeWhile (· ≠ 0#8))) := by
  by_cases hvcont : ascii "vCont" <+: chr 'v' :: q
  · obtain ⟨u, hu⟩ := hvcont
    rw [← hu] at htext hunknown ⊢
    -- what follows `vCont` is no separator, or the name would be that of a supported command
    have hhead : ∀ c, u.head? = some c → c ≠ chr ',' ∧ c ≠ chr ';' ∧ c ≠ chr ':' ∧ c ≠ chr '?' := by
      intro c hc
      obtain ⟨t, rfl⟩ : ∃ t, u = c :: t := ⟨u.tail, (List.cons_head?_tail hc).symm⟩
      refine ⟨?_, ?_, ?_, ?_⟩ <;>
        · rintro rfl
          exact hunknown (by decide : ascii "vCont" ∈ supportedCommands)
    -- the handler sees the text up to the first NUL
    have hactions : ∀ c, (u.takeWhile (· ≠ 0#8)).head? = some c → u.head? = some c := by
      intro c hc
      cases u with
      | nil => exact hc
      | cons a t =>
        rw [List.takeWhile_cons] at hc
        split_ifs at hc
        · exact hc
        · cases hc
    have htext' : w.packetText = ascii "vCont" ++ u.takeWhile (· ≠ 0#8) := htext
    have hfront : strncmpEq w.packetText (ascii "vCont") = true := by
      rw [htext']
      exact List.isPrefixOf_iff_prefix.mpr (List.prefix_append _ _)
    have hquery : u.takeWhile (· ≠ 0#8) ≠ ascii "?" := by
      intro he
      exact (hhead _ (hactions (chr '?') (by rw [he]; rfl))).2.2.2 rfl
    have hsep : (u.takeWhile (· ≠ 0#8)).head? ≠ some (chr ';') :=
      fun he => (hhead _ (hactions _ he)).2.1 rfl
    have hiff := handleVcont_eq_send_nil_iff cb (by omega) htext' hquery hsep
    have hdispatch : dispatch fuel cb w =
        (handleVcont cb w >>= fun r => .ok (if r.1 then 1 else 0, r.2)) := by
      unfold dispatch
      simp only [hcmd, hfront]
      rfl
    have hdrop : ((ascii "vCont" ++ u).drop 5).takeWhile (· ≠ 0#8) = u.takeWhile (· ≠ 0#8) := rfl
    rw [hdispatch, hdrop, not_and_or, not_not, or_iff_right fun h => h (List.prefix_append _ _),
      ← hiff]
    obtain ⟨run, w', hret, -⟩ := handleVcont_cases cb w
    rw [hret]
    cases run with
    -- a resume returns 1
    | true =>
      refine iff_of_false (fun he => ?_) fun he => ?_
      · exact absurd (Prod.mk.inj (Except.ok.inj he)).1 one_ne_zero
      · cases (Prod.mk.inj (Except.ok.inj he)).1
    | false =>
      refine ⟨fun he => ?_, fun he => ?_⟩
      · have hw : w' = w.send [] := (Prod.mk.inj (Except.ok.inj he)).2
        rw [hw]
      · have hw : w' = w.send [] := (Prod.mk.inj (Except.ok.inj he)).2
        rw [hw]
        rfl
  · -- any other `v` packet gets the empty reply
    refine iff_of_true ?_ fun h => hvcont h.1
    have hfront : strncmpEq w.packetText (ascii "vCont") = false := by
      rw [Bool.eq_false_iff, ne_eq, strncmpEq, List.isPrefixOf_iff_prefix, htext,
        prefix_takeWhile_iff (by decide)]
      exact hvcont
    unfold dispatch
    simp only [hcmd, hfront]
    rfl

/-- A packet that is received is a Ctrl-C, or its text is what the handlers see. -/
theorem packetText_of_receivePacket {w : World x σ} {stub : GdbStub}
    (hrecv : receivePacket w.stub = .ok (true, stub)) :
    stub.packet = [0x03] ∧ byteAt stub.packetBuffer 0 = 0x03 ∨
      HasBytes stub.packetBuffer 0 (stub.packet ++ [0#8]) ∧
        ({ w with stub := stub } : World x σ).packetText = stub.packet.takeWhile (· ≠ 0#8) := by
  obtain ⟨received, stub', hrecv', hcases⟩ := receivePacket_cases w.stub
  obtain ⟨rfl, rfl⟩ := Prod.mk.inj (Except.ok.inj (hrecv.symm.trans hrecv'))
  rcases hcases rfl with hint | hterm
  · exact Or.inl ⟨hint, byteAt_of_head?_packet (by rw [hint, List.head?_cons])⟩
  · have hbytes := hasBytes_of_terminated hterm
    exact Or.inr ⟨hbytes, cstr_eq_takeWhile hbytes⟩

/-- An unknown command gets the empty reply and nothing else is done, if and only if it is not taken
for a known one. -/
theorem emptyReply_iff {w : World x σ} {stub : GdbStub} (fuel : Nat) (cb : GdbCallbacks x σ)
    (hconn : w.stub.connected) (hfail : w.stub.consecutiveFailures < 50)
    (hcurrent : 1 ≤ w.dbg.currentThread) (hrecv : receivePacket w.stub = .ok (true, stub))
    (hunknown : UnknownCommand stub.packet) :
    gdbStubProcess fuel cb w = .ok (0, ({ w with stub := stub } : World x σ).send []) ↔
      ¬TakenForKnown stub.packet := by
  have hprocess : gdbStubProcess fuel cb w = dispatch fuel cb { w with stub := stub } := by
    rw [gdbStubProcess, hconn, if_neg (by simp), if_neg (by omega), hrecv]
    rfl
  rw [hprocess]
  set v : World x σ := { w with stub := stub } with hv
  rcases packetText_of_receivePacket hrecv with ⟨hint, hcmd⟩ | ⟨hbytes, htext⟩
  · refine iff_of_false (dispatch_interrupt_ne fuel cb hcmd) fun h => h (Or.inl ?_)
    rw [hint, List.head?_cons]
  -- a packet that begins with the Ctrl-C byte is taken for the byte itself
  by_cases hthree : stub.packet.head? = some 0x03
  · exact iff_of_false (dispatch_interrupt_ne fuel cb (byteAt_of_head?_packet hthree))
      fun h => h (Or.inl hthree)
  change v.packetText = _ at htext
  have hfront : ∀ {name : List Byte}, 0#8 ∉ name →
      (strncmpEq v.packetText name ↔ name <+: stub.packet) := by
    intro name hname
    rw [strncmpEq, List.isPrefixOf_iff_prefix, htext, prefix_takeWhile_iff hname]
  generalize stub.packet = p at hunknown hthree hbytes htext hfront
  cases p with
  -- the empty packet has no known command
  | nil =>
    have hcmd : byteAt v.stub.packetBuffer 0 = 0#8 := hbytes.head
    refine iff_of_true (dispatch_of_notMem fuel cb (by rw [hcmd]; decide)) ?_
    rintro (h | ⟨name, hname, h⟩ | ⟨h, -⟩)
    · cases h
    · rw [List.prefix_nil.mp h] at hname
      exact absurd hname (by decide)
    · exact absurd (List.prefix_nil.mp h) (by decide)
  | cons c q =>
    have hcmd : byteAt v.stub.packetBuffer 0 = c := hbytes.head
    have hfirst : ∀ {name : List Byte} {a : Byte}, name.head? = some a → c ≠ a →
        ¬name <+: c :: q := by
      rintro name a hname hne ⟨t, ht⟩
      have hhead := congrArg List.head? ht
      rw [List.head?_append, hname] at hhead
      exact hne (Option.some.inj hhead).symm
    have hqueries : ∀ name ∈ queryNames, name.head? = some (chr 'q') := by decide
    -- queries are told apart by the beginning of the text
    by_cases hq : c = chr 'q'
    · subst hq
      have hdispatch : dispatch fuel cb v = andReturnZero (handleQuery fuel cb v) := by
        unfold dispatch
        simp only [hcmd]
        rfl
      -- an unknown command begins with neither of the two that are parsed further
      have hxfer : ¬strncmpEq v.packetText (ascii "qXfer:features:read:target.xml") := by
        rw [hfront (by decide)]
        rintro ⟨t, ht⟩
        rw [← ht] at hunknown
        exact hunknown.2 rfl
      have hsearch : ¬strncmpEq v.packetText (ascii "qSearch:memory:") := by
        rw [hfront (by decide)]
        rintro ⟨t, ht⟩
        rw [← ht] at hunknown
        exact hunknown.1 (by decide : ascii "qSearch" ∈ supportedCommands)
      rw [hdispatch, andReturnZero_eq_ok_iff, handleQuery_eq_send_nil_iff fuel cb hxfer hsearch]
      have hnul : ∀ name ∈ queryNames, 0#8 ∉ name := by decide
      constructor
      · rintro hnone (h | ⟨name, hname, h⟩ | ⟨h, -⟩)
        · exact hthree h
        · rcases List.mem_cons.mp hname with rfl | hname
          · exact hfirst (a := chr 'Q') rfl (by decide) h
          · exact hnone name hname ((hfront (hnul name hname)).mpr h)
        · exact hfirst (a := chr 'v') rfl (by decide) h
      · intro hnot name hname h
        exact hnot (Or.inr (Or.inl ⟨name, List.mem_cons_of_mem _ hname,
          (hfront (hnul name hname)).mp h⟩))
    -- the only general set command is `QStartNoAckMode`
    by_cases hQ : c = chr 'Q'
    · subst hQ
      have hdispatch : dispatch fuel cb v = andReturnZero (.ok (handleGeneralSet v)) := by
        unfold dispatch
        simp only [hcmd]
        rfl
      rw [hdispatch, andReturnZero_eq_ok_iff, Except.ok.injEq, handleGeneralSet_eq_send_nil_iff,
        hfront (by decide)]
      constructor
      · rintro hnone (h | ⟨name, hname, h⟩ | ⟨h, -⟩)
        · exact hthree h
        · rcases List.mem_cons.mp hname with rfl | hname
          · exact hnone h
          · exact hfirst (hqueries name hname) (by decide) h
        · exact hfirst (a := chr 'v') rfl (by decide) h
      · exact fun hnot h => hnot (Or.inr (Or.inl ⟨_, List.mem_cons_self, h⟩))
    have hnames : ∀ name ∈ ascii "QStartNoAckMode" :: queryNames, ¬name <+: c :: q := by
      intro name hname
      rcases List.mem_cons.mp hname with rfl | hname
      · exact hfirst (a := chr 'Q') rfl hQ
      · exact hfirst (hqueries name hname) hq
    -- for the other letters only the third case is left
    have hnot : ¬TakenForKnown (c :: q) ↔ ¬(ascii "vCont" <+: c :: q ∧
        ¬ComesToUnknown (((c :: q).drop 5).takeWhile (· ≠ 0#8))) := by
      refine not_congr ⟨?_, fun h => Or.inr (Or.inr h)⟩
      rintro (h | ⟨name, hname, h⟩ | h)
      · exact absurd h hthree
      · exact absurd h (hnames name hname)
      · exact h
    rw [hnot]
    by_cases hletter : c = chr 'v'
    · subst hletter
      exact dispatch_v_iff fuel cb hcurrent hcmd htext hunknown.1
    · -- a letter that no branch of the `switch` has
      have hnotMem : c ∉ 0x03 :: (ascii "?gGpPmMXcsZzHTkDR" ++ [chr 'q', chr 'Q', chr 'v']) := by
        have hname : commandName (c :: q) = [c] := if_neg (by tauto)
        rintro (_ | ⟨_, hmem⟩)
        · exact hthree rfl
        rcases List.mem_append.mp hmem with hmem | hmem
        · refine hunknown.1 ?_
          rw [hname]
          exact List.mem_append_left _ (List.mem_map.mpr ⟨c, hmem, rfl⟩)
        · simp only [List.mem_cons, List.not_mem_nil, or_false] at hmem
          tauto
      refine iff_of_true (dispatch_of_notMem fuel cb (hcmd ▸ hnotMem)) fun h => ?_
      exact hfirst (a := chr 'v') rfl hletter h.1

instance (p : List Byte) : Decidable (UnknownCommand p) := instDecidableAnd

/-- One hart, and a packet that begins like a known one, with a letter that is no action. -/
def vcontxSession : Session := loadedSession 1 (frame (ascii "vContx"))

theorem emptyReply_vcontxSession :
    ∃ stub, receivePacket vcontxSession.world.stub = .ok (true, stub) ∧
      stub.packet = ascii "vContx" ∧ gdbStubProcess 0 emuCallbacks vcontxSession.world =
        .ok (0, World.send { vcontxSession.world with stub := stub } []) := by
  obtain ⟨stub, hrecv, hreceived⟩ := receivePacket_framed (s := vcontxSession.world.stub)
    (framed_frame_nil (p := ascii "vContx") (by decide)) (by decide)
  have hpacket := packet_of_received hreceived
  have hunknown : UnknownCommand stub.packet := by
    rw [hpacket]
    decide +kernel
  refine ⟨stub, hrecv, hpacket, (emptyReply_iff 0 emuCallbacks rfl (by decide +kernel)
    (by decide +kernel) hrecv hunknown).mpr ?_⟩
  rw [hpacket]
  rintro (h | ⟨name, hname, h⟩ | ⟨-, h⟩)
  · exact absurd h (by decide)
  · have hnone : ∀ name ∈ ascii "QStartNoAckMode" :: queryNames, ¬name <+: ascii "vContx" := by
      decide +kernel
    exact hnone name hname h
  · exact h (.unknown (by decide) rfl (by decide))

/-- One hart, and a request for the checksum of a memory block. -/
def checksumSession : Session := loadedSession 1 (frame (ascii "qCRC:80000000,10"))

/-- It is answered with the selected thread. -/
theorem not_emptyReply_checksumSession :
    SessionRun false 1 [] checksumSession ∧ UnknownCommand (ascii "qCRC:80000000,10") ∧
      checksumSession.handled = [ascii "qCRC:80000000,10"] ∧
      (checksumSession.next false .quiet).world.stub.output = [[chr '+'], frame (ascii "QC1")] ∧
      ∀ stub, gdbStubProcess 0 emuCallbacks checksumSession.world ≠
        .ok (0, World.send { checksumSession.world with stub := stub } []) := by
  refine ⟨sessionRun_loadedSession _ _ _, by decide +kernel, by decide +kernel, by decide +kernel,
    fun stub hret => ?_⟩
  have hlast := congrArg (fun r => r.toOption.map fun r => r.2.stub.output.getLast?) hret
  have hreply : ((gdbStubProcess 0 emuCallbacks checksumSession.world).toOption.map fun r =>
      r.2.stub.output.getLast?) = some (some (frame (ascii "QC1"))) := by
    decide +kernel
  have hempty : (World.send { checksumSession.world with stub := stub } []).stub.output.getLast? =
      some (frame []) := by
    rw [output_send_of_le _ (Nat.zero_le _), List.getLast?_concat]
  rw [hreply] at hlast
  have hframe := Option.some.inj (hlast.trans (congrArg some hempty))
  exact absurd (Option.some.inj hframe) (by decide +kernel)

end Rv32Gdb
