import Rv32Gdb.Equiv.Replies
import Rv32Gdb.Equiv.ThreadIds

/-!
# The list of threads

`threadInfo_of_le`: up to `threadInfoLimit` harts `qfThreadInfo` is answered with the ids of all
threads; the list of more harts does not fit the send buffer.  An id that is listed is alive and can
be selected, and `T` refuses any other number below `2 ^ 32`; but a number is taken modulo `2 ^ 32`:
`listsThreads_iff`.
-/

namespace Rv32Gdb

variable {x : Xlen} {σ : Type}

/-! ### The list -/

/-- The ids of the threads `h` to `h + n - 1`, each with a comma in front. -/
def threadIdEntries (multiprocess : Bool) (h n : Nat) : List Byte :=
  (List.range' h n).flatMap fun t : Nat => chr ',' :: threadIdText multiprocess t

/-- The ids of the threads `1` to `n`, separated by commas. -/
def threadList (multiprocess : Bool) (n : Nat) : List Byte :=
  chr 'm' :: [chr ','].intercalate ((List.range' 1 n).map fun t : Nat => threadIdText multiprocess t)

theorem threadIdEntries_succ (multiprocess : Bool) (h n : Nat) :
    threadIdEntries multiprocess h (n + 1) =
      (ascii "," ++ threadIdText multiprocess h) ++ threadIdEntries multiprocess (h + 1) n := rfl

theorem intercalate_cons_eq {α : Type} (sep a : List α) (l : List (List α)) :
    sep.intercalate (a :: l) = a ++ l.flatMap fun b => sep ++ b := by
  induction l generalizing a with
  | nil => simp
  | cons b l ih => rw [List.intercalate_cons_cons, ih, List.flatMap_cons, List.append_assoc,
      List.append_assoc]

theorem threadList_succ (multiprocess : Bool) (n : Nat) :
    threadList multiprocess (n + 1) =
      ascii "m" ++ threadIdText multiprocess 1 ++ threadIdEntries multiprocess 2 n := by
  rw [threadList, List.range'_succ, List.map_cons, intercalate_cons_eq, List.flatMap_map]
  rfl

/-- The loop appends all entries if they fit. -/
theorem threadInfoLoop_of_le (multiprocess : Bool) (n h : Nat) (response : CharArray gdbBufferSize)
    (hpos : 0 < response.data.length)
    (hfits : response.data.length + threadIdsLength multiprocess n h < gdbBufferSize) :
    ∃ response' pos, threadInfoLoop multiprocess n h response response.data.length =
        .ok (response', pos) ∧ 0 < pos ∧
      response'.data = response.data ++ threadIdEntries multiprocess h n := by
  induction n generalizing h response with
  | zero => exact ⟨response, _, rfl, hpos, (List.append_nil _).symm⟩
  | succ n ih =>
    rw [threadIdsLength] at hfits
    have htext : (ascii "," ++ threadIdText multiprocess h).length =
        1 + (threadIdText multiprocess h).length := by
      rw [List.length_append]
      rfl
    obtain ⟨r, hr, hdata⟩ := response.snprintfAt_of_le (gdbBufferSize - response.data.length)
      (ascii "," ++ threadIdText multiprocess h) (by omega) (by omega)
    rw [List.take_of_length_le (by omega)] at hdata
    have hlen : r.data.length =
        response.data.length + (ascii "," ++ threadIdText multiprocess h).length := by
      rw [hdata, List.length_append]
    obtain ⟨response', pos, hloop, hpos', hdata'⟩ := ih (h + 1) r (by omega) (by omega)
    refine ⟨response', pos, ?_, hpos', ?_⟩
    · rw [threadInfoLoop, if_pos ⟨hpos, by omega⟩]
      simp only [hr]
      rw [hlen] at hloop
      exact hloop
    · rw [hdata', hdata, threadIdEntries_succ, List.append_assoc]

/-- All threads are listed if the list fits the send buffer. -/
theorem threadInfo_of_le {multiprocess : Bool} {n : Nat} (hn : 1 ≤ n)
    (hle : n ≤ threadInfoLimit multiprocess) :
    threadInfo multiprocess n = .ok (threadList multiprocess n) := by
  obtain ⟨n, rfl⟩ := Nat.exists_eq_add_of_le' hn
  set first := ascii "m" ++ threadIdText multiprocess 1 with hfirst
  have hfirstlen : first.length = if multiprocess then 5 else 2 := by
    cases multiprocess <;> decide
  have hlow := (threadIdsLength_threadInfoLimit multiprocess).1
  have hmono := threadIdsLength_mono multiprocess 2
    (show n ≤ threadInfoLimit multiprocess - 1 by omega)
  obtain ⟨response, hresponse, hdata⟩ := (CharArray.empty gdbBufferSize).snprintfAt_of_le
    gdbBufferSize first (by decide) (by simp [CharArray.empty])
  have hdata' : response.data = first := by
    rw [hdata, List.take_of_length_le]
    · rfl
    · rw [hfirstlen]
      split_ifs <;> decide
  rw [← hfirstlen] at hlow
  obtain ⟨response', pos, hloop, hpos, hlist⟩ := threadInfoLoop_of_le multiprocess n 2 response
    (by rw [hdata', hfirstlen]; split_ifs <;> decide) (by rw [hdata', gdbBufferSize]; omega)
  rw [hdata'] at hloop hlist
  unfold threadInfo
  have hcount : (((n + 1 : Nat) : Int) - 1).toNat = n := by omega
  simp only [← hfirst, hresponse, bind, Except.bind, hcount, hloop]
  rw [if_pos hpos, hlist, hfirst, threadList_succ]

/-! ### The ids of threads -/

/-- The process id in front of the thread id, when there is one. -/
def processText (multiprocess : Bool) : List Byte := if multiprocess then ascii "p1." else []

theorem length_processText_le (multiprocess : Bool) : (processText multiprocess).length ≤ 3 := by
  cases multiprocess <;> decide

theorem threadIdText_natCast (multiprocess : Bool) {t : Nat} (ht : t < 2 ^ 32) :
    threadIdText multiprocess t = processText multiprocess ++ hexText t := by
  have htext : hexTextInt (t : Int) = hexText t := by
    rw [hexTextInt]
    congr 1
    omega
  rw [threadIdText, htext]
  cases multiprocess <;> rfl

/-- A hexadecimal number that follows the process id. -/
theorem parseThreadSpec_processText (multiprocess : Bool) {digits : List Byte}
    (hne : digits ≠ []) (hhex : ∀ c ∈ digits, isxdigit c) :
    parseThreadSpec (processText multiprocess ++ digits) =
      (if multiprocess then gdbStubPid else 0, readId (hexValue digits)) := by
  cases multiprocess with
  | false => exact parseThreadSpec_threadSpec (.thread (.number digits hne hhex))
  | true =>
    exact parseThreadSpec_threadSpec
      (.process (.number (ascii "1") (by decide) (by decide)) (.number digits hne hhex))

theorem threadPidValid_processText (multiprocess : Bool) :
    threadPidValid (if multiprocess then gdbStubPid else 0) := by
  cases multiprocess <;> decide

/-- What is read modulo `2 ^ 32` as the number of a thread. -/
def ReadsAsThread (n v : Nat) : Prop := v < 2 ^ 63 ∧ 1 ≤ v % 2 ^ 32 ∧ v % 2 ^ 32 ≤ n

instance (n v : Nat) : Decidable (ReadsAsThread n v) := inferInstanceAs (Decidable (_ ∧ _))

theorem readId_mem_iff {n v : Nat} (hn : n < 2 ^ 31) :
    (1 ≤ readId v ∧ readId v ≤ n) ↔ ReadsAsThread n v := by
  unfold ReadsAsThread readId
  by_cases hv : v < 2 ^ 63
  · rw [min_eq_left (by omega), toInt32, Int.bmod_def]
    split_ifs <;> omega
  · have hlast : toInt32 (2 ^ 63 - 1) = -1 := by decide
    rw [min_eq_right (by omega), hlast]
    omega

/-! ### Exchanges -/

/-- The packet `p` is answered with `reply`, which is sent; `t` is the target afterwards. -/
def Answers (cb : GdbCallbacks x σ) (w : World x σ) (p reply : List Byte) (t : Target x σ) : Prop :=
  ∀ fuel, ∃ w', gdbStubProcess fuel cb (w.withInput (frame p)) = .ok (0, w') ∧
    w'.stub.output = w.stub.output ++ w.stub.ack ++ [frame reply] ∧ w'.toTarget = t

/-- A packet without `#` and NUL is received as it is. -/
theorem exists_received {cb : GdbCallbacks x σ} {w : World x σ} {p : List Byte}
    (hconn : w.stub.connected) (hfail : w.stub.consecutiveFailures < 50)
    (hp : ∀ c ∈ p, c ≠ chr '#' ∧ c ≠ 0#8) (hlen : p.length < gdbBufferSize) (fuel : Nat) :
    ∃ v : World x σ, v.toTarget = w.toTarget ∧ v.stub.connected = w.stub.connected ∧
      v.packetText = p ∧ v.stub.output = w.stub.output ++ w.stub.ack ∧
      gdbStubProcess fuel cb (w.withInput (frame p)) = dispatch fuel cb v := by
  obtain ⟨s', hrecv, hproc⟩ := gdbStubProcess_framed (w := w.withInput (frame p)) fuel cb hconn hfail
    (framed_frame_nil fun h => (hp _ h).1 rfl) hlen
  refine ⟨{ w with stub := s' }, rfl, ?_, ?_, ?_, hproc⟩
  · show s'.connected = _
    rw [hrecv.eq]
    rfl
  · refine (packetText_of_received hrecv).trans (List.takeWhile_eq_self_iff.mpr fun c hc => ?_)
    exact decide_eq_true (hp c hc).2
  · show s'.output = _
    rw [hrecv.eq]
    rfl

/-- The handlers decide about the answer. -/
theorem answers_iff_of_dispatch {cb : GdbCallbacks x σ} {w : World x σ} {p : List Byte}
    (hconn : w.stub.connected) (hfail : w.stub.consecutiveFailures < 50)
    (hp : ∀ c ∈ p, c ≠ chr '#' ∧ c ≠ 0#8) (hlen : p.length < gdbBufferSize)
    {reply : List Byte} {t : Target x σ} (payload : List Byte)
    (hdispatch : ∀ fuel (v : World x σ), v.toTarget = w.toTarget →
      v.stub.connected = w.stub.connected → v.packetText = p → ∃ u : World x σ,
        u.toTarget = t ∧ u.stub = v.stub ∧ dispatch fuel cb v = .ok (0, u.send payload)) :
    Answers cb w p reply t ↔ payload.length ≤ 4091 ∧ frame payload = frame reply := by
  have hsent : ∀ u : World x σ, u.stub.output = w.stub.output ++ w.stub.ack →
      ((u.send payload).stub.output = w.stub.output ++ w.stub.ack ++ [frame reply] ↔
        payload.length ≤ 4091 ∧ frame payload = frame reply) := by
    intro u hu
    by_cases hshort : payload.length ≤ 4091
    · rw [output_send_of_le u hshort, hu, List.append_right_inj, List.singleton_inj]
      exact (and_iff_right hshort).symm
    · rw [World.send, sendPacket_of_lt (not_le.mp hshort), hu]
      refine iff_of_false (fun h => ?_) fun h => hshort h.1
      exact absurd (List.self_eq_append_right.mp h) (List.cons_ne_nil _ _)
  have hproc : ∀ fuel, ∃ u : World x σ, u.toTarget = t ∧
      u.stub.output = w.stub.output ++ w.stub.ack ∧
      gdbStubProcess fuel cb (w.withInput (frame p)) = .ok (0, u.send payload) := by
    intro fuel
    obtain ⟨v, htarget, hv, htext, hout, hproc⟩ := exists_received hconn hfail hp hlen fuel
    obtain ⟨u, hu, hstub, hret⟩ := hdispatch fuel v htarget hv htext
    exact ⟨u, hu, by rw [hstub, hout], hproc.trans hret⟩
  constructor
  · intro h
    obtain ⟨w', hret, hout, -⟩ := h 0
    obtain ⟨u, -, hu, hret'⟩ := hproc 0
    obtain ⟨-, rfl⟩ := Prod.mk.inj (Except.ok.inj (hret.symm.trans hret'))
    exact (hsent u hu).mp hout
  · intro h fuel
    obtain ⟨u, htarget, hu, hret⟩ := hproc fuel
    exact ⟨_, hret, (hsent u hu).mpr h, (World.toTarget_send _ _).trans htarget⟩

/-! ### Queries -/

theorem ne_of_mem_ascii (text : List Byte) (h : text.all fun c => c ≠ chr '#' && c ≠ 0#8) :
    ∀ c ∈ text, c ≠ chr '#' ∧ c ≠ 0#8 := by
  intro c hc
  simpa using List.all_eq_true.mp h c hc

/-- The list of all threads is sent if and only if it fits the send buffer. -/
theorem answers_qfThreadInfo_iff {cb : GdbCallbacks x σ} {w : World x σ} {n : Nat}
    (hconn : w.stub.connected) (hfail : w.stub.consecutiveFailures < 50)
    (hnum : ∀ v : World x σ, v.callOpt cb.getNumHarts 1 = ((n : Int), v)) (hn : 1 ≤ n) :
    Answers cb w (ascii "qfThreadInfo") (threadList w.dbg.multiprocessActive n) w.toTarget ↔
      n ≤ threadInfoLimit w.dbg.multiprocessActive := by
  obtain ⟨payload, hok, -, hlen⟩ := threadInfo_eq w.dbg.multiprocessActive n
  rw [answers_iff_of_dispatch hconn hfail (ne_of_mem_ascii _ (by decide)) (by decide) payload, hlen,
    Nat.cast_le]
  · refine and_iff_left_of_imp fun hle => ?_
    rw [threadInfo_of_le hn hle] at hok
    rw [Except.ok.inj hok]
  · intro fuel v htarget _ htext
    refine ⟨v, htarget, rfl, ?_⟩
    have hmp : v.dbg.multiprocessActive = w.dbg.multiprocessActive := by rw [htarget]
    have hhandle : handleThreadInfo cb v = .ok (v.send payload) := by
      unfold handleThreadInfo
      simp only [hnum, hmp, hok]
      rfl
    rw [dispatch_threadInfo fuel cb (by rw [htext]; decide), hhandle]
    rfl

theorem answers_qsThreadInfo {cb : GdbCallbacks x σ} {w : World x σ} (hconn : w.stub.connected)
    (hfail : w.stub.consecutiveFailures < 50) :
    Answers cb w (ascii "qsThreadInfo") (ascii "l") w.toTarget := by
  refine (answers_iff_of_dispatch hconn hfail (ne_of_mem_ascii _ (by decide)) (by decide) (ascii "l")
    ?_).mpr ⟨by decide, rfl⟩
  intro fuel v htarget _ htext
  refine ⟨v, htarget, rfl, ?_⟩
  have hcmd : byteAt v.stub.packetBuffer 0 = chr 'q' := (cstr_eq_cons htext).1
  have hhandle : handleQuery fuel cb v = .ok (v.send (ascii "l")) := by
    unfold handleQuery
    simp only [htext]
    rfl
  unfold dispatch
  simp only [hcmd, hhandle]
  rfl

/-! ### Threads -/

theorem ne_of_mem_processText {multiprocess : Bool} {digits : List Byte}
    (hhex : ∀ c ∈ digits, isxdigit c) :
    ∀ c ∈ processText multiprocess ++ digits, c ≠ chr '#' ∧ c ≠ 0#8 := by
  intro c hc
  rcases List.mem_append.mp hc with hc | hc
  · cases multiprocess with
    | false => exact absurd hc List.not_mem_nil
    | true => exact ne_of_mem_ascii (ascii "p1.") (by decide) c hc
  · exact ⟨(ne_of_isxdigit (hhex c hc)).2.2.1, (ne_of_isxdigit (hhex c hc)).2.2.2⟩

/-- `T` is answered by the number as it is read. -/
theorem answers_T_iff {cb : GdbCallbacks x σ} {w : World x σ} {n : Nat} (hconn : w.stub.connected)
    (hfail : w.stub.consecutiveFailures < 50)
    (hnum : ∀ v : World x σ, v.callOpt cb.getNumHarts 1 = ((n : Int), v)) (hn : n < 2 ^ 31)
    {multiprocess : Bool} {digits reply : List Byte} (hne : digits ≠ [])
    (hhex : ∀ c ∈ digits, isxdigit c)
    (hlen : (chr 'T' :: (processText multiprocess ++ digits)).length < gdbBufferSize) :
    Answers cb w (chr 'T' :: (processText multiprocess ++ digits)) reply w.toTarget ↔
      (ReadsAsThread n (hexValue digits) ∧ frame (ascii "OK") = frame reply ∨
        ¬ReadsAsThread n (hexValue digits) ∧ frame (ascii "E01") = frame reply) := by
  have hp : ∀ c ∈ chr 'T' :: (processText multiprocess ++ digits), c ≠ chr '#' ∧ c ≠ 0#8 :=
    List.forall_mem_cons.mpr ⟨by decide, ne_of_mem_processText hhex⟩
  have hpid := threadPidValid_processText multiprocess
  have hspec := parseThreadSpec_processText multiprocess hne hhex
  -- the number is compared as it comes out of the conversion to `int`
  have hdispatch : ∀ fuel (v : World x σ), v.packetText = chr 'T' :: (processText multiprocess ++
      digits) → dispatch fuel cb v = .ok (0, v.send (if 1 ≤ readId (hexValue digits) ∧
        readId (hexValue digits) ≤ n then ascii "OK" else ascii "E01")) := by
    intro fuel v htext
    obtain ⟨hcmd, hrest⟩ := cstr_eq_cons htext
    have hstr : cstr v.stub.packetBuffer 1 = processText multiprocess ++ digits := hrest
    have hhandle : handleThreadAlive cb v = v.send (if 1 ≤ readId (hexValue digits) ∧
        readId (hexValue digits) ≤ n then ascii "OK" else ascii "E01") := by
      unfold handleThreadAlive
      simp only [hnum, hstr, hspec, hpid]
      split_ifs <;> simp_all
    unfold dispatch
    simp only [hcmd, hhandle]
    rfl
  by_cases hread : ReadsAsThread n (hexValue digits)
  · rw [answers_iff_of_dispatch hconn hfail hp hlen (ascii "OK")]
    · simp only [hread, true_and, not_true_eq_false, false_and, or_false]
      exact and_iff_right (by decide)
    · intro fuel v htarget _ htext
      refine ⟨v, htarget, rfl, (hdispatch fuel v htext).trans ?_⟩
      rw [if_pos ((readId_mem_iff hn).mpr hread)]
  · rw [answers_iff_of_dispatch hconn hfail hp hlen (ascii "E01")]
    · simp only [hread, false_and, not_false_eq_true, true_and, false_or]
      exact and_iff_right (by decide)
    · intro fuel v htarget _ htext
      refine ⟨v, htarget, rfl, (hdispatch fuel v htext).trans ?_⟩
      rw [if_neg fun h => hread ((readId_mem_iff hn).mp h)]

/-- The target after thread `t` has been selected. -/
def selectedTarget (cb : GdbCallbacks x σ) (w : World x σ) (t : Nat) : Target x σ :=
  ((w.updDbg fun d => { d with currentThread := t }).actOpt
    (cb.setFocusHart.map fun f c s => f c s ((t : Int) - 1))).toTarget

/-- `Hg` selects a thread that exists. -/
theorem answers_Hg {cb : GdbCallbacks x σ} {w : World x σ} {n t : Nat} (hconn : w.stub.connected)
    (hfail : w.stub.consecutiveFailures < 50)
    (hnum : ∀ v : World x σ, v.callOpt cb.getNumHarts 1 = ((n : Int), v)) (hn : n < 2 ^ 31)
    (hpos : 1 ≤ t) (hle : t ≤ n) (multiprocess : Bool) :
    Answers cb w (chr 'H' :: chr 'g' :: threadIdText multiprocess t) (ascii "OK")
      (selectedTarget cb w t) := by
  rw [threadIdText_natCast multiprocess (by omega)]
  have hhex : ∀ c ∈ hexText t, isxdigit c := fun c hc => isxdigit_hexText hc
  have hp : ∀ c ∈ chr 'H' :: chr 'g' :: (processText multiprocess ++ hexText t),
      c ≠ chr '#' ∧ c ≠ 0#8 :=
    List.forall_mem_cons.mpr ⟨by decide, List.forall_mem_cons.mpr ⟨by decide,
      ne_of_mem_processText hhex⟩⟩
  have hshort := length_hexText_le (k := 8) (by decide) (show t < 16 ^ 8 by omega)
  have hprocess := length_processText_le multiprocess
  have hlen : (chr 'H' :: chr 'g' :: (processText multiprocess ++ hexText t)).length <
      gdbBufferSize := by
    rw [List.length_cons, List.length_cons, List.length_append, gdbBufferSize]
    omega
  refine (answers_iff_of_dispatch hconn hfail hp hlen (ascii "OK") ?_).mpr ⟨by decide, rfl⟩
  intro fuel v htarget hv htext
  obtain ⟨hcmd, hrest⟩ := cstr_eq_cons htext
  obtain ⟨hop, hstr⟩ := cstr_eq_cons hrest
  -- the id of a thread that exists is read unchanged
  have hread : readId (hexValue (hexText t)) = t := by
    rw [hexValue_hexText, readId, min_eq_left (by omega), toInt32,
      Int.bmod_eq_of_le_mul_two (by omega) (by omega)]
  have hspec := parseThreadSpec_processText multiprocess (hexText_ne_nil t) hhex
  rw [hread] at hspec
  have hpid := threadPidValid_processText multiprocess
  have hselect : selectedThread cb v t = ((t : Int), v) := by
    rw [selectedThread, if_neg (by omega)]
  set u := (v.updDbg fun d => { d with currentThread := t }).actOpt
    (cb.setFocusHart.map fun f c s => f c s ((t : Int) - 1)) with hu
  have hhandle : handleSetThread cb v = u.send (ascii "OK") := by
    unfold handleSetThread
    simp only [hnum, hstr, hop, hspec, hpid, hselect]
    rw [if_neg (by simp), if_neg (by simp), if_pos trivial, if_neg (by omega)]
  refine ⟨u, ?_, World.stub_actOpt _ _, ?_⟩
  · rw [hu]
    unfold selectedTarget
    cases cb.setFocusHart with
    | none =>
      show ({ v.toTarget with dbg := { v.dbg with currentThread := t } } : Target x σ) = _
      rw [htarget]
      rfl
    | some f =>
      show f v.stub.connected { v.toTarget with dbg := { v.dbg with currentThread := t } } _ = _
      rw [htarget, hv]
      rfl
  · unfold dispatch
    simp only [hcmd, hhandle]
    rfl

/-! ### Listing -/

/-- With `n` harts the client learns the ids of all threads, each of which is alive and can be
selected, in both syntaxes; the number `digits`, if it is that of no thread, is refused. -/
structure ListsThreads (cb : GdbCallbacks x σ) (w : World x σ) (n : Nat) (digits : List Byte) :
    Prop where
  first : Answers cb w (ascii "qfThreadInfo") (threadList w.dbg.multiprocessActive n) w.toTarget
  rest : Answers cb w (ascii "qsThreadInfo") (ascii "l") w.toTarget
  alive : ∀ (multiprocess : Bool) (t : Nat), 1 ≤ t → t ≤ n →
    Answers cb w (chr 'T' :: threadIdText multiprocess t) (ascii "OK") w.toTarget
  select : ∀ (multiprocess : Bool) (t : Nat), 1 ≤ t → t ≤ n →
    Answers cb w (chr 'H' :: chr 'g' :: threadIdText multiprocess t) (ascii "OK")
      (selectedTarget cb w t)
  refuse : ∀ multiprocess : Bool, ¬(1 ≤ hexValue digits ∧ hexValue digits ≤ n) →
    Answers cb w (chr 'T' :: (processText multiprocess ++ digits)) (ascii "E01") w.toTarget

/-- The listing is complete and agrees with `T` and `Hg` if and only if it fits the send buffer and
the number is not, modulo `2 ^ 32`, that of a thread. -/
theorem listsThreads_iff {cb : GdbCallbacks x σ} {w : World x σ} {n : Nat} {digits : List Byte}
    (hconn : w.stub.connected) (hfail : w.stub.consecutiveFailures < 50)
    (hnum : ∀ v : World x σ, v.callOpt cb.getNumHarts 1 = ((n : Int), v)) (hpos : 1 ≤ n)
    (hn : n < 2 ^ 31) (hne : digits ≠ []) (hhex : ∀ c ∈ digits, isxdigit c)
    (hlen : digits.length + 4 < gdbBufferSize) :
    ListsThreads cb w n digits ↔ n ≤ threadInfoLimit w.dbg.multiprocessActive ∧
      ¬(2 ^ 32 ≤ hexValue digits ∧ ReadsAsThread n (hexValue digits)) := by
  have hfirst := answers_qfThreadInfo_iff hconn hfail hnum hpos
  have hrefuse : ∀ multiprocess, Answers cb w (chr 'T' :: (processText multiprocess ++ digits))
      (ascii "E01") w.toTarget ↔ ¬ReadsAsThread n (hexValue digits) := by
    intro multiprocess
    have hprocess := length_processText_le multiprocess
    rw [answers_T_iff hconn hfail hnum hn hne hhex
      (by rw [List.length_cons, List.length_append]; omega)]
    have hE01 : ¬frame (ascii "OK") = frame (ascii "E01") := by decide +kernel
    exact ⟨fun h => h.elim (fun h => absurd h.2 hE01) And.left, fun h => Or.inr ⟨h, rfl⟩⟩
  constructor
  · intro h
    refine ⟨hfirst.mp h.first, fun hwrap => ?_⟩
    exact (hrefuse false).mp (h.refuse false fun hthread => by omega) hwrap.2
  · rintro ⟨hle, hwrap⟩
    refine ⟨hfirst.mpr hle, answers_qsThreadInfo hconn hfail, fun multiprocess t h1 ht => ?_,
      fun multiprocess t h1 ht => answers_Hg hconn hfail hnum hn h1 ht multiprocess,
      fun multiprocess hnot => (hrefuse multiprocess).mpr fun hread => ?_⟩
    · have hshort := length_hexText_le (k := 8) (by decide) (show t < 16 ^ 8 by omega)
      have hprocess := length_processText_le multiprocess
      rw [threadIdText_natCast _ (by omega)]
      refine (answers_T_iff hconn hfail hnum hn (hexText_ne_nil t) (fun c hc => isxdigit_hexText hc)
        ?_).mpr (Or.inl ⟨?_, rfl⟩)
      · rw [List.length_cons, List.length_append, gdbBufferSize]
        omega
      · rw [hexValue_hexText]
        unfold ReadsAsThread
        omega
    · unfold ReadsAsThread at hread hwrap
      omega

/-- The table of a system of three harts. -/
def threeHarts : GdbCallbacks .x32 Emu :=
  { emuCallbacks with getNumHarts := some fun _ t => (3, t) }

theorem listsThreads_threeHarts :
    ListsThreads threeHarts (loadedSession 3 []).world 3 (ascii "4") :=
  (listsThreads_iff (by decide) (by decide) (fun _ => rfl) (by decide) (by decide) (by decide)
    (by decide) (by decide)).mpr (by decide +kernel)

/-- `T100000001` is answered with `OK`. -/
theorem not_listsThreads_threeHarts :
    ¬ListsThreads threeHarts (loadedSession 3 []).world 3 (ascii "100000001") := by
  intro h
  have hrefuse := h.refuse false (by decide)
  rw [answers_T_iff (n := 3) (by decide) (by decide) (fun _ => rfl) (by decide) (by decide)
    (by decide) (by decide)] at hrefuse
  exact absurd hrefuse (by decide +kernel)

end Rv32Gdb
