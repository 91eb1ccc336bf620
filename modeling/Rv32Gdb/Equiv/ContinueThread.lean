import Rv32Gdb.Equiv.ThreadStep
import Rv32Gdb.Equiv.Reachable
import Rv32Gdb.Equiv.ThreadIds
import Rv32Gdb.Equiv.UnknownCommands

/-!
# The threads that may run

`continue_thread` decides which threads may run, and a run leaves it as it is
(`continueThread_of_resumeRun`).  The main results: `onlyEligible_continue_iff`, a `c` packet lets
every hart run, also after `Hc` has selected one of them; `refuses_missingThread_iff`, of the packets
that name a thread only `Hg` and `T` are checked against the number of harts, and the number only as
an `int`; if no other one names a missing thread, the run loop always has a hart that it may step.
-/

namespace Rv32Gdb

/-! ### Runs -/

theorem runInvariant_continueThread (n : Nat) (k : Int) :
    RunInvariant fun w => SessionInv n w ∧ w.dbg.continueThread = k where
  focusHart_lt w h := (sessionInvariant_sessionInv n).focusHart_lt w h.1
  stub w s hs h := ⟨(sessionInvariant_sessionInv n).stub w s hs h.1, h.2⟩
  frame w m hm h := ⟨(sessionInvariant_sessionInv n).frame w m hm.toSelectFrame h.1,
    hm.continueThread.trans h.2⟩
  focus w k hk h := ⟨(sessionInvariant_sessionInv n).focus w k hk h.1, h.2⟩

/-- A run leaves the thread that is continued as it is. -/
theorem continueThread_of_resumeRun {debugMode : Bool} {n : Nat} {P : Event → Session → Prop}
    {s s' : Session} (hinv : SessionInv n s.world) (hrun : ResumeRun debugMode P s s') :
    SessionInv n s'.world ∧ s'.world.dbg.continueThread = s.world.dbg.continueThread := by
  induction hrun with
  | refl => exact ⟨hinv, rfl⟩
  | tail _ hstep ih =>
    obtain ⟨hrun, e, -, hstep⟩ := hstep
    exact (runInvariant_continueThread n _).step hrun ih hstep

/-! ### `c` -/

/-- Until the next stop the hart `h` may run if and only if `P h`. -/
def EligibleUntilStop (debugMode : Bool) (n : Nat) (P : Nat → Prop) (s : Session) : Prop :=
  ∀ s', ResumeRun debugMode (fun _ _ => True) s s' → s'.Running → ∀ h < n,
    (gdbStubShouldRunThread s'.world.dbg (sysThreadId h) ↔ P h)

/-- An `Hc` packet that names the thread `t` is accepted in a step. -/
def SelectsContinue (debugMode : Bool) (s : Session) (t : Nat) (s' : Session) : Prop :=
  s.phase = .waiting ∧ (∃ e, sessionStep debugMode e s = .ok s') ∧
    (∃ spec, s.handled = [ascii "Hc" ++ spec] ∧ (parseThreadSpec spec).2 = t) ∧
    s'.world.stub.output = s.world.stub.output ++ s.world.stub.ack ++ [frame (ascii "OK")]

/-- The last accepted `Hc` packet has named the thread `t` of `n`, and no `H`, `vCont` or `R` packet
has come since. -/
def ContinueSelected (debugMode : Bool) (n t : Nat) (s : Session) : Prop :=
  1 ≤ t ∧ t ≤ n ∧ ∃ packets s₀ s₁ packets', SessionRun debugMode n packets s₀ ∧
    SelectsContinue debugMode s₀ t s₁ ∧ SessionFrom debugMode s₁ packets' s ∧
    ∀ p ∈ packets', p.head? ≠ some (chr 'H') ∧ ¬ascii "vCont" <+: p ∧ p.head? ≠ some (chr 'R')

/-- A `c` packet is accepted, and all threads are continued. -/
theorem exists_continueAccepted {debugMode : Bool} {n : Nat} {s : Session} {rest : List Byte}
    (hinv : SessionInv n s.world) (hwait : s.phase = .waiting)
    (hin : Framed (ascii "c") rest s.world.stub.input) (e : Event) :
    ∃ s₁, sessionStep debugMode e s = .ok s₁ ∧ s₁.phase = .loopHead ∧
      s₁.world.dbg.continueThread = -1 := by
  have hsig := Prelude.signaled s e
  have hfail : (s.signaled e).stub.consecutiveFailures < 50 := by
    rw [hsig.stub, hinv.consecutiveFailures]
    decide
  obtain ⟨stub, hrecv, hprocess⟩ := gdbStubProcess_framed (w := s.signaled e) e.fuel emuCallbacks
    (by rw [hsig.stub, hinv.connected]) hfail (by rwa [hsig.stub]) (by decide)
  have hcmd : byteAt stub.packetBuffer 0 = chr 'c' := hrecv.bytes.head
  have hdispatch : dispatch e.fuel emuCallbacks { s.signaled e with stub := stub } =
      .ok (1, handleContinue emuCallbacks { s.signaled e with stub := stub }) := by
    unfold dispatch
    simp only [hcmd]
    rfl
  rw [hdispatch] at hprocess
  have hafter : ∀ u : EmuWorld, u.dbg.singleStep = false →
      afterProcess (1, u) = ⟨.loopHead, u.withTarget (sysResumeRunnable u.toTarget)⟩ := by
    intro u hu
    show (if u.dbg.singleStep then _ else _ : Session) = _
    rw [hu]
    rfl
  refine ⟨⟨.loopHead, (handleContinue emuCallbacks { s.signaled e with stub := stub }).withTarget
    (sysResumeRunnable (handleContinue emuCallbacks { s.signaled e with stub := stub }).toTarget)⟩,
    ?_, rfl, rfl⟩
  rw [sessionStep, hwait, phaseStep, hsig.stub, hinv.connected, if_neg (by simp), hprocess]
  exact congrArg Except.ok (hafter _ rfl)

/-- A `c` packet lets every hart run; so it lets only the hart of the thread that `Hc` has selected
run if and only if there is no other one. -/
theorem onlyEligible_continue_iff {debugMode : Bool} {n : Nat} {packets : List (List Byte)}
    {s : Session} {rest : List Byte} (hn : validHartCount n) (hrun : SessionRun debugMode n packets s)
    (hwait : s.phase = .waiting) (hin : Framed (ascii "c") rest s.world.stub.input) (e : Event) :
    ∃ s₁, sessionStep debugMode e s = .ok s₁ ∧ s₁.phase = .loopHead ∧
      EligibleUntilStop debugMode n (fun _ => True) s₁ ∧
      ∀ t, ContinueSelected debugMode n t s →
        (EligibleUntilStop debugMode n (fun h => h + 1 = t) s₁ ↔ n = 1) := by
  have hinv := sessionInv_of_sessionRun hn hrun (by simp [hwait])
  obtain ⟨s₁, hstep, hphase, hcontinue⟩ := exists_continueAccepted hinv hwait hin e
  have hinv₁ := sessionInv_of_sessionRun hn (hrun.step e hstep) (by simp [hphase])
  have hall : ∀ s', ResumeRun debugMode (fun _ _ => True) s₁ s' → ∀ h,
      gdbStubShouldRunThread s'.world.dbg (sysThreadId h) := by
    intro s' hrun' h
    rw [gdbStubShouldRunThread_iff, (continueThread_of_resumeRun hinv₁ hrun').2, hcontinue]
    exact Or.inl (by decide)
  have hrunning : s₁.Running := ⟨by simp [hphase], by simp [hphase]⟩
  refine ⟨s₁, hstep, hphase, fun s' hrun' _ h _ => iff_of_true (hall s' hrun' h) trivial, ?_⟩
  rintro t ⟨hpos, hle, -⟩
  constructor
  · intro honly
    have hfirst := (honly s₁ .refl hrunning 0 (by omega)).mp (hall s₁ .refl 0)
    by_contra hne
    have hsecond := (honly s₁ .refl hrunning 1 (by omega)).mp (hall s₁ .refl 1)
    omega
  · rintro rfl s' hrun' - h hh
    exact iff_of_true (hall s' hrun' h) (by omega)

/-- One hart whose thread has been selected by `Hc`, and `c`. -/
def oneThreadSession : Session := loadedSession 1 (frame (ascii "Hcp1.1") ++ frame (ascii "c"))

theorem onlyEligible_oneThreadSession :
    ∃ s₁, sessionStep false .quiet (oneThreadSession.next false .quiet) = .ok s₁ ∧
      s₁.phase = .loopHead ∧ EligibleUntilStop false 1 (fun _ => True) s₁ ∧
      EligibleUntilStop false 1 (fun h => h + 1 = 1) s₁ := by
  have hstart : SessionRun false 1 [] oneThreadSession := sessionRun_loadedSession _ _ _
  have hselect : SelectsContinue false oneThreadSession 1 (oneThreadSession.next false .quiet) :=
    ⟨rfl, ⟨.quiet, sessionStep_next (by decide +kernel)⟩,
      ⟨ascii "p1.1", by decide +kernel, by decide +kernel⟩, by decide +kernel⟩
  have hinput : (oneThreadSession.next false .quiet).world.stub.input = frame (ascii "c") := by
    decide +kernel
  obtain ⟨s₁, hstep, hphase, hall, honly⟩ := onlyEligible_continue_iff (by decide)
    (hstart.step .quiet (sessionStep_next (by decide +kernel))) (by decide +kernel)
    (hinput ▸ framed_frame_nil (by decide)) .quiet
  refine ⟨s₁, hstep, hphase, hall, (honly 1 ?_).mpr rfl⟩
  exact ⟨le_rfl, le_rfl, [], _, _, [], hstart, hselect, .refl, fun p hp => absurd hp List.not_mem_nil⟩

/-- Two harts, of which `Hc` has selected the second one, and `c`. -/
def secondThreadSession : Session :=
  (loadedSession 2 (frame (ascii "Hcp1.2") ++ frame (ascii "c"))).next false .quiet

/-- The first hart may run all the same, and it executes an instruction. -/
theorem not_onlyEligible_secondThreadSession :
    ContinueSelected false 2 2 secondThreadSession ∧ secondThreadSession.handled = [ascii "c"] ∧
      secondThreadSession.steps false [.quiet, .quiet, .quiet] ∧
      ¬EligibleUntilStop false 2 (fun h => h + 1 = 2) (secondThreadSession.next false .quiet) ∧
      (secondThreadSession.after false [.quiet, .quiet, .quiet]).world.sim.trace =
        [.turn 0 0x80000000, .exec 0 0x80000000] := by
  refine ⟨⟨by decide, le_rfl, [], loadedSession 2 (frame (ascii "Hcp1.2") ++ frame (ascii "c")),
    _, [], sessionRun_loadedSession _ _ _, ⟨rfl, ⟨.quiet, sessionStep_next (by decide +kernel)⟩,
      ⟨ascii "p1.2", by decide +kernel, by decide +kernel⟩, by decide +kernel⟩, .refl,
    fun p hp => absurd hp List.not_mem_nil⟩, by decide +kernel, by decide +kernel, fun honly => ?_,
    by decide +kernel⟩
  have hfirst := honly _ .refl ⟨by decide +kernel, by decide +kernel⟩ 0 (by decide)
  exact absurd (hfirst.mp (by decide +kernel)) (by decide)

/-! ### Packets that name threads -/

/-- The thread id of an action as it is written, from the colon on; without a colon it is empty. -/
def actionSpec (text : List Byte) : List Byte :=
  if text.head? = some (chr ':') then (text.drop 1).takeWhile (· ≠ chr ';') else []

/-- Read as actions of `vCont`, the text is a list of actions, and `specs` are the thread ids in
it. -/
inductive VcontWrites : List Byte → List ReadAction → List (List Byte) → Prop
  | nil : VcontWrites [] [] []
  | cons {letter : Byte} {pid tid : Int} {rest next : List Byte} {actions : List ReadAction}
      {specs : List (List Byte)}
      (hspec : vcontSpec (skipSignal letter rest) = .ok (some ((pid, tid), next)))
      (htail : VcontWrites (skipSemicolon next) actions specs) :
      VcontWrites (letter :: rest) (⟨letter, pid, tid⟩ :: actions)
        (actionSpec (skipSignal letter rest) :: specs)

/-- The ids of an action are those that are read off its thread id. -/
theorem parseThreadSpec_actionSpec {text next : List Byte} {ids : Int × Int}
    (hspec : vcontSpec text = .ok (some (ids, next))) : parseThreadSpec (actionSpec text) = ids := by
  have hempty : ∀ next', (.ok (some ((0, -1), next')) : Result (Option ((Int × Int) × List Byte))) =
      .ok (some (ids, next)) → parseThreadSpec [] = ids := fun next' h =>
    (Prod.mk.inj (Option.some.inj (Except.ok.inj h))).1
  cases text with
  | nil => exact hempty _ hspec
  | cons c rest =>
    rw [actionSpec, List.head?_cons]
    by_cases hc : c = chr ':'
    · obtain rfl := hc
      simp only [vcontSpec] at hspec
      rw [if_pos trivial] at hspec
      rw [if_pos rfl]
      by_cases hlen : (rest.takeWhile (· ≠ chr ';')).length ≥ 32
      · rw [if_pos hlen] at hspec
        cases Except.ok.inj hspec
      · obtain ⟨p, hpush, hdata⟩ := (CharArray.empty 32).pushAll_of_le
          (rest.takeWhile (· ≠ chr ';')) (by simp only [CharArray.empty, List.length_nil]; omega)
        have hdata' : p.data = rest.takeWhile (· ≠ chr ';') := by simpa [CharArray.empty] using hdata
        rw [if_neg hlen, hpush] at hspec
        simp only [bind, Except.bind, p.terminate_of_lt (by rw [hdata']; omega)] at hspec
        rw [hdata'] at hspec
        exact (Prod.mk.inj (Option.some.inj (Except.ok.inj hspec))).1
    · simp only [vcontSpec] at hspec
      rw [if_neg hc] at hspec
      rw [if_neg fun h => hc (Option.some.inj h)]
      exact hempty _ hspec

theorem VcontWrites.reads {text : List Byte} {actions : List ReadAction}
    {specs : List (List Byte)} (h : VcontWrites text actions specs) :
    VcontReads text actions ∧
      actions.map (fun a => (a.pid, a.tid)) = specs.map parseThreadSpec := by
  induction h with
  | nil => exact ⟨.nil, rfl⟩
  | cons hspec _ ih =>
    refine ⟨.cons hspec ih.1, ?_⟩
    rw [List.map_cons, List.map_cons, ih.2, parseThreadSpec_actionSpec hspec]

theorem exists_vcontWrites {text : List Byte} {actions : List ReadAction}
    (h : VcontReads text actions) : ∃ specs, VcontWrites text actions specs := by
  induction h with
  | nil => exact ⟨_, .nil⟩
  | cons hspec _ ih =>
    obtain ⟨specs, hspecs⟩ := ih
    exact ⟨_, .cons hspec hspecs⟩

/-- A packet that names threads, with the thread ids in it as they are written: `Hg`, `Hc`, `T`, or
`vCont` with a list of actions. -/
inductive ThreadPacket : List Byte → List (List Byte) → Prop
  | focus (spec : List Byte) : ThreadPacket (ascii "Hg" ++ spec) [spec]
  | resume (spec : List Byte) : ThreadPacket (ascii "Hc" ++ spec) [spec]
  | alive (spec : List Byte) : ThreadPacket (ascii "T" ++ spec) [spec]
  | vcont {text : List Byte} {actions : List ReadAction} {specs : List (List Byte)}
      (hwrites : VcontWrites (skipSemicolon text) actions specs)
      (hletters : ∀ a ∈ actions, a.letter ∈ vcontLetters) :
      ThreadPacket (ascii "vCont" ++ text) specs

/-- One of the ids names a thread past the last one of `n`. -/
def NamesMissing (n : Nat) (specs : List (List Byte)) : Prop :=
  ∃ spec ∈ specs, (n : Int) < (namedIds spec).2

/-- One of the ids is for another process. -/
def NamesOtherProcess (specs : List (List Byte)) : Prop :=
  ∃ spec ∈ specs, ¬threadPidValid (parseThreadSpec spec).1

/-- The thread is found to be missing: it is an `Hg` packet and the number is past `n` as an `int`,
or it is a `T` packet and the number as an `int` is that of no thread. -/
def ChecksThread (n : Nat) (p : List Byte) (specs : List (List Byte)) : Prop :=
  NamesOtherProcess specs ∨ ∃ spec, p = ascii "Hg" ++ spec ∧ n < readId (namedIds spec).2 ∨
    p = ascii "T" ++ spec ∧ ¬(1 ≤ readId (namedIds spec).2 ∧ readId (namedIds spec).2 ≤ n)

/-- A missing thread is read as an `int`. -/
theorem snd_parseThreadSpec_of_missing {n : Nat} {spec : List Byte}
    (hmissing : (n : Int) < (namedIds spec).2) :
    (parseThreadSpec spec).2 = readId (namedIds spec).2 :=
  parseThreadSpec_eq.2 (by omega)

/-- Two different replies. -/
theorem send_ne_send {w w₁ : EmuWorld} {a b : List Byte} (ha : a.length ≤ 4091)
    (hb : b.length ≤ 4091) (hne : frame a ≠ frame b) (hout : w₁.stub.output = w.stub.output) :
    w₁.send a ≠ w.send b := by
  intro heq
  have houtput := congrArg (fun w : EmuWorld => w.stub.output) heq
  simp only [output_send_of_le _ ha, output_send_of_le _ hb, hout] at houtput
  exact hne (List.singleton_inj.mp (List.append_cancel_left houtput))

/-- The thread id of an `H` packet. -/
theorem cstr_of_packetText_H {w : EmuWorld} {op : Byte} {spec : List Byte}
    (htext : w.packetText = chr 'H' :: op :: spec) :
    byteAt w.stub.packetBuffer 0 = chr 'H' ∧ byteAt w.stub.packetBuffer 1 = op ∧
      cstr w.stub.packetBuffer 2 = spec := by
  obtain ⟨hcmd, hrest⟩ := cstr_eq_cons htext
  obtain ⟨hop, hspec⟩ := cstr_eq_cons hrest
  exact ⟨hcmd, hop, hspec⟩

theorem callOpt_getNumHarts {n : Nat} {w : EmuWorld} (hinv : MachineInv n w.toTarget) :
    w.callOpt emuCallbacks.getNumHarts 1 = ((n : Int), w) :=
  congrArg (fun k : Nat => ((k : Int), w)) hinv.sys.numHarts

theorem dispatch_H {w : EmuWorld} (fuel : Nat) (hcmd : byteAt w.stub.packetBuffer 0 = chr 'H') :
    dispatch fuel emuCallbacks w = .ok (0, handleSetThread emuCallbacks w) := by
  unfold dispatch
  simp only [hcmd]
  rfl

/-- Without a thread of its own, `Hg` selects one that exists. -/
theorem selectedThread_mem {n : Nat} {w : EmuWorld} (hinv : MachineInv n w.toTarget) {tid : Int}
    (hle : tid ≤ n) :
    1 ≤ (selectedThread emuCallbacks w tid).1 ∧ (selectedThread emuCallbacks w tid).1 ≤ n := by
  have hstop : w.callOpt emuCallbacks.getStopHart 0 = (w.sim.sys.stopHart, w) := rfl
  have hfocus : w.callOpt emuCallbacks.getFocusHart 0 = ((w.sim.sys.focusHart : Int), w) := rfl
  have hstop_lt := hinv.sys.stopHart_lt
  have hfocus_lt := hinv.sys.focusHart_lt
  change w.sim.sys.stopHart < n at hstop_lt
  change w.sim.sys.focusHart < n at hfocus_lt
  unfold selectedThread
  simp only [hstop, hfocus]
  split_ifs
  · show 1 ≤ (w.sim.sys.focusHart : Int) + 1 ∧ (w.sim.sys.focusHart : Int) + 1 ≤ n
    omega
  · show 1 ≤ w.sim.sys.stopHart + 1 ∧ w.sim.sys.stopHart + 1 ≤ n
    omega
  · show 1 ≤ tid ∧ tid ≤ n
    omega

/-- `Hg` is refused for another process and for a thread past the last one. -/
theorem handleSetThread_focus_iff {n : Nat} {w : EmuWorld} {spec : List Byte}
    (hinv : MachineInv n w.toTarget) (hop : byteAt w.stub.packetBuffer 1 = chr 'g')
    (hspec : cstr w.stub.packetBuffer 2 = spec) :
    handleSetThread emuCallbacks w = w.send (ascii "E01") ↔
      ¬threadPidValid (parseThreadSpec spec).1 ∨ n < (parseThreadSpec spec).2 := by
  have hsnd := snd_selectedThread w (parseThreadSpec spec).2
  unfold handleSetThread
  simp only [hop, hspec, callOpt_getNumHarts hinv, hsnd]
  rw [if_neg (by simp)]
  by_cases hpid : threadPidValid (parseThreadSpec spec).1
  swap
  · rw [if_pos (by simpa using hpid)]
    exact iff_of_true rfl (Or.inl hpid)
  rw [if_neg (by simp [hpid]), if_pos trivial, or_iff_right (not_not.mpr hpid)]
  by_cases hle : (parseThreadSpec spec).2 ≤ n
  · have hmem := selectedThread_mem hinv hle
    rw [if_neg (by omega)]
    exact iff_of_false (send_ne_send (by decide) (by decide) (by decide +kernel) rfl) (by omega)
  · have hselect : selectedThread emuCallbacks w (parseThreadSpec spec).2 =
        ((parseThreadSpec spec).2, w) := by
      rw [selectedThread, if_neg (by omega)]
    rw [hselect]
    simp only
    rw [if_pos (by omega)]
    exact iff_of_true rfl (by omega)

/-- `Hc` is not. -/
theorem handleSetThread_resume {w : EmuWorld} {spec : List Byte}
    (hop : byteAt w.stub.packetBuffer 1 = chr 'c') (hspec : cstr w.stub.packetBuffer 2 = spec) :
    handleSetThread emuCallbacks w =
      if threadPidValid (parseThreadSpec spec).1 then
        (w.updDbg fun d => { d with
          continueThread := if (parseThreadSpec spec).2 ≤ 0 then -1 else (parseThreadSpec spec).2
          }).send (ascii "OK")
      else w.send (ascii "E01") := by
  have hnum : w.callOpt emuCallbacks.getNumHarts 1 = ((w.sim.sys.numHarts : Int), w) := rfl
  unfold handleSetThread
  simp only [hop, hspec, hnum]
  rw [if_neg (by simp)]
  by_cases hpid : threadPidValid (parseThreadSpec spec).1
  · have hcont := resolveContinueThread_of_valid hpid (parseThreadSpec spec).2
    rw [if_neg (by simp [hpid]), if_neg (by decide), if_pos hpid, hcont,
      if_neg (by split_ifs <;> omega)]
  · rw [if_pos (by simp [hpid]), if_neg hpid]

/-- `T` is refused for another process and for a number that is not that of a thread. -/
theorem handleThreadAlive_iff {n : Nat} {w : EmuWorld} {spec : List Byte}
    (hinv : MachineInv n w.toTarget) (hspec : cstr w.stub.packetBuffer 1 = spec) :
    handleThreadAlive emuCallbacks w = w.send (ascii "E01") ↔
      ¬threadPidValid (parseThreadSpec spec).1 ∨
        ¬(1 ≤ (parseThreadSpec spec).2 ∧ (parseThreadSpec spec).2 ≤ n) := by
  unfold handleThreadAlive
  simp only [hspec, callOpt_getNumHarts hinv]
  by_cases hpid : threadPidValid (parseThreadSpec spec).1
  swap
  · rw [if_pos (by simpa using hpid)]
    exact iff_of_true rfl (Or.inl hpid)
  rw [if_neg (by simp [hpid]), or_iff_right (not_not.mpr hpid)]
  split_ifs with hrange
  · exact iff_of_false (send_ne_send (by decide) (by decide) (by decide +kernel) rfl)
      (not_not.mpr hrange)
  · exact iff_of_true rfl hrange

/-- A packet that names a missing thread is refused and nothing else is done, if and only if the
thread is found to be missing. -/
theorem dispatch_threadPacket_iff {n : Nat} {w : EmuWorld} {specs : List (List Byte)} (fuel : Nat)
    (hinv : MachineInv n w.toTarget) (hpacket : ThreadPacket w.packetText specs)
    (hmissing : NamesMissing n specs) :
    dispatch fuel emuCallbacks w = .ok (0, w.send (ascii "E01")) ↔
      ChecksThread n w.packetText specs := by
  have hd : w.dbg.currentThread ≠ -2 := by
    have := hinv.threads.currentThread_pos
    omega
  have hpair : ∀ {u : EmuWorld}, (.ok (0, u) : Result (Int × EmuWorld)) =
      .ok (0, w.send (ascii "E01")) ↔ u = w.send (ascii "E01") :=
    ⟨fun he => (Prod.mk.inj (Except.ok.inj he)).2, fun he => by rw [he]⟩
  have hother : ∀ spec, NamesOtherProcess [spec] ↔ ¬threadPidValid (parseThreadSpec spec).1 := by
    intro spec
    rw [NamesOtherProcess]
    simp only [List.mem_singleton, exists_eq_left]
  generalize htext : w.packetText = text at hpacket
  cases hpacket with
  | focus spec =>
    have htext' : w.packetText = chr 'H' :: chr 'g' :: spec := htext
    obtain ⟨hcmd, hop, hspec⟩ := cstr_of_packetText_H htext'
    obtain ⟨_, hmem, hpast⟩ := hmissing
    obtain rfl := List.mem_singleton.mp hmem
    rw [dispatch_H fuel hcmd, hpair, handleSetThread_focus_iff hinv hop hspec,
      snd_parseThreadSpec_of_missing hpast, ChecksThread, hother]
    refine or_congr_right ⟨fun h => ⟨_, Or.inl ⟨rfl, h⟩⟩, ?_⟩
    rintro ⟨spec', ⟨heq, h⟩ | ⟨heq, -⟩⟩
    · rwa [List.append_cancel_left heq]
    · exact absurd (List.cons.inj heq).1 (by decide)
  -- `Hc` looks at the process id only
  | resume spec =>
    have htext' : w.packetText = chr 'H' :: chr 'c' :: spec := htext
    obtain ⟨hcmd, hop, hspec⟩ := cstr_of_packetText_H htext'
    rw [dispatch_H fuel hcmd, hpair, handleSetThread_resume hop hspec, ChecksThread, hother]
    by_cases hpid : threadPidValid (parseThreadSpec spec).1
    · rw [if_pos hpid]
      refine iff_of_false (send_ne_send (by decide) (by decide) (by decide +kernel) rfl) ?_
      rintro (hnot | ⟨spec', ⟨heq, -⟩ | ⟨heq, -⟩⟩)
      · exact hnot hpid
      · exact absurd (List.cons.inj (List.cons.inj heq).2).1 (by decide)
      · exact absurd (List.cons.inj heq).1 (by decide)
    · rw [if_neg hpid]
      exact iff_of_true rfl (Or.inl hpid)
  | alive spec =>
    have htext' : w.packetText = chr 'T' :: spec := htext
    obtain ⟨hcmd, hspec⟩ := cstr_eq_cons htext'
    obtain ⟨_, hmem, hpast⟩ := hmissing
    obtain rfl := List.mem_singleton.mp hmem
    have hdispatch : dispatch fuel emuCallbacks w = .ok (0, handleThreadAlive emuCallbacks w) := by
      unfold dispatch
      simp only [hcmd]
      rfl
    rw [hdispatch, hpair, handleThreadAlive_iff hinv hspec, snd_parseThreadSpec_of_missing hpast,
      ChecksThread, hother]
    refine or_congr_right ⟨fun h => ⟨_, Or.inr ⟨rfl, h⟩⟩, ?_⟩
    rintro ⟨spec', ⟨heq, -⟩ | ⟨heq, h⟩⟩
    · exact absurd (List.cons.inj heq).1 (by decide)
    · rwa [List.append_cancel_left heq]
  | @vcont text actions specs hwrites hletters =>
    obtain ⟨hread, hids⟩ := hwrites.reads
    have hspecs : (∃ spec ∈ specs, ¬threadPidValid (parseThreadSpec spec).1) ↔
        ∃ a ∈ actions, ¬threadPidValid a.pid := by
      have hmap := congrArg (fun l : List (Int × Int) => ∃ id ∈ l, ¬threadPidValid id.1) hids
      simp only [List.mem_map, exists_exists_and_eq_and] at hmap
      exact (iff_of_eq hmap).symm
    have hne : actions ≠ [] := by
      rintro rfl
      obtain ⟨spec, hspec, -⟩ := hmissing
      rw [List.map_nil, eq_comm, List.map_eq_nil_iff] at hids
      rw [hids] at hspec
      exact absurd hspec List.not_mem_nil
    have htext' : w.packetText = chr 'v' :: (ascii "Cont" ++ text) := htext
    have hcmd := (cstr_eq_cons htext').1
    have hfront : strncmpEq w.packetText (ascii "vCont") = true := by
      rw [htext]
      exact List.isPrefixOf_iff_prefix.mpr (List.prefix_append _ _)
    have hdispatch : dispatch fuel emuCallbacks w = (do
        let (runCpu, w) ← handleVcont emuCallbacks w
        .ok (if runCpu then 1 else 0, w)) := by
      unfold dispatch
      simp only [hcmd, hfront]
      rfl
    rw [hdispatch, ChecksThread, NamesOtherProcess, hspecs]
    -- `vCont` refuses a foreign process, and resumes whatever threads it names otherwise
    by_cases hpid : ∃ a ∈ actions, ¬threadPidValid a.pid
    · rw [handleVcont_of_not_valid emuCallbacks hd htext hread hletters hpid]
      exact iff_of_true rfl (Or.inl hpid)
    · have hvalid : ∀ a ∈ actions, threadPidValid a.pid := by
        intro a ha
        by_contra hnot
        exact hpid ⟨a, ha, hnot⟩
      rw [handleVcont_of_accepted emuCallbacks htext hread hne
        fun a ha => ⟨hletters a ha, hvalid a ha, fun _ => hd⟩]
      refine iff_of_false (fun he => ?_) ?_
      · exact absurd (Prod.mk.inj (Except.ok.inj he)).1 (by decide)
      · rintro (h | ⟨spec, ⟨heq, -⟩ | ⟨heq, -⟩⟩)
        · exact hpid h
        · exact absurd (List.cons.inj heq).1 (by decide)
        · exact absurd (List.cons.inj heq).1 (by decide)

/-! ### The thread that is continued -/

/-- All threads are continued, or one of `n`. -/
def ContinuesHart (n : Nat) (t : Int) : Prop := t = -1 ∨ 1 ≤ t ∧ t ≤ n

/-- The threads that are selected and continued exist. -/
structure ContinueInv (n : Nat) (w : EmuWorld) : Prop where
  machine : MachineInv n w.toTarget
  continueThread : ContinuesHart n w.dbg.continueThread

/-- An `Hc` or `vCont` packet names no thread whose number is past `n` as it is read, unless it
names another process. -/
def NamesHarts (n : Nat) (p : List Byte) : Prop :=
  ∀ specs, ThreadPacket p specs → ascii "Hc" <+: p ∨ ascii "vCont" <+: p →
    (∃ spec ∈ specs, (n : Int) < (parseThreadSpec spec).2) → NamesOtherProcess specs

namespace ContinueInv

variable {n : Nat} {w : EmuWorld}

theorem of_execFrame (h : ContinueInv n w) {m' : Machine} (hframe : ExecFrame w.toTarget m')
    (hmachine : MachineInv n m') : ContinueInv n (w.withTarget m') := by
  refine ⟨hmachine, ?_⟩
  have hsame : m'.dbg.continueThread = w.dbg.continueThread := by rw [hframe.dbg]
  show ContinuesHart n m'.dbg.continueThread
  rw [hsame]
  exact h.continueThread

theorem commandSteps (n : Nat) : CommandSteps emuCallbacks (ContinueInv n) where
  send w data h := ⟨(MachineInv.commandSteps n).send w data h.machine, h.continueThread⟩
  setBuffer w buf h := ⟨h.machine, h.continueThread⟩
  updDbg w f hf h := by
    refine ⟨(MachineInv.commandSteps n).updDbg w f hf h.machine, ?_⟩
    show ContinuesHart n (f w.dbg).continueThread
    rw [hf.continueThread]
    exact h.continueThread
  noAckMode w h := ⟨h.machine, h.continueThread⟩
  readReg w i h := ⟨h.machine, h.continueThread⟩
  writeReg w i v h := ⟨(MachineInv.commandSteps n).writeReg w i v h.machine, h.continueThread⟩
  readMem w a k h := h.of_execFrame (execFrame_sysReadMem _ _ _ _)
    ((MachineInv.commandSteps n).readMem w a k h.machine)
  writeMem w a v k h := h.of_execFrame (execFrame_sysWriteMem _ _ _ _ _ _)
    ((MachineInv.commandSteps n).writeMem w a v k h.machine)
  getPc w h := ⟨h.machine, h.continueThread⟩
  setPc w pc h := ⟨(MachineInv.commandSteps n).setPc w pc h.machine, h.continueThread⟩
  resume w h := ⟨(MachineInv.commandSteps n).resume w h.machine, h.continueThread⟩
  getNumHarts w d h := ⟨h.machine, h.continueThread⟩
  haltCpus w h := ⟨(MachineInv.commandSteps n).haltCpus w h.machine, h.continueThread⟩

/-- Only ids of threads that exist are kept by `Hc`. -/
theorem handleSetThread (h : ContinueInv n w) (hnames : NamesHarts n w.packetText)
    (hcmd : byteAt w.stub.packetBuffer 0 = chr 'H') :
    ContinueInv n (handleSetThread emuCallbacks w) := by
  refine ⟨h.machine.handleSetThread, ?_⟩
  by_cases hop : byteAt w.stub.packetBuffer 1 = chr 'c'
  · have htext : w.packetText = ascii "Hc" ++ cstr w.stub.packetBuffer 2 := by
      rw [World.packetText, cstr_eq, hcmd, if_neg (by decide), cstr_eq, hop, if_neg (by decide)]
      rfl
    rw [handleSetThread_resume hop rfl]
    generalize hspec : parseThreadSpec (cstr w.stub.packetBuffer 2) = id
    by_cases hpid : threadPidValid id.1
    · have hthread : ContinuesHart n (if id.2 ≤ 0 then -1 else id.2) := by
        by_cases hneg : id.2 ≤ 0
        · rw [if_pos hneg]
          exact Or.inl rfl
        rw [if_neg hneg]
        refine Or.inr ⟨by omega, not_lt.mp fun hpast => ?_⟩
        have hpacket := ThreadPacket.resume (cstr w.stub.packetBuffer 2)
        have hfront : ascii "Hc" <+: w.packetText := htext ▸ List.prefix_append _ _
        rw [← htext] at hpacket
        rw [← hspec] at hpast hpid
        obtain ⟨spec, hmem, hnot⟩ := hnames _ hpacket (Or.inl hfront)
          ⟨_, List.mem_singleton_self _, hpast⟩
        rw [List.mem_singleton.mp hmem] at hnot
        exact hnot hpid
      rw [if_pos hpid]
      exact hthread
    · rw [if_neg hpid]
      exact h.continueThread
  · have hsame : (Rv32Gdb.handleSetThread emuCallbacks w).dbg.continueThread =
        w.dbg.continueThread := by
      unfold Rv32Gdb.handleSetThread
      simp only [snd_selectedThread, callOpt_getNumHarts h.machine]
      generalize (selectedThread emuCallbacks _ _).1 = tid
      split_ifs <;> first | rfl | tauto
    rw [hsame]
    exact h.continueThread

end ContinueInv

/-- What the loop has gathered so far are threads that exist. -/
def GathersHarts (n : Nat) (s : VcontState) : Prop :=
  ContinuesHart n s.continueTid ∧ (s.anyStep → ContinuesHart n s.stepTid)

/-- An action for a thread that exists. -/
theorem GathersHarts.gather {n : Nat} {d : DebugState .x32} (hd : ThreadInv n d) {a : ReadAction}
    (hpid : threadPidValid a.pid) (hle : a.tid ≤ n) {s : VcontState} (h : GathersHarts n s) :
    GathersHarts n (a.gather d s) := by
  obtain ⟨hcont, hstep⟩ := h
  unfold ReadAction.gather
  by_cases hc : a.Continues
  · rw [if_pos hc]
    refine ⟨?_, hstep⟩
    show ContinuesHart n (resolveContinueThread a.pid a.tid)
    rw [resolveContinueThread_of_valid hpid]
    split_ifs
    · exact Or.inl rfl
    · exact Or.inr ⟨by omega, hle⟩
  · rw [if_neg hc]
    refine ⟨hcont, fun _ => ?_⟩
    show ContinuesHart n (resolveStepThread d a.pid a.tid)
    rw [resolveStepThread_of_valid d hpid]
    split_ifs
    · exact Or.inr ⟨hd.currentThread_pos, hd.currentThread_le⟩
    · exact Or.inr ⟨by omega, hle⟩

theorem gathersHarts_gathered {n : Nat} {d : DebugState .x32} (hd : ThreadInv n d)
    {actions : List ReadAction} (hpid : ∀ a ∈ actions, threadPidValid a.pid)
    (hle : ∀ a ∈ actions, a.tid ≤ n) : GathersHarts n (ReadAction.gathered d actions) := by
  induction actions using List.reverseRecOn with
  | nil => exact ⟨Or.inl rfl, fun h => absurd h Bool.false_ne_true⟩
  | append_singleton actions a ih =>
    have hmem : a ∈ actions ++ [a] := List.mem_append_right _ (List.mem_singleton_self _)
    rw [ReadAction.gathered, List.foldl_append]
    exact (ih (fun b hb => hpid b (List.mem_append_left _ hb))
      fun b hb => hle b (List.mem_append_left _ hb)).gather hd (hpid a hmem) (hle a hmem)

theorem continuesHart_resumed {n : Nat} {d : DebugState .x32} {s : VcontState}
    (h : GathersHarts n s) : ContinuesHart n (d.resumed s).continueThread := by
  obtain ⟨hcont, hstep⟩ := h
  show ContinuesHart n (if s.anyStep then s.stepTid else s.continueTid)
  split_ifs with hany
  · exact hstep hany
  · exact hcont

namespace ContinueInv

variable {n : Nat} {w : EmuWorld}

/-- Only threads that exist are kept by `vCont`. -/
theorem handleVcont (h : ContinueInv n w) (hnames : NamesHarts n w.packetText) {run : Bool}
    {w' : EmuWorld} (hret : handleVcont emuCallbacks w = .ok (run, w')) : ContinueInv n w' := by
  refine ⟨(MachineInv.commandSteps n).handleVcont h.machine
    (fun f hf => ⟨h.machine.sys, h.machine.threads.resumeFrame hf⟩) hret, ?_⟩
  have hsend : ∀ payload, (.ok (false, w.send payload) : Result (Bool × EmuWorld)) =
      .ok (run, w') → ContinuesHart n w'.dbg.continueThread := by
    intro payload he
    obtain ⟨-, rfl⟩ := Prod.mk.inj (Except.ok.inj he)
    exact h.continueThread
  have hd : w.dbg.currentThread ≠ -2 := by
    have := h.machine.threads.currentThread_pos
    omega
  unfold Rv32Gdb.handleVcont at hret
  simp only at hret
  split_ifs at hret with hquery hfront hnil
  · exact hsend _ hret
  · exact hsend _ hret
  · exact hsend _ hret
  · obtain ⟨r, hloop, -⟩ := vcontLoop_eq_ok w.dbg
      (skipSemicolon (w.packetText.drop 5)) ⟨false, -1, -1, false⟩ le_rfl
    rw [hloop] at hret
    cases r with
    | reply payload => exact hsend _ hret
    | actions s =>
      simp only [bind, Except.bind] at hret
      split at hret
      · exact hsend _ hret
      obtain ⟨-, rfl⟩ := Prod.mk.inj (Except.ok.inj hret)
      obtain ⟨actions, hread, haccepted, rfl⟩ := exists_reads_of_vcontLoop hd hloop
      obtain ⟨specs, hwrites⟩ := exists_vcontWrites hread
      have hpacket := ThreadPacket.vcont hwrites fun a ha => (haccepted a ha).letter_mem
      have hids := hwrites.reads.2
      have htext : ascii "vCont" ++ w.packetText.drop 5 = w.packetText := by
        have hpre : strncmpEq w.packetText (ascii "vCont") := by simpa using hfront
        obtain ⟨rest, hrest⟩ := List.isPrefixOf_iff_prefix.mp hpre
        rw [← hrest]
        rfl
      rw [htext] at hpacket
      -- were a missing thread among them, the packet would name another process
      refine continuesHart_resumed (gathersHarts_gathered h.machine.threads
        (fun a ha => (haccepted a ha).pid_valid) fun a ha => not_lt.mp fun hpast => ?_)
      have hid : (a.pid, a.tid) ∈ specs.map parseThreadSpec :=
        hids ▸ List.mem_map.mpr ⟨a, ha, rfl⟩
      obtain ⟨spec, hspec, hread⟩ := List.mem_map.mp hid
      have hfront : ascii "vCont" <+: w.packetText := htext ▸ List.prefix_append _ _
      obtain ⟨other, hother, hnot⟩ := hnames _ hpacket (Or.inr hfront)
        ⟨spec, hspec, by rw [hread]; exact hpast⟩
      have hid' : parseThreadSpec other ∈ actions.map fun a => (a.pid, a.tid) :=
        hids ▸ List.mem_map.mpr ⟨other, hother, rfl⟩
      obtain ⟨b, hb, hb'⟩ := List.mem_map.mp hid'
      rw [← hb'] at hnot
      exact hnot (haccepted b hb).pid_valid

theorem dispatch {fuel : Nat} {r : Int × EmuWorld} (h : ContinueInv n w)
    (hnames : NamesHarts n w.packetText) (hret : dispatch fuel emuCallbacks w = .ok r) :
    ContinueInv n r.2 := by
  obtain ⟨v, w'⟩ := r
  by_cases hneg : v < 0
  · rcases dispatch_of_neg hret hneg with rfl | rfl
    · exact h
    · exact ⟨(MachineInv.commandSteps n).send w (ascii "OK") h.machine, h.continueThread⟩
  · have hcurrent : ContinuesHart n w.dbg.currentThread :=
      Or.inr ⟨h.machine.threads.currentThread_pos, h.machine.threads.currentThread_le⟩
    have hresume : ∀ f, ResumeFrame w.dbg (f w.dbg) →
        MachineInv n ((w.updDbg f).actOpt emuCallbacks.resume).toTarget := fun f hf =>
      (MachineInv.commandSteps n).resume _ ⟨h.machine.sys, h.machine.threads.resumeFrame hf⟩
    refine (commandSteps n).dispatch fuel h (fun hcmd => h.handleSetThread hnames hcmd)
      (fun _ => ⟨h.machine.handleReset, Or.inl rfl⟩) (fun run w' _ hv => h.handleVcont hnames hv)
      (fun _ => ⟨hresume _ ⟨rfl, Or.inr (Or.inl rfl)⟩, Or.inl rfl⟩)
      (fun _ => ⟨hresume _ ⟨rfl, Or.inr (Or.inl rfl)⟩, ?_⟩) v w' hret (not_lt.mp hneg)
    show ContinuesHart n (if _ then _ else _)
    split_ifs
    · exact hcurrent
    · exact h.continueThread

theorem signaled {s : Session} (h : ContinueInv n s.world) (e : Event) :
    ContinueInv n (s.signaled e) := by
  refine ⟨h.machine.signaled e, ?_⟩
  have hsame : (s.signaled e).dbg.continueThread = s.world.dbg.continueThread := by
    rw [(Prelude.signaled s e).dbg]
  rw [hsame]
  exact h.continueThread

end ContinueInv

theorem head?_of_threadPacket {p : List Byte} {specs : List (List Byte)}
    (h : ThreadPacket p specs) :
    p.head? = some (chr 'H') ∨ p.head? = some (chr 'T') ∨ p.head? = some (chr 'v') := by
  cases h with
  | focus spec => exact Or.inl rfl
  | resume spec => exact Or.inl rfl
  | alive spec => exact Or.inr (Or.inl rfl)
  | vcont hwrites hletters => exact Or.inr (Or.inr rfl)

/-- A packet with another first character names no thread. -/
theorem not_threadPacket {c : Byte} {p : List Byte} {specs : List (List Byte)}
    (hc : c ∉ [chr 'H', chr 'T', chr 'v']) : ¬ThreadPacket (c :: p) specs := by
  intro h
  simp only [List.mem_cons, List.not_mem_nil, or_false, not_or] at hc
  rcases head?_of_threadPacket h with he | he | he
  · exact hc.1 (Option.some.inj he)
  · exact hc.2.1 (Option.some.inj he)
  · exact hc.2.2 (Option.some.inj he)

theorem ContinueInv.step {debugMode : Bool} {n : Nat} {e : Event} {s s' : Session}
    (h : ContinueInv n s.world) (hinv : s.phase ≠ .ended → SessionInv n s.world)
    (hnames : ∀ p ∈ s.handled, NamesHarts n (p.takeWhile (· ≠ 0#8)))
    (hstep : sessionStep debugMode e s = .ok s') : ContinueInv n s'.world := by
  have hsig := h.signaled e
  by_cases hwait : s.phase = .waiting
  · have hsession := hinv (by simp [hwait])
    have hfail := hsession.consecutiveFailures
    rcases step_of_waiting hwait hsession.connected (by omega) hstep with
      ⟨stub, -, rfl⟩ | ⟨stub, r, hrecv, hret, rfl⟩
    · exact ⟨hsig.machine, hsig.continueThread⟩
    · have hrecv' : receivePacket (s.signaled e).stub = .ok (true, stub) := by
        rwa [(Prelude.signaled s e).stub]
      have htext : NamesHarts n (World.packetText { s.signaled e with stub := stub }) := by
        rcases packetText_of_receivePacket hrecv' with ⟨-, hint⟩ | ⟨-, htext⟩
        · intro specs hpacket
          rw [World.packetText, cstr_eq, hint, if_neg (by decide)] at hpacket
          exact absurd hpacket (not_threadPacket (by decide))
        · rw [htext]
          exact hnames _ (packet_mem_handled hwait hrecv)
      have hr := ContinueInv.dispatch (w := { s.signaled e with stub := stub })
        ⟨hsig.machine, hsig.continueThread⟩ htext hret
      rcases afterProcess_cases r with ⟨-, hafter⟩ | ⟨-, hafter⟩ | ⟨-, -, hafter⟩
      · rw [hafter]
        exact hr
      · rw [hafter]
        exact ⟨⟨hr.machine.sys.sysResumeRunnable, hr.machine.threads⟩, hr.continueThread⟩
      · rw [hafter]
        exact hr
  · refine ⟨h.machine.step hstep, ?_⟩
    by_cases hended : s.phase = .ended
    · rw [sessionStep, hended] at hstep
      obtain rfl := Except.ok.inj hstep
      exact hsig.continueThread
    · have hsame := ((runInvariant_continueThread n _).step ⟨hwait, hended⟩
        ⟨hinv hended, rfl⟩ hstep).2
      rw [hsame]
      exact h.continueThread

theorem continueInv_of_sessionRun {debugMode : Bool} {n : Nat} {packets : List (List Byte)}
    {s : Session} (hn : validHartCount n) (hrun : SessionRun debugMode n packets s)
    (hnames : ∀ p ∈ packets, NamesHarts n (p.takeWhile (· ≠ 0#8))) : ContinueInv n s.world := by
  have hpos : 0 < n := by
    refine Nat.pos_of_ne_zero ?_
    rintro rfl
    exact absurd hn (by decide)
  refine ⟨machineInv_of_sessionRun hpos hrun, ?_⟩
  induction hrun with
  | init input => exact Or.inl rfl
  | step e hrun hstep ih =>
    have hearlier := ih fun p hp => hnames p (List.mem_append_left _ hp)
    exact (ContinueInv.step ⟨machineInv_of_sessionRun hpos hrun, hearlier⟩
      (fun hended => sessionInv_of_sessionRun hn hrun hended)
      (fun p hp => hnames p (List.mem_append_right _ hp)) hstep).continueThread

/-- The run loop has a hart that it may step. -/
theorem ContinueInv.exists_shouldStepHart {n : Nat} {w : EmuWorld} (h : ContinueInv n w) :
    ∃ k < n, shouldStepHart w k := by
  have hpos : 0 < n := Nat.zero_lt_of_lt h.machine.sys.focusHart_lt
  have hshould : ∀ k : Nat, w.dbg.continueThread < 0 ∨ w.dbg.continueThread = sysThreadId k →
      gdbStubShouldRunThread w.dbg (sysThreadId k) = true := fun k hk =>
    (gdbStubShouldRunThread_iff _ _).mpr hk
  rcases h.continueThread with hall | ⟨hone, hle⟩
  · refine ⟨0, hpos, ?_⟩
    have hneg : w.dbg.continueThread < 0 := by omega
    rw [shouldStepHart, hshould 0 (Or.inl hneg), if_neg (by decide), if_pos hneg, if_pos rfl,
      ite_self]
  · obtain ⟨k, hk⟩ := Int.eq_ofNat_of_zero_le (show 0 ≤ w.dbg.continueThread - 1 by omega)
    have hthread : w.dbg.continueThread = sysThreadId k := by
      unfold sysThreadId
      omega
    refine ⟨k, by omega, ?_⟩
    rw [shouldStepHart, hshould k (Or.inr hthread), if_neg (by decide),
      if_neg (c := _ < _) (by omega), decide_eq_true hthread, ite_self]

/-- One hart, and a packet that selects a second thread. -/
def missingFocusSession : Session := loadedSession 1 (frame (ascii "Hgp1.2"))

/-- Two harts that are continued. -/
def continuedSession : Session := loadedSession 2 (frame (ascii "c"))

/-- Two harts, and a packet that selects a third thread to be continued. -/
def missingContinueSession : Session := loadedSession 2 (frame (ascii "Hc3"))

/-- Two harts, and a packet that continues a third thread. -/
def missingVcontSession : Session := loadedSession 2 (frame (ascii "vCont;c:3"))

/-- Two harts, and packets that name the thread `2 ^ 32 + 1`. -/
def wrappedFocusSession : Session := loadedSession 2 (frame (ascii "Hg100000001"))
def wrappedAliveSession : Session := loadedSession 2 (frame (ascii "T100000001"))

end Rv32Gdb
