import Rv32Gdb.Equiv.Resume
import Rv32Gdb.Equiv.Replies
import Mathlib.Tactic.IntervalCases

/-!
# Stepping a thread

The thread to be stepped is in the stub (`continue_thread`), the hart that `main` steps is its
focus hart.  `step_of_stepping` is what a step does in either case.  The main results:
`stepsHart_vCont_iff`, a `vCont` step of a thread steps its hart if that is the focus hart;
`stepsHart_s_iff`, after `Hg` the command `s` steps the selected hart if it still is the focus
hart and no earlier command has left another thread in `continue_thread`.
-/

namespace Rv32Gdb

/-! ### Executed instructions in the trace -/

/-- Whether an event is an executed instruction of hart `h`. -/
def HartEvent.isExecOf (h : Nat) : HartEvent → Bool
  | .exec k _ => k = h
  | _ => false

theorem countP_execEvents {m : Machine} {h : Nat} (hrun : (m.hart h).running) :
    (execEvents m h).countP (HartEvent.isExecOf h) = 1 := by
  have hself : HartEvent.isExecOf h (.exec h (m.hart h).pc) := decide_eq_true rfl
  rw [execEvents, if_pos hrun, List.countP_cons_of_pos hself, Nat.add_eq_right, List.countP_eq_zero]
  intro ev hev
  obtain ⟨access, -, rfl⟩ := List.mem_map.mp hev
  simp [HartEvent.isExecOf]

theorem countP_turnEvents_of_ne {m : Machine} {h k : Nat} (hk : k ≠ h) :
    (turnEvents k m).countP (HartEvent.isExecOf h) = 0 := by
  rw [List.countP_eq_zero]
  intro ev hev
  rcases List.mem_cons.mp hev with rfl | hev
  · simp [HartEvent.isExecOf]
  · unfold execEvents at hev
    split_ifs at hev
    · rcases List.mem_cons.mp hev with rfl | hev
      · simpa [HartEvent.isExecOf] using hk
      · obtain ⟨access, -, rfl⟩ := List.mem_map.mp hev
        simp [HartEvent.isExecOf]
    · exact absurd hev List.not_mem_nil

/-- Only hart `0` starts jobs, and a job is one of another hart. -/
theorem of_mem_nestedTurns {connected : Bool} {m : Machine} {h : Nat} {turn : Nat × Machine}
    (hturn : turn ∈ nestedTurns connected m h) :
    (m.hart h).hartId = 0 ∧ 0 < turn.1 ∧ turn.1 < m.sys.numHarts := by
  unfold nestedTurns at hturn
  cases hjob : stepJob connected m h with
  | none =>
    rw [hjob] at hturn
    exact absurd hturn List.not_mem_nil
  | some job =>
    obtain ⟨t, m'⟩ := job
    rw [hjob] at hturn
    obtain ⟨m'', -, rfl⟩ := List.mem_map.mp hturn
    have hstep := execFrame_rv32CpuStep connected m h
    have hdeliver : ∀ (m : Machine) target item,
        (m.updSys fun s => smpDeliverIpi s target item).sys.numHarts = m.sys.numHarts :=
      fun m target item => (HartFrame.smpDeliverIpi m target item).sys.numHarts
    unfold stepJob postStepJob at hjob
    simp only [hdeliver] at hjob
    split_ifs at hjob with hskip hrange
    obtain ⟨rfl, -⟩ := Prod.mk.inj (Option.some.inj hjob)
    rw [not_or, not_not] at hskip
    rw [not_or, hstep.numHarts] at hrange
    refine ⟨(hstep.hartId h).symm.trans hskip.2.1, ?_⟩
    show 0 < Int.toNat _ ∧ Int.toNat _ < _
    omega

/-- The nested turns in a step of a hart are those of another hart. -/
theorem ne_of_mem_nestedTurns {connected : Bool} {m : Machine} {h : Nat} {turn : Nat × Machine}
    (hid : (m.hart h).hartId = h) (hturn : turn ∈ nestedTurns connected m h) : turn.1 ≠ h := by
  obtain ⟨hzero, hpos, -⟩ := of_mem_nestedTurns hturn
  omega

/-- In a step hart `h` executes one instruction. -/
theorem countP_executed {connected : Bool} {m : Machine} {h : Nat} (pc : Word)
    (hid : (m.hart h).hartId = h) (hrun : (m.hart h).running) :
    (HartEvent.turn h pc :: (execEvents m h ++ (nestedTurns connected m h).flatMap
      fun turn => turnEvents turn.1 turn.2)).countP (HartEvent.isExecOf h) = 1 := by
  have hnested : ((nestedTurns connected m h).flatMap fun turn =>
      turnEvents turn.1 turn.2).countP (HartEvent.isExecOf h) = 0 := by
    rw [List.countP_eq_zero]
    intro ev hev
    obtain ⟨turn, hturn, hev⟩ := List.mem_flatMap.mp hev
    exact List.countP_eq_zero.mp (countP_turnEvents_of_ne (ne_of_mem_nestedTurns hid hturn)) ev hev
  rw [List.countP_cons_of_neg (by simp [HartEvent.isExecOf]), List.countP_append,
    countP_execEvents hrun, hnested]

/-! ### The step of the focus hart -/

/-- The stop reply for a hart, in a world with the connection of another one. -/
theorem namesThread_handleHartStop {n : Nat} {w u : EmuWorld} {h : Nat} (signal : Int) (hh : h < n)
    (hu : SessionInv n u) (hstub : u.stub = w.stub) :
    ∃ reply, (handleHartStop u h signal).stub.output = w.stub.output ++ [reply] ∧
      NamesThread (sysThreadId h) reply := by
  have hstop := isStopReply_stopReplyText u.dbg signal (sysThreadId h) (u.toTarget.hart h).pc
  refine ⟨_, ?_, _, hstop⟩
  rw [stub_handleHartStop, hu.hartId h hh, hstub]
  rfl

theorem exists_step_of_stepping (debugMode : Bool) (e : Event) {s : Session}
    (hphase : s.phase = .stepping) : ∃ s', sessionStep debugMode e s = .ok s' := by
  rw [sessionStep, hphase]
  exact ⟨_, rfl⟩

/-- What `step_focus_hart` does: a stop reply that names the focus hart, after one of its
instructions if it may run and has no breakpoint at its pc. -/
theorem step_of_stepping {debugMode : Bool} {n : Nat} {e : Event} {s s' : Session} {h : Nat}
    (hinv : SessionInv n s.world) (hphase : s.phase = .stepping)
    (hfocus : s.world.sim.sys.focusHart = h) (hstep : sessionStep debugMode e s = .ok s') :
    s'.phase = .waiting ∧
    ∃ evs reply, s'.world.sim.trace = s.world.sim.trace ++ evs ∧
      s'.world.stub.output = s.world.stub.output ++ [reply] ∧
      NamesThread (sysThreadId h) reply ∧
      if gdbStubShouldRunThread s.world.dbg (sysThreadId h) then
        (s.world.toTarget.hart h).running →
          ¬s.world.dbg.breakpointAt (s.world.toTarget.hart h).pc →
            evs.countP (HartEvent.isExecOf h) = 1
      else evs = [] := by
  have hP := (sessionInvariant_sessionInv n).runInvariant
  have hsig := Prelude.signaled s e
  have hw := hP.of_prelude hsig hinv
  have hh : h < n := hfocus ▸ hinv.focusHart_lt
  have hwait : s'.phase = .waiting := by
    rw [sessionStep, hphase] at hstep
    obtain rfl := Except.ok.inj hstep
    rfl
  refine ⟨hwait, ?_⟩
  have hwfocus : (s.signaled e).sim.sys.focusHart = h := hsig.focusHart.trans hfocus
  have hshould : gdbStubShouldRunThread (s.signaled e).dbg (sysThreadId h) =
      gdbStubShouldRunThread s.world.dbg (sysThreadId h) := by
    rw [hsig.dbg, gdbStubShouldRunThread, gdbStubShouldRunThread]
  -- the turn of the focus hart, after the instruction that `-d` prints was read
  have hturn : s.begunTurn debugMode e =
      if gdbStubShouldRunThread s.world.dbg (sysThreadId h) then
        some (h, (if debugMode then (s.signaled e).withTarget (rv32CpuReadMem
          (s.signaled e).stub.connected (s.signaled e).toTarget h
          ((s.signaled e).toTarget.hart h).pc 4).2 else s.signaled e).logTurn h)
      else none := by
    unfold Session.begunTurn
    rw [hphase]
    simp only [hwfocus, hw.hartId h hh, hshould]
    cases gdbStubShouldRunThread s.world.dbg (sysThreadId h) <;> rfl
  by_cases hrun : gdbStubShouldRunThread s.world.dbg (sysThreadId h)
  · rw [if_pos hrun] at hturn
    simp only [if_pos hrun]
    generalize (if debugMode then _ else _ : EmuWorld).logTurn h = v at hturn
    have hpre := prelude_of_begunTurn hturn
    have hv := hP.of_prelude hpre hinv
    have hcases := runStep_of_begunTurn hturn hstep
    have hbpv : v.dbg.breakpointAt (v.toTarget.hart h).pc =
        s.world.dbg.breakpointAt (s.world.toTarget.hart h).pc := by
      rw [breakpointAt_congr hpre.runFrame.breakpoints, hpre.hart]
    rw [hbpv] at hcases
    -- with a breakpoint at its pc the hart is stopped where it is
    by_cases hbp : s.world.dbg.breakpointAt (s.world.toTarget.hart h).pc
    · rw [if_pos hbp] at hcases
      obtain ⟨reply, hout, hnames⟩ := namesThread_handleHartStop
        (u := v.updDbg fun d => { d with breakpointHit := true }) 5 hh (hv.updDbg _) hpre.stub
      refine ⟨[.turn h (v.toTarget.hart h).pc], reply, ?_, ?_, hnames, fun _ hno => absurd hbp hno⟩
      · rw [hcases]
        exact (trace_handleHartStop _ _ _).trans hpre.trace
      · rw [hcases]
        exact hout
    · rw [if_neg hbp] at hcases
      rcases hcases with ⟨singleStep, signal, -, rfl⟩ | ⟨rfl, -⟩
      · have hcpu := hP.cpuStep h hv
        obtain ⟨reply, hout, hnames⟩ := namesThread_handleHartStop
          (u := (v.cpuStep h).updDbg fun d => { d with singleStep := singleStep }) signal hh
          (hcpu.updDbg _) hpre.stub
        -- the hart executes one instruction, then is stopped
        have hexec := executed_of_begunTurn hturn (hbpv ▸ hbp)
        have hworkers : s.workerTurns debugMode e =
            nestedTurns s.world.stub.connected v.toTarget h := by
          rw [Session.workerTurns, hexec]
        refine ⟨_, reply, trace_of_executed hexec hstep, hout, hnames, fun hrunning _ => ?_⟩
        have hrunning' : (v.toTarget.hart h).running := by
          rw [hpre.hart]
          exact hrunning
        rw [hworkers]
        exact countP_executed _ (hv.hartId h hh) hrunning'
      · cases hwait
  · simp only [if_neg hrun]
    -- the thread may not run: only the stop reply is sent
    have htid : (1 : Int) ≤ sysThreadId h := by
      rw [sysThreadId]
      omega
    rw [sessionStep, hphase] at hstep
    obtain rfl := Except.ok.inj hstep
    have hstop : stepFocusHart (s.signaled e) debugMode = gdbStubSendStopReason
        ((s.signaled e).updDbg fun d => gdbStubSetStopThread d (sysThreadId h)) 0
        ((s.signaled e).toTarget.hart h).pc := by
      unfold stepFocusHart
      simp only [hwfocus, hw.hartId h hh, hshould, hrun]
      rfl
    refine ⟨[], _, ?_, ?_, ⟨_, isStopReply_stopReplyText
      (gdbStubSetStopThread (s.signaled e).dbg (sysThreadId h)) 0 (sysThreadId h)
      ((s.signaled e).toTarget.hart h).pc⟩, rfl⟩
    · show (stepFocusHart (s.signaled e) debugMode).sim.trace = _
      rw [hstop, sim_gdbStubSendStopReason]
      exact hsig.trace
    · show (stepFocusHart (s.signaled e) debugMode).stub.output = _
      rw [hstop, stub_gdbStubSendStopReason, World.dbg_updDbg,
        replyThread_gdbStubSetStopThread _ htid, World.stub_updDbg, hsig.stub]
      rfl

/-! ### Accepted step commands -/

/-- What accepting a step of the thread `tid` does to the debug state. -/
def DebugState.stepThread {x : Xlen} (d : DebugState x) (tid : Int) : DebugState x :=
  { d with singleStep := true, continueThread := tid, shouldStop := false, stopThread := 0 }

/-- From `s` to `s'` hart `h` executes one instruction; the packet is acknowledged and then
answered by a stop reply that names the thread of `h`. -/
def StepsHart (h : Nat) (s s' : Session) : Prop :=
  s'.phase = .waiting ∧
  ∃ evs reply, s'.world.sim.trace = s.world.sim.trace ++ evs ∧
    evs.countP (HartEvent.isExecOf h) = 1 ∧
    s'.world.stub.output = s.world.stub.output ++ s.world.stub.ack ++ [reply] ∧
    NamesThread (sysThreadId h) reply

/-- `s₁` is `s` after a command to step the thread `tid` has been accepted. -/
structure StepAccepted (s : Session) (tid : Int) (s₁ : Session) : Prop where
  phase : s₁.phase = .stepping
  continueThread : s₁.world.dbg.continueThread = tid
  breakpoints : s₁.world.dbg.breakpoints = s.world.dbg.breakpoints
  focusHart : s₁.world.sim.sys.focusHart = s.world.sim.sys.focusHart
  trace : s₁.world.sim.trace = s.world.sim.trace
  output : s₁.world.stub.output = s.world.stub.output ++ s.world.stub.ack
  hart : ∀ k, s₁.world.toTarget.hart k =
    { s.world.toTarget.hart k with halted := (s₁.world.toTarget.hart k).halted }

theorem gdbStubShouldRunThread_iff {x : Xlen} (d : DebugState x) (tid : Int) :
    gdbStubShouldRunThread d tid ↔ d.continueThread < 0 ∨ d.continueThread = tid := by
  unfold gdbStubShouldRunThread
  by_cases h : d.continueThread < 0 <;> simp [h]

/-- The hart of the thread is stepped if it is the focus hart. -/
theorem StepAccepted.stepsHart_iff {debugMode : Bool} {n : Nat} {e : Event} {s s₁ s₂ : Session}
    {tid : Int} {h : Nat} (hacc : StepAccepted s tid s₁) (hn : n ≤ 8)
    (hinv : SessionInv n s₁.world) (hstep : sessionStep debugMode e s₁ = .ok s₂) (hh : h < n)
    (hrunning : (s.world.toTarget.hart h).running)
    (hbp : ¬s.world.dbg.breakpointAt (s.world.toTarget.hart h).pc) :
    StepsHart h s s₂ ↔ s.world.sim.sys.focusHart = h ∧ (tid < 0 ∨ tid = sysThreadId h) := by
  obtain ⟨hwait, evs, reply, htrace, hout, hnames, hexec⟩ :=
    step_of_stepping hinv hacc.phase hacc.focusHart hstep
  have hfocus : s.world.sim.sys.focusHart < n := hacc.focusHart ▸ hinv.focusHart_lt
  rw [hacc.trace] at htrace
  rw [hacc.output] at hout
  constructor
  · rintro ⟨-, evs', reply', htrace', hcount, hout', hnames'⟩
    obtain rfl := List.append_cancel_left (htrace.symm.trans htrace')
    obtain rfl := List.singleton_inj.mp (List.append_cancel_left (hout.symm.trans hout'))
    have hthread : s.world.sim.sys.focusHart + 1 = h + 1 :=
      NamesThread.unique (by omega) (by omega) hnames hnames'
    obtain rfl : s.world.sim.sys.focusHart = h := by omega
    refine ⟨rfl, ?_⟩
    split_ifs at hexec with hshould
    · rw [← hacc.continueThread]
      exact (gdbStubShouldRunThread_iff _ _).mp hshould
    · rw [hexec] at hcount
      cases hcount
  · rintro ⟨rfl, htid⟩
    have hshould : gdbStubShouldRunThread s₁.world.dbg (sysThreadId s.world.sim.sys.focusHart) := by
      rw [gdbStubShouldRunThread_iff, hacc.continueThread]
      exact htid
    rw [if_pos hshould, hacc.hart, breakpointAt_congr hacc.breakpoints] at hexec
    exact ⟨hwait, evs, reply, htrace, hexec hrunning hbp, hout, hnames⟩

theorem hart_sysResumeRunnable_ite (m : Machine) (k : Nat) : (sysResumeRunnable m).hart k =
    if k < m.sys.numHarts then
      if !gdbStubShouldRunThread m.dbg (sysThreadId k) then m.hart k
      else { m.hart k with halted := false }
    else m.hart k := by
  unfold sysResumeRunnable
  rw [Target.hart, Target.sys, Target.updSys, Rv32System.forHarts_eq]
  rfl

theorem hart_sysResumeRunnable (m : Machine) (k : Nat) : (sysResumeRunnable m).hart k =
    { m.hart k with halted := ((sysResumeRunnable m).hart k).halted } := by
  rw [hart_sysResumeRunnable_ite]
  split_ifs <;> rfl

/-- A packet that a step command accepts. -/
theorem exists_stepAccepted {debugMode : Bool} {n : Nat} {e : Event} {s : Session}
    {p rest : List Byte} {tid : DebugState .x32 → Int} (hinv : SessionInv n s.world)
    (hwait : s.phase = .waiting) (hin : Framed p rest s.world.stub.input)
    (hlen : p.length < gdbBufferSize)
    (hret : ∀ w : EmuWorld, Received s.world.stub p rest w.stub → dispatch e.fuel emuCallbacks w =
      .ok (1, (w.updDbg fun d => d.stepThread (tid d)).actOpt emuCallbacks.resume)) :
    ∃ s₁, sessionStep debugMode e s = .ok s₁ ∧ StepAccepted s (tid (s.signaled e).dbg) s₁ := by
  have hsig := Prelude.signaled s e
  have hfail : (s.signaled e).stub.consecutiveFailures < 50 := by
    rw [hsig.stub, hinv.consecutiveFailures]
    decide
  obtain ⟨stub, hrecv, hprocess⟩ := gdbStubProcess_framed (w := s.signaled e) e.fuel emuCallbacks
    (by rw [hsig.stub, hinv.connected]) hfail (by rwa [hsig.stub]) hlen
  rw [hsig.stub] at hrecv
  rw [hret { s.signaled e with stub := stub } hrecv] at hprocess
  set v : EmuWorld := World.updDbg { s.signaled e with stub := stub }
    fun d => d.stepThread (tid d) with hv
  have hafter : ∀ u : EmuWorld, u.dbg.singleStep = true →
      afterProcess (1, u) = ⟨.stepping, u.withTarget (sysResumeRunnable u.toTarget)⟩ := by
    intro u hu
    show (if u.dbg.singleStep then _ else _ : Session) = _
    rw [if_pos hu]
  refine ⟨⟨.stepping, (v.actOpt emuCallbacks.resume).withTarget
    (sysResumeRunnable (v.actOpt emuCallbacks.resume).toTarget)⟩, ?_, rfl, rfl, ?_, ?_, ?_, ?_,
    fun k => ?_⟩
  · rw [sessionStep, hwait, phaseStep, hsig.stub, hinv.connected, if_neg (by simp), hprocess]
    exact congrArg Except.ok (hafter _ rfl)
  · exact hsig.runFrame.breakpoints
  · exact ((runFrame_sysResumeRunnable _).focusHart.trans
      (runFrame_sysResumeRunnable v.toTarget).focusHart).trans hsig.focusHart
  · exact hsig.trace.trans (List.append_nil _)
  · show stub.output = _
    rw [hrecv.eq]
  · -- the command resumes the hart, and the main loop does so again
    have hresume₁ := hart_sysResumeRunnable v.toTarget k
    have hresume₂ := hart_sysResumeRunnable (sysResumeRunnable v.toTarget) k
    rw [hresume₁, show v.toTarget.hart k = (s.signaled e).toTarget.hart k from rfl,
      hsig.hart k] at hresume₂
    exact hresume₂

/-! ### `vCont` -/

section vCont

variable {x : Xlen} {σ : Type}

/-- The packet `vCont;s:p1.N`. -/
def vContStepPacket (t : Nat) : List Byte := ascii "vCont;s:p1." ++ hexText t

theorem vcontLoop_step (d : DebugState x) {t : Nat} (h1 : 1 ≤ t) (h8 : t ≤ 8) :
    vcontLoop d (ascii "s:p1." ++ hexText t).length (ascii "s:p1." ++ hexText t)
      ⟨false, -1, -1, false⟩ = .ok (.actions ⟨true, t, -1, true⟩) := by
  interval_cases t <;> rfl

theorem handleVcont_step (cb : GdbCallbacks x σ) {w : World x σ} {t : Nat} (h1 : 1 ≤ t)
    (h8 : t ≤ 8) (htext : w.packetText = vContStepPacket t) :
    handleVcont cb w = .ok (true, (w.updDbg fun d => d.stepThread t).actOpt cb.resume) := by
  have hquery : vContStepPacket t ≠ ascii "vCont?" := by
    intro h
    exact absurd (congrArg (fun l => l.getD 5 0) h) (by decide : chr ';' ≠ chr '?')
  have hactions : skipSemicolon ((vContStepPacket t).drop 5) = ascii "s:p1." ++ hexText t := rfl
  have hne : ascii "s:p1." ++ hexText t ≠ [] := fun h => nomatch h
  have hfront : strncmpEq (vContStepPacket t) (ascii "vCont") = true := rfl
  unfold handleVcont
  simp only [htext, hactions, vcontLoop_step w.dbg h1 h8, hfront, if_neg hquery, if_neg hne]
  rfl

end vCont

/-- A `vCont` step of a thread steps its hart, if and only if this is the focus hart. -/
theorem stepsHart_vCont_iff {debugMode : Bool} {n : Nat} {packets : List (List Byte)} {s : Session}
    {h : Nat} {rest : List Byte} (hn : validHartCount n) (hrun : SessionRun debugMode n packets s)
    (hwait : s.phase = .waiting) (hh : h < n) (hrunning : (s.world.toTarget.hart h).running)
    (hbp : ¬s.world.dbg.breakpointAt (s.world.toTarget.hart h).pc)
    (hin : Framed (vContStepPacket (h + 1)) rest s.world.stub.input) (e₁ e₂ : Event) :
    ∃ s₁ s₂, sessionStep debugMode e₁ s = .ok s₁ ∧ sessionStep debugMode e₂ s₁ = .ok s₂ ∧
      (StepsHart h s s₂ ↔ s.world.sim.sys.focusHart = h) := by
  have hn8 : n ≤ 8 := by
    simp [validHartCount] at hn
    omega
  have hinv := sessionInv_of_sessionRun hn hrun (by simp [hwait])
  have hhex : (hexText (h + 1)).length ≤ 1 := length_hexText_le (by decide) (by omega)
  have hlen : (vContStepPacket (h + 1)).length < gdbBufferSize := by
    rw [vContStepPacket, List.length_append]
    show 11 + _ < 4096
    omega
  have hnul : 0#8 ∉ vContStepPacket (h + 1) := by
    rw [vContStepPacket, List.mem_append]
    rintro (hmem | hmem)
    · exact absurd hmem (by decide)
    · exact absurd (isxdigit_hexText hmem) (by decide)
  have hret : ∀ w : EmuWorld, Received s.world.stub (vContStepPacket (h + 1)) rest w.stub →
      dispatch e₁.fuel emuCallbacks w =
        .ok (1, (w.updDbg fun d => d.stepThread (sysThreadId h)).actOpt emuCallbacks.resume) := by
    intro w hw
    have htext : w.packetText = vContStepPacket (h + 1) := cstr_of_hasBytes hw.bytes hnul
    have hcmd : byteAt w.stub.packetBuffer 0 = chr 'v' := hw.bytes.head
    unfold dispatch
    simp only [hcmd, htext, handleVcont_step emuCallbacks (Nat.succ_pos h) (by omega) htext]
    rfl
  obtain ⟨s₁, hstep₁, hacc⟩ := exists_stepAccepted hinv hwait hin hlen hret
  obtain ⟨s₂, hstep₂⟩ := exists_step_of_stepping debugMode e₂ hacc.phase
  have hinv₁ := sessionInv_of_sessionRun hn (hrun.step e₁ hstep₁) (by simp [hacc.phase])
  refine ⟨s₁, s₂, hstep₁, hstep₂, ?_⟩
  rw [hacc.stepsHart_iff hn8 hinv₁ hstep₂ hh hrunning hbp]
  simp only [or_true, and_true]

/-- Two harts, of which `Hgp1.2` has given the focus to the second one, and `vCont;s:p1.2`. -/
def focusedSession : Session :=
  (loadedSession 2 (frame (ascii "Hgp1.2") ++ frame (vContStepPacket 2))).next false .quiet

theorem stepsHart_vCont_focused :
    ∃ s₁ s₂, sessionStep false .quiet focusedSession = .ok s₁ ∧
      sessionStep false .quiet s₁ = .ok s₂ ∧ StepsHart 1 focusedSession s₂ := by
  have hstart : SessionRun false 2 [] (loadedSession 2 (frame (ascii "Hgp1.2") ++
      frame (vContStepPacket 2))) := sessionRun_loadedSession _ _ _
  have hinput : focusedSession.world.stub.input = frame (vContStepPacket 2) := by decide +kernel
  obtain ⟨s₁, s₂, hstep₁, hstep₂, hiff⟩ := stepsHart_vCont_iff (h := 1) (by decide)
    (hstart.step .quiet (sessionStep_next (by decide +kernel))) (by decide +kernel) (by decide)
    (by decide +kernel) (by decide +kernel)
    (hinput ▸ framed_frame_nil (by decide +kernel)) .quiet .quiet
  exact ⟨s₁, s₂, hstep₁, hstep₂, hiff.mpr (by decide +kernel)⟩

/-- Two harts, of which the first one has the focus, and `vCont;s:p1.2`. -/
def otherThreadSession : Session := loadedSession 2 (frame (vContStepPacket 2))

/-- No instruction is executed. -/
theorem not_stepsHart_otherThreadSession :
    SessionRun false 2 [] otherThreadSession ∧
      (otherThreadSession.world.toTarget.hart 1).running ∧
      ¬otherThreadSession.world.dbg.breakpointAt (otherThreadSession.world.toTarget.hart 1).pc ∧
      otherThreadSession.handled = [vContStepPacket 2] ∧
      otherThreadSession.steps false [.quiet, .quiet] ∧
      ¬StepsHart 1 otherThreadSession (otherThreadSession.after false [.quiet, .quiet]) := by
  refine ⟨sessionRun_loadedSession _ _ _, by decide +kernel, by decide +kernel, by decide +kernel,
    by decide +kernel, ?_⟩
  rintro ⟨-, evs, -, htrace, hcount, -⟩
  have hnone : (otherThreadSession.after false [.quiet, .quiet]).world.sim.trace = [] := by
    decide +kernel
  rw [hnone] at htrace
  obtain rfl := (List.append_eq_nil_iff.mp htrace.symm).2
  cases hcount

/-! ### `s` -/

/-- An `Hg` packet is accepted in a step and selects the thread `tid`. -/
def SelectsThread (debugMode : Bool) (s : Session) (tid : Int) (s' : Session) : Prop :=
  s.phase = .waiting ∧ (∃ e, sessionStep debugMode e s = .ok s') ∧
    (∃ spec, s.handled = [ascii "Hg" ++ spec]) ∧
    s'.world.stub.output = s.world.stub.output ++ s.world.stub.ack ++ [frame (ascii "OK")] ∧
    s'.world.dbg.currentThread = tid

theorem sessionInvariant_currentThread (n : Nat) (tid : Int) :
    SessionInvariant fun w => SessionInv n w ∧ w.dbg.currentThread = tid where
  focusHart_lt w h := (sessionInvariant_sessionInv n).focusHart_lt w h.1
  stub w s hs h := ⟨(sessionInvariant_sessionInv n).stub w s hs h.1, h.2⟩
  frame w m hm h := ⟨(sessionInvariant_sessionInv n).frame w m hm h.1, hm.currentThread.trans h.2⟩
  focus w k hk h := ⟨(sessionInvariant_sessionInv n).focus w k hk h.1, h.2⟩

/-- Only `H` and `R` select a thread. -/
theorem currentThread_of_sessionFrom {debugMode : Bool} {n : Nat} {packets : List (List Byte)}
    {s₁ s : Session} (hinv : SessionInv n s₁.world) (hfrom : SessionFrom debugMode s₁ packets s)
    (hkeep : ∀ p ∈ packets, p.head? ≠ some (chr 'H') ∧ p.head? ≠ some (chr 'R'))
    (hended : s.phase ≠ .ended) :
    SessionInv n s.world ∧ s.world.dbg.currentThread = s₁.world.dbg.currentThread := by
  induction hfrom with
  | refl => exact ⟨hinv, rfl⟩
  | @step packets s s' e hrun hstep ih =>
    have hs := ih (fun p hp => hkeep p (List.mem_append_left _ hp))
      (phase_ne_ended_of_step hstep hended)
    refine (sessionInvariant_currentThread n _).step hs hstep hended fun hwait w hrecv _ => ?_
    have hpacket := hkeep _ (List.mem_append_right _ (packet_mem_handled hwait hrecv))
    have hcmd : ∀ c, c ≠ 0#8 → w.stub.packet.head? ≠ some c →
        byteAt w.stub.packetBuffer 0 ≠ c := by
      rintro c hzero hne rfl
      exact hne (head?_packet hrecv hzero)
    exact ⟨fun hc => absurd hc (hcmd _ (by decide) hpacket.1),
      fun hc => absurd hc (hcmd _ (by decide) hpacket.2)⟩

/-- After `Hg` the command `s` steps the hart of the selected thread, if and only if that is the
focus hart and `continue_thread` is unset or the same thread. -/
theorem stepsHart_s_iff {debugMode : Bool} {n : Nat} {packets packets' : List (List Byte)}
    {s₀ s₁ s : Session} {h : Nat} {rest : List Byte} (hn : validHartCount n)
    (hrun₀ : SessionRun debugMode n packets s₀)
    (hselect : SelectsThread debugMode s₀ (sysThreadId h) s₁)
    (hfrom : SessionFrom debugMode s₁ packets' s)
    (hkeep : ∀ p ∈ packets', p.head? ≠ some (chr 'H') ∧ p.head? ≠ some (chr 'R'))
    (hwait : s.phase = .waiting) (hh : h < n) (hrunning : (s.world.toTarget.hart h).running)
    (hbp : ¬s.world.dbg.breakpointAt (s.world.toTarget.hart h).pc)
    (hin : Framed (ascii "s") rest s.world.stub.input) (e₁ e₂ : Event) :
    ∃ s₂ s₃, sessionStep debugMode e₁ s = .ok s₂ ∧ sessionStep debugMode e₂ s₂ = .ok s₃ ∧
      (StepsHart h s s₃ ↔ s.world.sim.sys.focusHart = h ∧
        (s.world.dbg.continueThread < 0 ∨ s.world.dbg.continueThread = sysThreadId h)) := by
  have hn8 : n ≤ 8 := by
    simp [validHartCount] at hn
    omega
  obtain ⟨hwait₀, ⟨e₀, hstep₀⟩, -, -, htid⟩ := hselect
  have hrun₁ := hrun₀.step e₀ hstep₀
  have hrun := hrun₁.trans hfrom
  have hended₁ := hfrom.phase_ne_ended (by simp [hwait])
  obtain ⟨hinv, hcurrent⟩ := currentThread_of_sessionFrom
    (sessionInv_of_sessionRun hn hrun₁ hended₁) hfrom hkeep (by simp [hwait])
  -- `s` keeps the continue thread if there is one, else it takes the current thread
  have hret : ∀ w : EmuWorld, Received s.world.stub (ascii "s") rest w.stub →
      dispatch e₁.fuel emuCallbacks w = .ok (1, (w.updDbg fun d => d.stepThread
        (if d.continueThread < 0 then d.currentThread else d.continueThread)).actOpt
          emuCallbacks.resume) := by
    intro w hw
    have hcmd : byteAt w.stub.packetBuffer 0 = chr 's' := hw.bytes.head
    unfold dispatch
    simp only [hcmd]
    rfl
  obtain ⟨s₂, hstep₂, hacc⟩ := exists_stepAccepted hinv hwait hin (by decide) hret
  obtain ⟨s₃, hstep₃⟩ := exists_step_of_stepping debugMode e₂ hacc.phase
  have hinv₂ := sessionInv_of_sessionRun hn (hrun.step e₁ hstep₂) (by simp [hacc.phase])
  refine ⟨s₂, s₃, hstep₂, hstep₃, ?_⟩
  rw [hacc.stepsHart_iff hn8 hinv₂ hstep₃ hh hrunning hbp]
  rw [(Prelude.signaled s e₁).dbg, hcurrent, htid]
  simp only
  split_ifs with hneg
  · simp [hneg]
  · simp [hneg]

/-- Two harts, of which the second one has been selected by `Hgp1.2`, and `s`. -/
def selectedSession : Session :=
  (loadedSession 2 (frame (ascii "Hgp1.2") ++ frame (ascii "s"))).next false .quiet

theorem stepsHart_s_selected :
    ∃ s₂ s₃, sessionStep false .quiet selectedSession = .ok s₂ ∧
      sessionStep false .quiet s₂ = .ok s₃ ∧ StepsHart 1 selectedSession s₃ := by
  have hselect : SelectsThread false
      (loadedSession 2 (frame (ascii "Hgp1.2") ++ frame (ascii "s"))) (sysThreadId 1)
      selectedSession :=
    ⟨rfl, ⟨.quiet, sessionStep_next (by decide +kernel)⟩, ⟨ascii "p1.2", by decide +kernel⟩,
      by decide +kernel, by decide +kernel⟩
  have hinput : selectedSession.world.stub.input = frame (ascii "s") := by decide +kernel
  obtain ⟨s₂, s₃, hstep₂, hstep₃, hiff⟩ := stepsHart_s_iff (by decide)
    (sessionRun_loadedSession false 2 _) hselect .refl nofun (by decide +kernel) (by decide)
    (by decide +kernel) (by decide +kernel) (hinput ▸ framed_frame_nil (by decide)) .quiet .quiet
  exact ⟨s₂, s₃, hstep₂, hstep₃, hiff.mpr (by decide +kernel)⟩

/-- Two harts, two `s`, and in between `Hg` for the second thread. -/
def twoStepsSession : Session :=
  loadedSession 2 (frame (ascii "s") ++ frame (ascii "Hgp1.2") ++ frame (ascii "s"))

/-- The first thread has been stepped. -/
def steppedSession : Session := (twoStepsSession.next false .quiet).next false .quiet

theorem sessionRun_steppedSession : SessionRun false 2 [ascii "s"] steppedSession := by
  have hstart : SessionRun false 2 [] twoStepsSession := sessionRun_loadedSession _ _ _
  have hrun := (hstart.step .quiet (sessionStep_next (by decide +kernel))).step .quiet
    (sessionStep_next (by decide +kernel))
  have hpackets : ([] ++ twoStepsSession.handled) ++ (twoStepsSession.next false .quiet).handled =
      [ascii "s"] := by
    decide +kernel
  rwa [hpackets] at hrun

/-- The second thread is then selected, but `s` executes no instruction. -/
theorem not_stepsHart_steppedSession :
    SessionRun false 2 [ascii "s"] steppedSession ∧
      SelectsThread false steppedSession (sysThreadId 1) (steppedSession.next false .quiet) ∧
      ((steppedSession.next false .quiet).world.toTarget.hart 1).running ∧
      ¬(steppedSession.next false .quiet).world.dbg.breakpointAt
        ((steppedSession.next false .quiet).world.toTarget.hart 1).pc ∧
      (steppedSession.next false .quiet).handled = [ascii "s"] ∧
      (steppedSession.next false .quiet).steps false [.quiet, .quiet] ∧
      ¬StepsHart 1 (steppedSession.next false .quiet)
        ((steppedSession.next false .quiet).after false [.quiet, .quiet]) := by
  refine ⟨sessionRun_steppedSession,
    ⟨by decide +kernel, ⟨.quiet, sessionStep_next (by decide +kernel)⟩,
      ⟨ascii "p1.2", by decide +kernel⟩, by decide +kernel, by decide +kernel⟩,
    by decide +kernel, by decide +kernel, by decide +kernel, by decide +kernel, ?_⟩
  rintro ⟨-, evs, -, htrace, hcount, -⟩
  have hnone : ((steppedSession.next false .quiet).after false
      [.quiet, .quiet]).world.sim.trace.length =
        (steppedSession.next false .quiet).world.sim.trace.length := by
    decide +kernel
  rw [htrace, List.length_append] at hnone
  obtain rfl := List.eq_nil_of_length_eq_zero (by omega : evs.length = 0)
  cases hcount

end Rv32Gdb
