import Rv32Gdb.Equiv.Lockstep

/-!
# The debug trace

With `-d` a step first reads the instruction it is about to execute, through the same watchpoint
hook as the hart itself.  `stepFocusHart_trace`: the hart's own fetch repeats all that this does, so
that the step ends in the same state, unless the hart does not get to its fetch: at a breakpoint, or
when it does not run.  `after_trace`: a session in which no watchpoint covers such an instruction
goes the same way with `-d` and without.
-/

namespace Rv32Gdb

/-! ### Recording a hit twice -/

theorem recordHit_recordHit (m : Machine) (h : Nat) (a : Word) :
    recordHit (recordHit m h a) h a = recordHit m h a := by
  have hharts : Function.update (Function.update m.sim.sys.harts h (m.sim.sys.harts h).halt) h
      (Function.update m.sim.sys.harts h (m.sim.sys.harts h).halt h).halt =
        Function.update m.sim.sys.harts h (m.sim.sys.harts h).halt := by
    rw [Function.update_self, Function.update_idem]
    rfl
  have hid : (Function.update m.sim.sys.harts h (m.sim.sys.harts h).halt h).hartId =
      (m.sim.sys.harts h).hartId := by
    rw [Function.update_self]
    rfl
  simp only [recordHit, Target.updHart, Target.updSys, Rv32System.updHart, hharts, hid]

/-- The fetch of a hart repeats a hit that was recorded for the same instruction. -/
theorem rv32CpuReadMem_recordHit {connected : Bool} {m : Machine} {h : Nat} {addr a : Word}
    {size : Nat} (hhit : accessHit connected m.dbg .load addr size = some a) :
    rv32CpuReadMem connected (recordHit m h a) h addr size =
      rv32CpuReadMem connected m h addr size := by
  have hagain : accessHit connected (recordHit m h a).dbg .load addr size = some a := hhit
  unfold rv32CpuReadMem
  rw [checkAccess_of_some hhit, checkAccess_of_some hagain, recordHit_recordHit]

theorem hart_recordHit (m : Machine) (h : Nat) (a : Word) :
    (recordHit m h a).hart h = { m.hart h with halted := true } := by
  rw [recordHit, Target.hart_updHart, if_pos rfl]
  rfl

/-- A running hart executes in the same way after its fetch has been traced. -/
theorem sysCpuStep_recordHit {connected : Bool} {m : Machine} {h : Nat} {a : Word}
    (hrunning : (m.hart h).running)
    (hhit : accessHit connected m.dbg .load (m.hart h).pc 4 = some a) :
    sysCpuStep connected (recordHit m h a) h = sysCpuStep connected m h := by
  have hpc : ((recordHit m h a).hart h).pc = (m.hart h).pc := by rw [hart_recordHit]
  have hrun : ((recordHit m h a).hart h).running := by rw [hart_recordHit]; exact hrunning
  have hfetch : rv32CpuReadMem connected ((recordHit m h a).log (.exec h (m.hart h).pc)) h
      (m.hart h).pc 4 =
        rv32CpuReadMem connected (m.log (.exec h (m.hart h).pc)) h (m.hart h).pc 4 :=
    rv32CpuReadMem_recordHit (m := m.log (.exec h (m.hart h).pc)) hhit
  unfold sysCpuStep rv32CpuStep
  simp only [hpc, hrun, hrunning, hfetch, Bool.not_true, Bool.false_eq_true, if_false]

/-! ### Steps -/

/-- A step of hart `h` that may run, after the trace. -/
def stepTraced (w : EmuWorld) (h : Nat) : EmuWorld :=
  let w := w.logTurn h
  let (hit, d) := gdbStubCheckBreakpoint w.dbg (w.toTarget.hart h).pc
  let w := w.updDbg fun _ => d
  if hit then handleHartStop (w.updDbg fun d => { d with shouldStop := true }) h 5
  else
    let w := w.cpuStep h
    let w := w.updDbg fun d => { d with shouldStop := true, singleStep := false }
    let cpu := w.toTarget.hart h
    if cpu.halted || !cpu.running then
      if cpu.halted then handleHartStop w h 5 else handleHartStop w h 4
    else handleHartStop w h 5

/-- The hart at the focus may not be stepped. -/
def stepRefused (w : EmuWorld) : Bool :=
  !gdbStubShouldRunThread w.dbg (sysThreadId (w.toTarget.hart w.sim.sys.focusHart).hartId)

theorem stepFocusHart_of_refused {w : EmuWorld} (h : stepRefused w) (debugMode : Bool) :
    stepFocusHart w debugMode = stepFocusHart w false := by
  unfold stepFocusHart
  unfold stepRefused at h
  simp only [h, if_true]

theorem stepFocusHart_true {w : EmuWorld} (h : ¬stepRefused w) :
    stepFocusHart w true = stepTraced (w.withTarget (rv32CpuReadMem w.stub.connected w.toTarget
      w.sim.sys.focusHart (w.toTarget.hart w.sim.sys.focusHart).pc 4).2) w.sim.sys.focusHart := by
  unfold stepFocusHart
  unfold stepRefused at h
  simp only [h, if_true]
  rfl

theorem stepFocusHart_false {w : EmuWorld} (h : ¬stepRefused w) :
    stepFocusHart w false = stepTraced w w.sim.sys.focusHart := by
  unfold stepFocusHart
  unfold stepRefused at h
  simp only [h]
  rfl

/-- A step of a running hart that is not at a breakpoint: the outcome depends on the state after
the instruction only. -/
theorem stepTraced_congr {w w' : EmuWorld} {h : Nat}
    (hbp : ¬w.dbg.breakpointAt (w.toTarget.hart h).pc)
    (hbp' : ¬w'.dbg.breakpointAt (w'.toTarget.hart h).pc)
    (hstep : (w'.logTurn h).cpuStep h = (w.logTurn h).cpuStep h) :
    stepTraced w' h = stepTraced w h := by
  have hcheck : ∀ {v : EmuWorld}, ¬v.dbg.breakpointAt (v.toTarget.hart h).pc →
      gdbStubCheckBreakpoint (v.logTurn h).dbg ((v.logTurn h).toTarget.hart h).pc =
        (false, (v.logTurn h).dbg) := fun hv => if_neg hv
  have hsame : ∀ v : EmuWorld, (v.logTurn h).updDbg (fun _ => (v.logTurn h).dbg) = v.logTurn h :=
    fun _ => rfl
  unfold stepTraced
  simp only [hcheck hbp, hcheck hbp', hsame, hstep, Bool.false_eq_true, if_false]

/-- The trace sees a watchpoint that the step itself does not see, since the hart stops before its
fetch or does not run. -/
def traceShows (w : EmuWorld) : Bool :=
  let cpu := w.toTarget.hart w.sim.sys.focusHart
  !stepRefused w && (accessHit w.stub.connected w.dbg .load cpu.pc 4).isSome &&
    (w.dbg.breakpointAt cpu.pc || !cpu.running)

/-- The trace changes no step in which it does not see more than the step does. -/
theorem stepFocusHart_trace {w : EmuWorld} (h : traceShows w = false) :
    stepFocusHart w true = stepFocusHart w false := by
  by_cases hrefused : stepRefused w
  · exact stepFocusHart_of_refused hrefused true
  rw [stepFocusHart_true hrefused, stepFocusHart_false hrefused]
  set k := w.sim.sys.focusHart with hk
  set cpu := w.toTarget.hart k with hcpu
  cases hhit : accessHit w.stub.connected w.dbg .load cpu.pc 4 with
  | none =>
    -- no watchpoint covers the instruction, and the trace changes nothing
    have hsame : (rv32CpuReadMem w.stub.connected w.toTarget k cpu.pc 4).2 = w.toTarget :=
      checkAccess_of_none hhit
    rw [hsame]
    rfl
  | some a =>
    have hshows : ¬(w.dbg.breakpointAt cpu.pc || !cpu.running) := by
      intro hor
      simp only [traceShows, ← hk, ← hcpu, hhit, hor, Bool.and_true, Option.isSome_some,
        Bool.not_eq_false'] at h
      exact hrefused h
    obtain ⟨hbp, hrun⟩ : ¬w.dbg.breakpointAt cpu.pc ∧ cpu.running := by simpa using hshows
    have hseen : (rv32CpuReadMem w.stub.connected w.toTarget k cpu.pc 4).2 =
        recordHit w.toTarget k a := checkAccess_of_some hhit
    have hpc : ((w.withTarget (recordHit w.toTarget k a)).toTarget.hart k).pc = cpu.pc := by
      show ((recordHit w.toTarget k a).hart k).pc = _
      rw [hart_recordHit]
    have hlog : (w.withTarget (recordHit w.toTarget k a)).logTurn k =
        (w.logTurn k).withTarget (recordHit (w.logTurn k).toTarget k a) := by
      rw [World.logTurn, hpc]
      rfl
    have hstep : ((w.withTarget (recordHit w.toTarget k a)).logTurn k).cpuStep k =
        (w.logTurn k).cpuStep k := by
      rw [hlog]
      exact congrArg (w.logTurn k).withTarget
        (sysCpuStep_recordHit (m := (w.logTurn k).toTarget) hrun hhit)
    rw [hseen]
    exact stepTraced_congr hbp (by rw [hpc]; exact hbp) hstep

/-- At a breakpoint the harts stay as they are. -/
theorem hart_stepTraced_of_breakpoint {w : EmuWorld} {h : Nat}
    (hbp : w.dbg.breakpointAt (w.toTarget.hart h).pc) (k : Nat) :
    (stepTraced w h).toTarget.hart k = w.toTarget.hart k := by
  have hcheck : gdbStubCheckBreakpoint (w.logTurn h).dbg ((w.logTurn h).toTarget.hart h).pc =
      (true, { (w.logTurn h).dbg with breakpointHit := true }) := if_pos hbp
  unfold stepTraced
  simp only [hcheck, if_true]
  exact congrFun (harts_handleHartStop _ _ _) k

/-- For a hart that runs, the trace makes a difference exactly where it shows more than the step:
the hart is left halted. -/
theorem stepFocusHart_trace_iff {w : EmuWorld}
    (hrunning : (w.toTarget.hart w.sim.sys.focusHart).running)
    (hhalted : (w.toTarget.hart w.sim.sys.focusHart).halted = false) :
    stepFocusHart w true = stepFocusHart w false ↔ traceShows w = false := by
  refine ⟨fun heq => ?_, stepFocusHart_trace⟩
  by_contra hshows
  have hshows' : traceShows w = true := Bool.eq_true_of_not_eq_false hshows
  simp only [traceShows, Bool.and_eq_true, Bool.or_eq_true, Bool.not_eq_true', hrunning,
    Bool.true_eq_false, or_false] at hshows'
  obtain ⟨⟨hrefused, hhit⟩, hbp⟩ := hshows'
  obtain ⟨a, ha⟩ := Option.isSome_iff_exists.mp hhit
  have hmay : ¬stepRefused w := by rw [hrefused]; exact Bool.false_ne_true
  rw [stepFocusHart_true hmay, stepFocusHart_false hmay] at heq
  set k := w.sim.sys.focusHart with hk
  have hseen : (rv32CpuReadMem w.stub.connected w.toTarget k (w.toTarget.hart k).pc 4).2 =
      recordHit w.toTarget k a := checkAccess_of_some ha
  have hhart : ((w.withTarget (recordHit w.toTarget k a)).toTarget.hart k) =
      { w.toTarget.hart k with halted := true } := hart_recordHit _ _ _
  rw [hseen] at heq
  have hk' : ((stepTraced (w.withTarget (recordHit w.toTarget k a)) k).toTarget.hart k).halted =
      ((stepTraced w k).toTarget.hart k).halted := by rw [heq]
  rw [hart_stepTraced_of_breakpoint (by rw [hhart]; exact hbp), hart_stepTraced_of_breakpoint hbp,
    hhart, hhalted] at hk'
  cases hk'

/-! ### Sessions -/

/-- The trace of the next step sees a watchpoint that the step itself does not see. -/
def Session.traceShows (e : Event) (s : Session) : Bool :=
  s.phase = .stepping && Rv32Gdb.traceShows (s.signaled e)

theorem sessionStep_trace {e : Event} {s : Session} (h : s.traceShows e = false) :
    sessionStep true e s = sessionStep false e s := by
  obtain ⟨phase, w⟩ := s
  cases phase with
  | stepping =>
    exact congrArg (fun v => (Except.ok ⟨.waiting, v⟩ : Result Session)) (stepFocusHart_trace h)
  | _ => rfl

/-- In no step of a run does the trace see a watchpoint that the step itself does not see. -/
def Session.tracesNothing : List Event → Session → Bool
  | [], _ => true
  | e :: es, s => !s.traceShows e && (s.next false e).tracesNothing es

/-- **The debug trace is harmless.**  A session in which no watchpoint covers an instruction at
which a hart is stopped without executing goes the same way with `-d` and without. -/
theorem after_trace {s : Session} {es : List Event} (h : s.tracesNothing es) :
    s.after true es = s.after false es ∧ s.steps true es = s.steps false es := by
  induction es generalizing s with
  | nil => exact ⟨rfl, rfl⟩
  | cons e es ih =>
    simp only [Session.tracesNothing, Bool.and_eq_true, Bool.not_eq_true'] at h
    have hstep := sessionStep_trace h.1
    have hnext : s.next true e = s.next false e := by rw [Session.next, Session.next, hstep]
    obtain ⟨hafter, hsteps⟩ := ih h.2
    refine ⟨?_, ?_⟩
    · show (s.next true e).after true es = (s.next false e).after false es
      rw [hnext, hafter]
    · rw [Session.steps, Session.steps, hstep, hnext, hsteps]

/-- A watchpoint covers the first instruction, and the hart executes it. -/
theorem after_trace_watched :
    let s := initSession 1 (frame (ascii "Z4,80000000,4") ++ frame (ascii "s"))
    let es := [Event.quiet, .quiet, .quiet]
    s.after true es = s.after false es ∧ s.steps true es = s.steps false es := by
  intro s es
  refine after_trace ?_
  rw [show s = loadedSession 1 _ from initSession_eq 1 _]
  decide +kernel

end Rv32Gdb
