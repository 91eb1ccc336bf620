import Rv32Gdb.Equiv.Execution
import Rv32Gdb.Trace

/-!
# Runs of the target

A run begins when a resume command has been accepted (`Resumed`) and goes on by steps of a running
target (`RunStep`), here with a condition on the event and the state of each step.  In the course
of a run the tables of the stub stay as they are (`runInvariant_runInv`).
-/

namespace Rv32Gdb

/-! ### Runs -/

/-- The hart that executes an instruction in a step, and the machine in which it does. -/
def Session.executed (debugMode : Bool) (e : Event) (s : Session) : Option (Nat × Machine) :=
  match s.begunTurn debugMode e with
  | some (h, v) =>
    if v.dbg.breakpointAt (v.toTarget.hart h).pc then none else some (h, v.toTarget)
  | none => none

/-- The turns of workers in a step, nested in the execution of an instruction. -/
def Session.workerTurns (debugMode : Bool) (e : Event) (s : Session) : List (Nat × Machine) :=
  match s.executed debugMode e with
  | some (h, m) => nestedTurns s.world.stub.connected m h
  | none => []

/-- A resume command has just been accepted in a program with `n` harts. -/
def Resumed (debugMode : Bool) (n : Nat) (s : Session) : Prop :=
  ∃ packets s₀ e, SessionRun debugMode n packets s₀ ∧ s₀.phase = .waiting ∧
    sessionStep debugMode e s₀ = .ok s ∧ s.Running

theorem resumed_after {debugMode : Bool} {n : Nat} {input : List Byte} {es : List Event}
    {e : Event} (hsteps : (loadedSession n input).steps debugMode es)
    (hwait : ((loadedSession n input).after debugMode es).phase = .waiting)
    (hok : (sessionStep debugMode e ((loadedSession n input).after debugMode es)).isOk)
    (hrunning : (((loadedSession n input).after debugMode es).next debugMode e).Running) :
    Resumed debugMode n (((loadedSession n input).after debugMode es).next debugMode e) := by
  obtain ⟨packets, hrun⟩ := (sessionRun_loadedSession debugMode n input).after hsteps
  exact ⟨packets, _, e, hrun, hwait, sessionStep_next hok, hrunning⟩

/-- A step of a running target for whose event and state `P` holds. -/
def RunStep (debugMode : Bool) (P : Event → Session → Prop) (s s' : Session) : Prop :=
  s.Running ∧ ∃ e, P e s ∧ sessionStep debugMode e s = .ok s'

/-- A run, as far as it has come. -/
abbrev ResumeRun (debugMode : Bool) (P : Event → Session → Prop) : Session → Session → Prop :=
  Relation.ReflTransGen (RunStep debugMode P)

/-- Some steps of a running target for whose events and states `P` holds. -/
def Session.RunSteps (debugMode : Bool) (P : Event → Session → Prop) : List Event → Session → Prop
  | [], _ => True
  | e :: es, s => s.Running ∧ P e s ∧ (sessionStep debugMode e s).isOk ∧
      (s.next debugMode e).RunSteps debugMode P es

theorem resumeRun_after {debugMode : Bool} {P : Event → Session → Prop} {es : List Event}
    {s : Session} (h : s.RunSteps debugMode P es) :
    ResumeRun debugMode P s (s.after debugMode es) := by
  induction es generalizing s with
  | nil => exact .refl
  | cons e es ih =>
    obtain ⟨hrun, hP, hok, hrest⟩ := h
    exact (ih hrest).head ⟨hrun, e, hP, sessionStep_next hok⟩

/-- What holds throughout a run that began with the debug state `d`. -/
structure RunInv (n : Nat) (d : DebugState .x32) (w : EmuWorld) : Prop where
  sessionInv : SessionInv n w
  breakpoints : w.dbg.breakpoints = d.breakpoints
  watchpoints : w.dbg.watchpoints = d.watchpoints

theorem runInvariant_runInv (n : Nat) (d : DebugState .x32) : RunInvariant (RunInv n d) where
  focusHart_lt w h := (sessionInvariant_sessionInv n).focusHart_lt w h.sessionInv
  stub w s hs h :=
    ⟨(sessionInvariant_sessionInv n).stub w s hs h.sessionInv, h.breakpoints, h.watchpoints⟩
  frame w m hm h :=
    ⟨(sessionInvariant_sessionInv n).frame w m hm.toSelectFrame h.sessionInv,
      hm.breakpoints.trans h.breakpoints, hm.watchpoints.trans h.watchpoints⟩
  focus w k hk h :=
    ⟨(sessionInvariant_sessionInv n).focus w k hk h.sessionInv, h.breakpoints, h.watchpoints⟩

theorem RunInv.of_runStep {n : Nat} {d : DebugState .x32} {debugMode : Bool}
    {P : Event → Session → Prop} {s s' : Session} (h : RunInv n d s.world)
    (hstep : RunStep debugMode P s s') : RunInv n d s'.world := by
  obtain ⟨hrun, e, -, hstep⟩ := hstep
  exact (runInvariant_runInv n d).step hrun h hstep

theorem Resumed.runInv {debugMode : Bool} {n : Nat} {s : Session} (hn : validHartCount n)
    (h : Resumed debugMode n s) : RunInv n s.world.dbg s.world := by
  obtain ⟨packets, s₀, e, hrun, -, hstep, hrunning⟩ := h
  exact ⟨sessionInv_of_sessionRun hn (hrun.step e hstep) hrunning.2, rfl, rfl⟩

/-- The last thing written is a stop reply for hart `h` with the given cause. -/
def Session.StoppedOn (s : Session) (h : Nat) (cause : List Byte) : Prop :=
  s.phase = .waiting ∧
    ∃ reply, s.world.stub.output.getLast? = some reply ∧ IsStopReply (sysThreadId h) cause reply

theorem stoppedOn_handleHartStop (w : EmuWorld) (h : Nat) (signal : Int)
    (hid : (w.toTarget.hart h).hartId = h) :
    Session.StoppedOn ⟨.waiting, handleHartStop w h signal⟩ h
      (stopReplyCause w.dbg.breakpointHit w.dbg.lastWatchpointAddr (w.toTarget.hart h).pc) := by
  refine ⟨rfl, _, ?_, isStopReply_stopReplyText w.dbg signal _ _⟩
  show (handleHartStop w h signal).stub.output.getLast? = _
  rw [stub_handleHartStop, hid]
  exact List.getLast?_concat

theorem breakpointAt_congr {d d' : DebugState .x32} (h : d'.breakpoints = d.breakpoints)
    (pc : Word) : d'.breakpointAt pc = d.breakpointAt pc := by
  rw [DebugState.breakpointAt, h, DebugState.breakpointAt]

theorem executed_of_begunTurn {debugMode : Bool} {e : Event} {s : Session} {h : Nat}
    {v : EmuWorld} (hturn : s.begunTurn debugMode e = some (h, v))
    (hbp : ¬v.dbg.breakpointAt (v.toTarget.hart h).pc) :
    s.executed debugMode e = some (h, v.toTarget) := by
  rw [Session.executed, hturn]
  exact if_neg hbp

theorem trace_of_stopsQuietly {w w' : EmuWorld} (h : StopsQuietly w w') :
    w'.sim.trace = w.sim.trace := by
  obtain ⟨v, signal, pc, hquiet, rfl⟩ := h
  rw [sim_gdbStubSendStopReason, hquiet.trace]

/-- The trace of a step without a turn. -/
theorem trace_of_begunTurn_eq_none {debugMode : Bool} {e : Event} {s s' : Session}
    (hrun : s.Running) (hturn : s.begunTurn debugMode e = none)
    (hstep : sessionStep debugMode e s = .ok s') : s'.world.sim.trace = s.world.sim.trace := by
  rcases runStep_of_begunTurn_eq_none hrun hturn hstep with ⟨-, hworld⟩ | ⟨-, hstop⟩
  · rw [hworld, (Prelude.signaled s e).trace, List.append_nil]
  · exact trace_of_stopsQuietly hstop

/-- The trace of a step in which a hart executes. -/
theorem trace_of_executed {debugMode : Bool} {e : Event} {s s' : Session} {h : Nat} {m : Machine}
    (hexec : s.executed debugMode e = some (h, m)) (hstep : sessionStep debugMode e s = .ok s') :
    s'.world.sim.trace = s.world.sim.trace ++ .turn h (m.hart h).pc :: (execEvents m h ++
      (s.workerTurns debugMode e).flatMap fun turn => turnEvents turn.1 turn.2) := by
  have hworkers : s.workerTurns debugMode e = nestedTurns s.world.stub.connected m h := by
    rw [Session.workerTurns, hexec]
  unfold Session.executed at hexec
  cases hturn : s.begunTurn debugMode e with
  | none =>
    rw [hturn] at hexec
    cases hexec
  | some turn =>
    obtain ⟨k, v⟩ := turn
    rw [hturn] at hexec
    simp only at hexec
    split_ifs at hexec with hbp
    obtain ⟨rfl, rfl⟩ := Prod.mk.inj (Option.some.inj hexec)
    have hpre := prelude_of_begunTurn hturn
    have hcpu : (v.cpuStep k).sim.trace = v.sim.trace ++ (execEvents v.toTarget k ++
        (s.workerTurns debugMode e).flatMap fun turn => turnEvents turn.1 turn.2) := by
      rw [hworkers, ← hpre.stub]
      exact trace_sysCpuStep _ _ _
    have hcases := runStep_of_begunTurn hturn hstep
    rw [if_neg hbp] at hcases
    have htrace : s'.world.sim.trace = (v.cpuStep k).sim.trace := by
      rcases hcases with ⟨singleStep, signal, -, rfl⟩ | ⟨rfl, -⟩
      · exact trace_handleHartStop _ _ _
      · rfl
    rw [htrace, hcpu, hpre.trace, List.append_assoc]
    rfl

/-- A worker executes the instruction of each of its turns. -/
theorem mem_trace_of_workerTurns {debugMode : Bool} {e : Event} {s s' : Session}
    (hstep : sessionStep debugMode e s = .ok s') {turn : Nat × Machine}
    (hturn : turn ∈ s.workerTurns debugMode e) (hrun : (turn.2.hart turn.1).running) :
    ∃ evs, s'.world.sim.trace = s.world.sim.trace ++ evs ∧
      .exec turn.1 (turn.2.hart turn.1).pc ∈ evs := by
  cases hexec : s.executed debugMode e with
  | none =>
    rw [Session.workerTurns, hexec] at hturn
    exact absurd hturn List.not_mem_nil
  | some turn₀ =>
    refine ⟨_, trace_of_executed hexec hstep, ?_⟩
    refine List.mem_cons_of_mem _ (List.mem_append_right _ (List.mem_flatMap.mpr ⟨turn, hturn, ?_⟩))
    rw [turnEvents, execEvents, if_pos hrun]
    exact List.mem_cons_of_mem _ List.mem_cons_self

end Rv32Gdb
