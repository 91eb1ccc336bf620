import Rv32Gdb.Equiv.Resume

/-!
# Breakpoints in a run

`stopsAtBreakpoints_of_resumeRun`: in a run in which no worker comes to an enabled breakpoint
inside a step of hart `0`, a hart whose turn comes at an enabled breakpoint stops the run and is
named by the stop reply, and no hart executes the instruction there.
-/

namespace Rv32Gdb

/-- No worker comes to an enabled breakpoint inside a step. -/
def NoWorkerAtBreakpoint (debugMode : Bool) (e : Event) (s : Session) : Prop :=
  ∀ turn ∈ s.workerTurns debugMode e, ¬s.world.dbg.breakpointAt (turn.2.hart turn.1).pc

/-- Between `s₁` and `s` no hart executes at an enabled breakpoint, and a hart that comes to one is
the last to have a turn and is named by the stop reply. -/
def StopsAtBreakpoints (s₁ s : Session) : Prop :=
  ∃ evs, s.world.sim.trace = s₁.world.sim.trace ++ evs ∧
    (∀ h pc, .exec h pc ∈ evs → ¬s₁.world.dbg.breakpointAt pc) ∧
    ∀ pre h pc post, evs = pre ++ .turn h pc :: post → s₁.world.dbg.breakpointAt pc →
      post = [] ∧ s.StoppedOn h (ascii "swbreak:;")

/-- An event at an enabled breakpoint. -/
def HartEvent.AtBreakpoint (d : DebugState .x32) : HartEvent → Prop
  | .turn _ pc => d.breakpointAt pc
  | .exec _ pc => d.breakpointAt pc
  | .access .. => False

/-- What stops at an enabled breakpoint: a hart that has its turn there. -/
def HartEvent.StopsTurn (s : Session) : HartEvent → Prop
  | .turn h _ => s.StoppedOn h (ascii "swbreak:;")
  | _ => False

theorem not_atBreakpoint_execEvents {d : DebugState .x32} {m : Machine} {h : Nat}
    (hbp : ¬d.breakpointAt (m.hart h).pc) : ∀ ev ∈ execEvents m h, ¬ev.AtBreakpoint d := by
  intro ev hev
  unfold execEvents at hev
  split_ifs at hev
  · rcases List.mem_cons.mp hev with rfl | hev
    · exact hbp
    · obtain ⟨access, -, rfl⟩ := List.mem_map.mp hev
      exact id
  · exact absurd hev List.not_mem_nil

/-- The step lemma. -/
theorem onlyLast_of_runStep {debugMode : Bool} {n : Nat} {d : DebugState .x32} {s s' : Session}
    (hinv : RunInv n d s.world) (hstep : RunStep debugMode (NoWorkerAtBreakpoint debugMode) s s') :
    ∃ evs, s'.world.sim.trace = s.world.sim.trace ++ evs ∧
      OnlyLast (HartEvent.AtBreakpoint d) (HartEvent.StopsTurn s') evs := by
  obtain ⟨hrun, e, hworker, hstep⟩ := hstep
  cases hturn : s.begunTurn debugMode e with
  | none =>
    refine ⟨[], ?_, onlyLast_of_forall_not (by simp)⟩
    rw [trace_of_begunTurn_eq_none hrun hturn hstep, List.append_nil]
  | some turn =>
    obtain ⟨h, v⟩ := turn
    have hpre := prelude_of_begunTurn hturn
    have hv := (runInvariant_runInv n d).of_prelude hpre hinv
    have hh := lt_numHarts_of_begunTurn hturn
      (hinv.sessionInv.numHarts.symm ▸ hinv.sessionInv.focusHart_lt)
    have hid := hv.sessionInv.hartId h (hh.trans_eq hinv.sessionInv.numHarts)
    by_cases hbp : v.dbg.breakpointAt (v.toTarget.hart h).pc
    · -- the turn is the only event of the step
      have hcases := runStep_of_begunTurn hturn hstep
      rw [if_pos hbp] at hcases
      refine ⟨[.turn h (v.toTarget.hart h).pc], ?_, onlyLast_singleton fun _ => ?_⟩
      · rw [hcases]
        exact (trace_handleHartStop _ _ _).trans hpre.trace
      · rw [hcases]
        exact stoppedOn_handleHartStop
          (v.updDbg fun d => { d with breakpointHit := true }) h 5 hid
    · refine ⟨_, trace_of_executed (executed_of_begunTurn hturn hbp) hstep,
        onlyLast_of_forall_not ?_⟩
      rw [breakpointAt_congr hv.breakpoints] at hbp
      intro ev hev
      rcases List.mem_cons.mp hev with rfl | hev
      · exact hbp
      rcases List.mem_append.mp hev with hev | hev
      · exact not_atBreakpoint_execEvents hbp ev hev
      · obtain ⟨turn, hturn, hev⟩ := List.mem_flatMap.mp hev
        have hnot := hworker turn hturn
        rw [breakpointAt_congr hinv.breakpoints] at hnot
        rcases List.mem_cons.mp hev with rfl | hev
        · exact hnot
        · exact not_atBreakpoint_execEvents hnot ev hev

/-- Breakpoints stop every run in which no worker comes to one inside a step of hart `0`. -/
theorem stopsAtBreakpoints_of_resumeRun {debugMode : Bool} {n : Nat} {s₁ s : Session}
    (hn : validHartCount n) (hresumed : Resumed debugMode n s₁)
    (hrun : ResumeRun debugMode (NoWorkerAtBreakpoint debugMode) s₁ s) :
    StopsAtBreakpoints s₁ s := by
  have hlive : ∀ {s s' : Session} {ev : HartEvent},
      RunStep debugMode (NoWorkerAtBreakpoint debugMode) s s' → ¬ev.StopsTurn s := by
    intro s s' ev hstep hstop
    cases ev with
    | turn h pc => exact hstep.1.1 hstop.1
    | exec h pc => exact hstop
    | access h kind addr size => exact hstop
  obtain ⟨-, evs, htrace, hlast⟩ := onlyLast_of_run
    (I := fun s : Session => RunInv n s₁.world.dbg s.world)
    (fun s : Session => s.world.sim.trace) RunInv.of_runStep hlive onlyLast_of_runStep
    (hresumed.runInv hn) hrun
  refine ⟨evs, htrace, fun h pc hmem hbp => ?_, fun pre h pc post hevs hbp => ?_⟩
  · obtain ⟨pre, post, rfl⟩ := List.append_of_mem hmem
    exact (hlast pre _ post rfl hbp).2
  · exact hlast pre _ post hevs hbp

/-- One hart, a breakpoint at the first instruction, and `c`. -/
def breakpointSession : Session :=
  ((loadedSession 1 (frame (ascii "Z0,80000000,4") ++ frame (ascii "c"))).after false
    [.quiet]).next false .quiet

theorem stopsAtBreakpoints_breakpointSession :
    StopsAtBreakpoints breakpointSession (breakpointSession.after false [.quiet, .quiet]) := by
  have hnone : ∀ {s : Session}, (s.workerTurns false .quiet).length = 0 →
      NoWorkerAtBreakpoint false .quiet s := by
    intro s hs turn hturn
    rw [List.eq_nil_of_length_eq_zero hs] at hturn
    exact absurd hturn List.not_mem_nil
  have hresumed : Resumed false 1 breakpointSession :=
    resumed_after (by decide +kernel) (by decide +kernel) (by decide +kernel) (by decide +kernel)
  refine stopsAtBreakpoints_of_resumeRun (by decide) hresumed (resumeRun_after ?_)
  exact ⟨by decide +kernel, hnone (by decide +kernel), by decide +kernel,
    by decide +kernel, hnone (by decide +kernel), by decide +kernel, trivial⟩

/-- Two harts, hart `0` at its loop store, a breakpoint at the instruction at which hart `1` waits,
and a step. -/
def workerBreakpointSession : Session :=
  ((loadedSession 2 (frame (ascii "P20=14000080") ++ frame (ascii "Z0,80000034,4") ++
    frame (ascii "s"))).after false [.quiet, .quiet]).next false .quiet

/-- The worker executes the instruction at the breakpoint. -/
theorem not_stopsAtBreakpoints_workerBreakpointSession :
    Resumed false 2 workerBreakpointSession ∧
      RunStep false (fun _ _ => True) workerBreakpointSession
        (workerBreakpointSession.next false .quiet) ∧
      ¬StopsAtBreakpoints workerBreakpointSession (workerBreakpointSession.next false .quiet) := by
  have hresumed : Resumed false 2 workerBreakpointSession :=
    resumed_after (by decide +kernel) (by decide +kernel) (by decide +kernel) (by decide +kernel)
  have hok : (sessionStep false .quiet workerBreakpointSession).isOk := by decide +kernel
  refine ⟨hresumed, ⟨by decide +kernel, .quiet, trivial, sessionStep_next hok⟩, ?_⟩
  rintro ⟨evs, htrace, hexec, -⟩
  have hhead : ((workerBreakpointSession.workerTurns false .quiet).head?.map fun turn =>
      ((turn.2.hart turn.1).pc, (turn.2.hart turn.1).running)) = some (0x80000034, true) := by
    decide +kernel
  obtain ⟨turn, hturn, hpc⟩ := Option.map_eq_some_iff.mp hhead
  obtain ⟨hpc, hrun⟩ := Prod.mk.inj hpc
  obtain ⟨evs', htrace', hmem⟩ :=
    mem_trace_of_workerTurns (sessionStep_next hok) (List.mem_of_mem_head? hturn) hrun
  obtain rfl := List.append_cancel_left (htrace'.symm.trans htrace)
  refine hexec _ _ hmem ?_
  rw [hpc]
  decide +kernel

end Rv32Gdb
