import Rv32Gdb.Equiv.Cpu
import Rv32Gdb.Equiv.Stops

/-!
# The turns of harts in a session

`Session.begunTurn` is the hart that gets its turn in a step, with the world in which it does.
`runStep_cases` takes a step of a running target apart: no turn, and then at most a stop reply; a
turn that a breakpoint stops; or the execution of an instruction (`World.cpuStep`), after which
the target may stop.  What comes before the execution is a `Prelude`.
-/

namespace Rv32Gdb

/-! ### Frames -/

/-- A change of the machine that selects no hart and no thread. -/
structure SelectFrame (m m' : Machine) : Prop where
  currentThread : m'.dbg.currentThread = m.dbg.currentThread
  numHarts : m'.sys.numHarts = m.sys.numHarts
  focusHart : m'.sys.focusHart = m.sys.focusHart
  hartId : ∀ k, (m'.hart k).hartId = (m.hart k).hartId

/-- A change of the machine that leaves what the client has set alone, too. -/
structure RunFrame (m m' : Machine) : Prop extends SelectFrame m m' where
  breakpoints : m'.dbg.breakpoints = m.dbg.breakpoints
  watchpoints : m'.dbg.watchpoints = m.dbg.watchpoints
  continueThread : m'.dbg.continueThread = m.dbg.continueThread

theorem ExecFrame.runFrame {m m' : Machine} (h : ExecFrame m m') : RunFrame m m' where
  currentThread := by rw [h.dbg]
  numHarts := h.numHarts
  focusHart := h.focusHart
  hartId := h.hartId
  breakpoints := by rw [h.dbg]
  watchpoints := by rw [h.dbg]
  continueThread := by rw [h.dbg]

theorem RunFrame.updDbg (m : Machine) {d : DebugState .x32}
    (hthread : d.currentThread = m.dbg.currentThread)
    (hbreakpoints : d.breakpoints = m.dbg.breakpoints)
    (hwatchpoints : d.watchpoints = m.dbg.watchpoints)
    (hcontinue : d.continueThread = m.dbg.continueThread) : RunFrame m { m with dbg := d } :=
  ⟨⟨hthread, rfl, rfl, fun _ => rfl⟩, hbreakpoints, hwatchpoints, hcontinue⟩

/-! ### Changing all harts -/

/-- The harts of the loop, one after the other. -/
theorem foldl_updHart (f : Nat → Rv32Cpu → Rv32Cpu) (n : Nat) (s : Rv32System) :
    (List.range n).foldl (fun s h => s.updHart h (f h)) s =
      { s with harts := fun k => if k < n then f k (s.harts k) else s.harts k } := by
  induction n with
  | zero => simp
  | succ n ih =>
    rw [List.range_succ, List.foldl_append, ih]
    simp only [List.foldl_cons, List.foldl_nil, Rv32System.updHart, lt_irrefl, if_false]
    congr 1
    funext k
    rw [Function.update_apply]
    by_cases hk : k = n
    · rw [if_pos hk, if_pos (by omega), hk]
    · rw [if_neg hk]
      exact if_congr (by omega) rfl rfl

theorem Rv32System.forHarts_eq (s : Rv32System) (f : Nat → Rv32Cpu → Rv32Cpu) :
    s.forHarts f =
      { s with harts := fun k => if k < s.numHarts then f k (s.harts k) else s.harts k } :=
  foldl_updHart f s.numHarts s

/-- Halting, resuming and the like keep the numbers of the harts. -/
theorem hartId_forHarts (s : Rv32System) {f : Nat → Rv32Cpu → Rv32Cpu}
    (hf : ∀ h c, (f h c).hartId = c.hartId) (k : Nat) :
    ((s.forHarts f).harts k).hartId = (s.harts k).hartId := by
  rw [Rv32System.forHarts_eq]
  show (if k < s.numHarts then f k (s.harts k) else s.harts k).hartId = _
  split_ifs
  · exact hf _ _
  · rfl

theorem RunFrame.updSys (m : Machine) {f : Rv32System → Rv32System}
    (hnum : (f m.sys).numHarts = m.sys.numHarts) (hfocus : (f m.sys).focusHart = m.sys.focusHart)
    (hid : ∀ k, ((f m.sys).harts k).hartId = (m.sys.harts k).hartId) :
    RunFrame m (m.updSys f) := ⟨⟨rfl, hnum, hfocus, hid⟩, rfl, rfl, rfl⟩

theorem runFrame_sysResumeRunnable (m : Machine) : RunFrame m (sysResumeRunnable m) := by
  refine RunFrame.updSys m ?_ ?_ (hartId_forHarts _ fun h c => ?_)
  · rw [Rv32System.forHarts_eq]
  · rw [Rv32System.forHarts_eq]
  · split_ifs <;> rfl

/-- `sys_halt_all`, with a new stop hart. -/
theorem runFrame_sysHaltAll (m : Machine) :
    RunFrame m (m.updSys fun s => { sysHaltAll s with stopHart := s.focusHart }) := by
  refine RunFrame.updSys m ?_ ?_ (hartId_forHarts m.sys fun h c => rfl)
  · rw [sysHaltAll, Rv32System.forHarts_eq]
  · rw [sysHaltAll, Rv32System.forHarts_eq]

/-- What a step does before a hart executes, with the events that it adds to the trace. -/
structure Prelude (w v : EmuWorld) (events : List HartEvent) : Prop where
  stub : v.stub = w.stub
  dbg : v.dbg = { w.dbg with
    lastWatchpointAddr := v.dbg.lastWatchpointAddr
    shouldStop := v.dbg.shouldStop }
  trace : v.sim.trace = w.sim.trace ++ events
  numHarts : v.sim.sys.numHarts = w.sim.sys.numHarts
  focusHart : v.sim.sys.focusHart = w.sim.sys.focusHart
  hart : ∀ k, v.toTarget.hart k = { w.toTarget.hart k with halted := (v.toTarget.hart k).halted }

namespace Prelude

theorem refl (w : EmuWorld) : Prelude w w [] :=
  ⟨rfl, rfl, (List.append_nil _).symm, rfl, rfl, fun _ => rfl⟩

theorem trans {w₁ w₂ w₃ : EmuWorld} {evs₁ evs₂ : List HartEvent} (h₁ : Prelude w₁ w₂ evs₁)
    (h₂ : Prelude w₂ w₃ evs₂) : Prelude w₁ w₃ (evs₁ ++ evs₂) where
  stub := h₂.stub.trans h₁.stub
  dbg := by rw [h₂.dbg, h₁.dbg]
  trace := by rw [h₂.trace, h₁.trace, List.append_assoc]
  numHarts := h₂.numHarts.trans h₁.numHarts
  focusHart := h₂.focusHart.trans h₁.focusHart
  hart k := by rw [h₂.hart k, h₁.hart k]

theorem runFrame {w v : EmuWorld} {events : List HartEvent} (h : Prelude w v events) :
    RunFrame w.toTarget v.toTarget where
  currentThread := by rw [h.dbg]
  numHarts := h.numHarts
  focusHart := h.focusHart
  hartId k := by rw [h.hart k]
  breakpoints := by rw [h.dbg]
  watchpoints := by rw [h.dbg]
  continueThread := by rw [h.dbg]

theorem sigintHandler (w : EmuWorld) : Prelude w (sigintHandler w) [] := by
  unfold Rv32Gdb.sigintHandler
  simp only
  split_ifs
  · refine ⟨rfl, rfl, (List.append_nil _).symm, ?_, ?_, fun k => ?_⟩
    · show (sysHaltAll w.sim.sys).numHarts = _
      rw [sysHaltAll, Rv32System.forHarts_eq]
    · show (sysHaltAll w.sim.sys).focusHart = _
      rw [sysHaltAll, Rv32System.forHarts_eq]
    · show (sysHaltAll w.sim.sys).harts k =
        { w.sim.sys.harts k with halted := ((sysHaltAll w.sim.sys).harts k).halted }
      rw [sysHaltAll, Rv32System.forHarts_eq]
      simp only
      split_ifs <;> rfl
  · exact ⟨rfl, rfl, (List.append_nil _).symm, rfl, rfl, fun _ => rfl⟩

theorem signaled (s : Session) (e : Event) : Prelude s.world (s.signaled e) [] := by
  unfold Session.signaled
  split_ifs
  · exact sigintHandler _
  · exact refl _

/-- A signal sets `should_stop`, besides what it does to the harts. -/
theorem dbg_signaled (s : Session) (e : Event) :
    (s.signaled e).dbg = { s.world.dbg with shouldStop := (s.signaled e).dbg.shouldStop } := by
  unfold Session.signaled Rv32Gdb.sigintHandler
  simp only
  split_ifs <;> rfl

theorem logTurn (w : EmuWorld) (h : Nat) :
    Prelude w (w.logTurn h) [.turn h ((w.logTurn h).toTarget.hart h).pc] :=
  ⟨rfl, rfl, rfl, rfl, rfl, fun _ => rfl⟩

/-- The instruction fetch of the debug trace. -/
theorem readMem (w : EmuWorld) (h : Nat) (addr : Word) (size : Nat) :
    Prelude w (w.withTarget (rv32CpuReadMem w.stub.connected w.toTarget h addr size).2) [] := by
  have hframe := ExecFrame.checkAccess .load w.stub.connected w.toTarget h addr size
  refine ⟨rfl, ?_, ?_, hframe.numHarts, hframe.focusHart, fun k => ?_⟩
  · show (checkAccess .load w.stub.connected w.toTarget h addr size).dbg = { w.dbg with
      lastWatchpointAddr :=
        (checkAccess .load w.stub.connected w.toTarget h addr size).dbg.lastWatchpointAddr
      shouldStop := (checkAccess .load w.stub.connected w.toTarget h addr size).dbg.shouldStop }
    rw [hframe.dbg]
  · rw [List.append_nil]
    exact trace_checkAccess _ _ _ _ _ _
  · obtain ⟨b, hb⟩ := harts_checkAccess .load w.stub.connected w.toTarget h addr size k
    show (checkAccess .load w.stub.connected w.toTarget h addr size).hart k =
      { w.toTarget.hart k with
        halted := ((checkAccess .load w.stub.connected w.toTarget h addr size).hart k).halted }
    rw [hb]

end Prelude

/-! ### Stops without a turn -/

/-- A change that neither executes nor writes anything. -/
structure QuietFrame (w v : EmuWorld) : Prop where
  stub : v.stub = w.stub
  trace : v.sim.trace = w.sim.trace
  runFrame : RunFrame w.toTarget v.toTarget

theorem Prelude.quietFrame {w v : EmuWorld} (h : Prelude w v []) : QuietFrame w v :=
  ⟨h.stub, h.trace.trans (List.append_nil _), h.runFrame⟩

namespace QuietFrame

theorem trans {w₁ w₂ w₃ : EmuWorld} (h₁ : QuietFrame w₁ w₂) (h₂ : QuietFrame w₂ w₃) :
    QuietFrame w₁ w₃ where
  stub := h₂.stub.trans h₁.stub
  trace := h₂.trace.trans h₁.trace
  runFrame :=
    { currentThread := h₂.runFrame.currentThread.trans h₁.runFrame.currentThread
      numHarts := h₂.runFrame.numHarts.trans h₁.runFrame.numHarts
      focusHart := h₂.runFrame.focusHart.trans h₁.runFrame.focusHart
      hartId := fun k => (h₂.runFrame.hartId k).trans (h₁.runFrame.hartId k)
      breakpoints := h₂.runFrame.breakpoints.trans h₁.runFrame.breakpoints
      watchpoints := h₂.runFrame.watchpoints.trans h₁.runFrame.watchpoints
      continueThread := h₂.runFrame.continueThread.trans h₁.runFrame.continueThread }

theorem updDbg (w : EmuWorld) {f : DebugState .x32 → DebugState .x32}
    (hthread : (f w.dbg).currentThread = w.dbg.currentThread)
    (hbreakpoints : (f w.dbg).breakpoints = w.dbg.breakpoints)
    (hwatchpoints : (f w.dbg).watchpoints = w.dbg.watchpoints)
    (hcontinue : (f w.dbg).continueThread = w.dbg.continueThread) : QuietFrame w (w.updDbg f) :=
  ⟨rfl, rfl, RunFrame.updDbg w.toTarget hthread hbreakpoints hwatchpoints hcontinue⟩

theorem setStopThread (w : EmuWorld) (tid : Int) :
    QuietFrame w (w.updDbg fun d => gdbStubSetStopThread d tid) := by
  refine updDbg w ?_ ?_ ?_ ?_ <;>
    · unfold gdbStubSetStopThread
      split_ifs <;> rfl

end QuietFrame

/-- A stop reply is sent after a change that neither executes nor writes anything. -/
def StopsQuietly (w w' : EmuWorld) : Prop :=
  ∃ v signal pc, QuietFrame w v ∧ w' = gdbStubSendStopReason v signal pc

theorem StopsQuietly.of_quietFrame {w v w' : EmuWorld} (h : QuietFrame w v)
    (hstop : StopsQuietly v w') : StopsQuietly w w' := by
  obtain ⟨u, signal, pc, hquiet, rfl⟩ := hstop
  exact ⟨u, signal, pc, h.trans hquiet, rfl⟩

/-- A change of the flags that end the loop of `continue_all_harts`. -/
structure FlagFrame (w u : EmuWorld) : Prop where
  stub : u.stub = w.stub
  dbg : u.dbg = { w.dbg with shouldStop := u.dbg.shouldStop }
  sim : u.sim = { w.sim with interruptReceived := u.sim.interruptReceived }

namespace FlagFrame

theorem refl (w : EmuWorld) : FlagFrame w w := ⟨rfl, rfl, rfl⟩

theorem shouldStop (w : EmuWorld) (b : Bool) :
    FlagFrame w (w.updDbg fun d => { d with shouldStop := b }) := ⟨rfl, rfl, rfl⟩

theorem trans {w₁ w₂ w₃ : EmuWorld} (h₁ : FlagFrame w₁ w₂) (h₂ : FlagFrame w₂ w₃) :
    FlagFrame w₁ w₃ where
  stub := h₂.stub.trans h₁.stub
  dbg := by rw [h₂.dbg, h₁.dbg]
  sim := by rw [h₂.sim, h₁.sim]

theorem quietFrame {w u : EmuWorld} (h : FlagFrame w u) : QuietFrame w u := by
  have hhart : ∀ k, u.toTarget.hart k = w.toTarget.hart k := by
    intro k
    show u.sim.sys.harts k = w.sim.sys.harts k
    rw [h.sim]
  refine ⟨h.stub, ?_, ⟨⟨?_, ?_, ?_, fun k => by rw [hhart k]⟩, ?_, ?_, ?_⟩⟩
  · rw [h.sim]
  · rw [h.dbg]
  · show u.sim.sys.numHarts = _
    rw [h.sim]
    rfl
  · show u.sim.sys.focusHart = _
    rw [h.sim]
    rfl
  · rw [h.dbg]
  · rw [h.dbg]
  · rw [h.dbg]

end FlagFrame

/-- The thread that `notify_stop` names. -/
def notifyThread (s : Rv32System) : Int :=
  if s.stopHart ≥ 0 then sysThreadId s.stopHart.toNat else sysThreadId s.focusHart

/-- A stop reply for the thread `tid` is sent after a change of the flags. -/
def StopsIdle (w : EmuWorld) (tid : Int) (w' : EmuWorld) : Prop :=
  ∃ u signal pc, FlagFrame w u ∧
    w' = gdbStubSendStopReason (u.updDbg fun d => gdbStubSetStopThread d tid) signal pc

theorem StopsIdle.stopsQuietly {w w' : EmuWorld} {tid : Int} (h : StopsIdle w tid w') :
    StopsQuietly w w' := by
  obtain ⟨u, signal, pc, hflag, rfl⟩ := h
  exact ⟨_, signal, pc, hflag.quietFrame.trans (QuietFrame.setStopThread _ _), rfl⟩

theorem stopsIdle_notifyStop {w u : EmuWorld} (h : FlagFrame w u) (signal : Int) (pc : Word) :
    StopsIdle w (notifyThread w.sim.sys) (notifyStop u signal pc) := by
  refine ⟨u, signal, pc, h, ?_⟩
  have hthread : notifyThread w.sim.sys = notifyThread u.sim.sys := by rw [h.sim]
  rw [hthread]
  rfl

/-- The loop of `continue_all_harts` ends with a stop reply. -/
theorem stopsIdle_continueExit {w u : EmuWorld} (hframe : FlagFrame w u)
    (hexit : ¬(sysAnyRunning u.sim.sys && !u.dbg.shouldStop && !u.sim.interruptReceived)) :
    StopsIdle w (notifyThread w.sim.sys) (continueExit u) := by
  unfold continueExit
  simp only
  split_ifs with hany hint hshould
  · exact stopsIdle_notifyStop (hframe.trans (FlagFrame.shouldStop _ _)) _ _
  · have hclear : FlagFrame u (u.withTarget
        { u.toTarget with sim := { u.sim with interruptReceived := false } }) := ⟨rfl, rfl, rfl⟩
    exact stopsIdle_notifyStop ((hframe.trans hclear).trans (FlagFrame.shouldStop _ _)) _ _
  · exact stopsIdle_notifyStop hframe _ _
  · simp_all

/-! ### Turns -/

/-- The target runs. -/
def Session.Running (s : Session) : Prop := s.phase ≠ .waiting ∧ s.phase ≠ .ended

instance (s : Session) : Decidable s.Running := inferInstanceAs (Decidable (_ ∧ _))

/-- The hart that gets its turn in a step, and the world in which it does. -/
def Session.begunTurn (debugMode : Bool) (e : Event) (s : Session) : Option (Nat × EmuWorld) :=
  let w := s.signaled e
  match s.phase with
  | .stepping =>
    let h := w.sim.sys.focusHart
    let cpu := w.toTarget.hart h
    if !gdbStubShouldRunThread w.dbg (sysThreadId cpu.hartId) then none
    else
      let w := if debugMode then
          w.withTarget (rv32CpuReadMem w.stub.connected w.toTarget h cpu.pc 4).2
        else w
      some (h, w.logTurn h)
  | .turn h =>
    if h < w.sim.sys.numHarts ∧ shouldStepHart w h ∧
        (w.toTarget.hart h).running ∧ !(w.toTarget.hart h).halted then some (h, w.logTurn h)
    else none
  | _ => none

theorem prelude_of_begunTurn {debugMode : Bool} {e : Event} {s : Session} {h : Nat} {v : EmuWorld}
    (hturn : s.begunTurn debugMode e = some (h, v)) :
    Prelude s.world v [.turn h (v.toTarget.hart h).pc] := by
  have hsig := Prelude.signaled s e
  unfold Session.begunTurn at hturn
  simp only at hturn
  split at hturn
  · split_ifs at hturn with hrun hdebug
    · obtain ⟨rfl, rfl⟩ := Prod.mk.inj (Option.some.inj hturn)
      exact hsig.trans ((Prelude.readMem _ _ _ _).trans (Prelude.logTurn _ _))
    · obtain ⟨rfl, rfl⟩ := Prod.mk.inj (Option.some.inj hturn)
      exact hsig.trans (Prelude.logTurn _ _)
  · split_ifs at hturn with hgo
    obtain ⟨rfl, rfl⟩ := Prod.mk.inj (Option.some.inj hturn)
    exact hsig.trans (Prelude.logTurn _ _)
  · cases hturn

/-- The hart of a turn exists. -/
theorem lt_numHarts_of_begunTurn {debugMode : Bool} {e : Event} {s : Session} {h : Nat}
    {v : EmuWorld} (hturn : s.begunTurn debugMode e = some (h, v))
    (hfocus : s.world.sim.sys.focusHart < s.world.sim.sys.numHarts) :
    h < s.world.sim.sys.numHarts := by
  have hsig := Prelude.signaled s e
  unfold Session.begunTurn at hturn
  simp only at hturn
  split at hturn
  · split_ifs at hturn
    all_goals
      obtain ⟨rfl, -⟩ := Prod.mk.inj (Option.some.inj hturn)
      rwa [hsig.focusHart]
  · split_ifs at hturn with hgo
    obtain ⟨rfl, -⟩ := Prod.mk.inj (Option.some.inj hturn)
    rw [← hsig.numHarts]
    exact hgo.1
  · cases hturn

theorem continueTurn_of_skip {w : EmuWorld} {h : Nat}
    (hskip : ¬(shouldStepHart w h ∧ (w.toTarget.hart h).running ∧ !(w.toTarget.hart h).halted)) :
    continueTurn w h = (false, w) := by
  unfold continueTurn
  split_ifs with hshould hstate
  · rfl
  · rfl
  · refine absurd ?_ hskip
    simpa using And.intro hshould hstate

/-- `continue_all_harts` leaves its loops, and no hart has stopped. -/
def Session.exitsLoop (e : Event) (s : Session) : Prop :=
  let w := s.signaled e
  match s.phase with
  | .loopHead => ¬(sysAnyRunning w.sim.sys && !w.dbg.shouldStop && !w.sim.interruptReceived)
  | .turn h => ¬h < w.sim.sys.numHarts ∧ e.ready
  | _ => False

/-- The thread that a stop without a turn names: that of the focus hart when this may not be
stepped, else the one of `notify_stop`. -/
def Session.IdleThread (e : Event) (s : Session) (tid : Int) : Prop :=
  let w := s.signaled e
  (s.phase = .stepping ∧ tid = sysThreadId (w.toTarget.hart w.sim.sys.focusHart).hartId) ∨
    (s.exitsLoop e ∧ tid = notifyThread w.sim.sys)

/-- A step without a turn goes on with the run or ends it with a stop reply. -/
theorem runStep_without_turn {debugMode : Bool} {e : Event} {s s' : Session}
    (hrun : s.Running) (hturn : s.begunTurn debugMode e = none)
    (hstep : sessionStep debugMode e s = .ok s') :
    (s'.Running ∧ s'.world = s.signaled e) ∨
      (s'.phase = .waiting ∧ ∃ tid, s.IdleThread e tid ∧
        StopsIdle (s.signaled e) tid s'.world) := by
  obtain ⟨phase, world⟩ := s
  set w := Session.signaled ⟨phase, world⟩ e with hw
  rw [sessionStep, ← hw] at hstep
  unfold Session.begunTurn at hturn
  simp only [← hw] at hturn
  cases phase with
  | waiting => exact absurd rfl hrun.1
  | ended => exact absurd rfl hrun.2
  | stepping =>
    obtain rfl := Except.ok.inj hstep
    simp only at hturn
    -- `step_focus_hart` only replies if the thread may not run
    split_ifs at hturn with hskip
    refine Or.inr ⟨rfl, _, Or.inl ⟨rfl, rfl⟩, w, 0, (w.toTarget.hart w.sim.sys.focusHart).pc,
      FlagFrame.refl w, ?_⟩
    simp only [stepFocusHart, if_pos hskip]
    rfl
  | loopHead =>
    simp only [phaseStep] at hstep
    -- the condition of the loop
    split_ifs at hstep with hgo
    · obtain rfl := Except.ok.inj hstep
      exact Or.inl ⟨⟨nofun, nofun⟩, rfl⟩
    · obtain rfl := Except.ok.inj hstep
      exact Or.inr ⟨rfl, _, Or.inr ⟨hgo, rfl⟩, stopsIdle_continueExit (FlagFrame.refl w) hgo⟩
  | turn h =>
    simp only at hturn
    split_ifs at hturn with hgo
    simp only [phaseStep] at hstep
    -- a hart that is skipped, or the check for input after the last one
    by_cases hlt : h < w.sim.sys.numHarts
    · rw [if_pos hlt, continueTurn_of_skip fun hrun => hgo ⟨hlt, hrun⟩, if_neg (by simp)] at hstep
      obtain rfl := Except.ok.inj hstep
      exact Or.inl ⟨⟨nofun, nofun⟩, rfl⟩
    rw [if_neg hlt] at hstep
    split_ifs at hstep with hready
    · obtain rfl := Except.ok.inj hstep
      exact Or.inr ⟨rfl, _, Or.inr ⟨⟨hlt, hready⟩, rfl⟩,
        stopsIdle_continueExit (FlagFrame.shouldStop w true) (by simp)⟩
    · obtain rfl := Except.ok.inj hstep
      exact Or.inl ⟨⟨nofun, nofun⟩, rfl⟩

theorem runStep_of_begunTurn_eq_none {debugMode : Bool} {e : Event} {s s' : Session}
    (hrun : s.Running) (hturn : s.begunTurn debugMode e = none)
    (hstep : sessionStep debugMode e s = .ok s') :
    (s'.Running ∧ s'.world = s.signaled e) ∨
      (s'.phase = .waiting ∧ StopsQuietly s.world s'.world) := by
  rcases runStep_without_turn hrun hturn hstep with hgo | ⟨hwait, tid, -, hstop⟩
  · exact Or.inl hgo
  · exact Or.inr ⟨hwait, hstop.stopsQuietly.of_quietFrame (Prelude.signaled s e).quietFrame⟩

/-- The signal for a hart that has executed: SIGILL if it only stopped running, else SIGTRAP. -/
def stopSignal (c : Rv32Cpu) : Int := if c.halted || c.running then 5 else 4

theorem stopSignal_of_halted {c : Rv32Cpu} (h : c.halted) : stopSignal c = 5 := by
  rw [stopSignal, if_pos (by rw [h, Bool.true_or])]

theorem stopSignal_of_running {c : Rv32Cpu} (h : c.running) : stopSignal c = 5 := by
  rw [stopSignal, if_pos (by rw [h, Bool.or_true])]

theorem stopSignal_of_not {c : Rv32Cpu} (hhalted : ¬c.halted) (hrunning : ¬c.running) :
    stopSignal c = 4 := by
  rw [stopSignal, if_neg]
  simpa using And.intro hhalted hrunning

/-- A step with a turn: a breakpoint stops it, or the hart executes and may stop afterwards. -/
theorem runStep_of_begunTurn {debugMode : Bool} {e : Event} {s s' : Session} {h : Nat}
    {v : EmuWorld} (hturn : s.begunTurn debugMode e = some (h, v))
    (hstep : sessionStep debugMode e s = .ok s') :
    if v.dbg.breakpointAt (v.toTarget.hart h).pc then
      s' = ⟨.waiting, handleHartStop (v.updDbg fun d => { d with breakpointHit := true }) h 5⟩
    else
      (∃ singleStep signal, ((s.phase = .stepping ∨ ((v.cpuStep h).toTarget.hart h).halted ∨
            !((v.cpuStep h).toTarget.hart h).running) ∧
          signal = stopSignal ((v.cpuStep h).toTarget.hart h)) ∧
        s' = ⟨.waiting, handleHartStop
          ((v.cpuStep h).updDbg fun d => { d with singleStep := singleStep }) h signal⟩) ∨
      (s' = ⟨.turn (h + 1), v.cpuStep h⟩ ∧ ((v.cpuStep h).toTarget.hart h).halted = false ∧
        ((v.cpuStep h).toTarget.hart h).running) := by
  obtain ⟨phase, world⟩ := s
  set w := Session.signaled ⟨phase, world⟩ e with hw
  rw [sessionStep, ← hw] at hstep
  unfold Session.begunTurn at hturn
  simp only [← hw] at hturn
  cases phase with
  | waiting => cases hturn
  | loopHead => cases hturn
  | ended => cases hturn
  | stepping =>
    obtain rfl := Except.ok.inj hstep
    -- in `step_focus_hart` the turn begins if the thread may run
    by_cases hskip : !gdbStubShouldRunThread w.dbg
        (sysThreadId (w.toTarget.hart w.sim.sys.focusHart).hartId)
    · rw [if_pos hskip] at hturn
      cases hturn
    rw [if_neg hskip] at hturn
    obtain ⟨rfl, rfl⟩ := Prod.mk.inj (Option.some.inj hturn)
    simp only [stepFocusHart, if_neg hskip, gdbStubCheckBreakpoint]
    generalize World.logTurn _ _ = v
    by_cases hbp : v.dbg.breakpointAt (v.toTarget.hart w.sim.sys.focusHart).pc
    · simp only [if_pos hbp, if_true]
      rfl
    · simp only [if_neg hbp, Bool.false_eq_true, if_false]
      -- halted, no longer running, or done
      split_ifs with hstop hhalt
      · exact Or.inl ⟨false, 5, ⟨Or.inl trivial, (stopSignal_of_halted hhalt).symm⟩, rfl⟩
      · have hgone := (Bool.or_eq_true_iff.mp hstop).resolve_left hhalt
        rw [Bool.not_eq_true'] at hgone
        refine Or.inl ⟨false, 4, ⟨Or.inl trivial, ?_⟩, rfl⟩
        exact (stopSignal_of_not hhalt (Bool.eq_false_iff.mp hgone)).symm
      · have hgo : ((v.cpuStep w.sim.sys.focusHart).toTarget.hart w.sim.sys.focusHart).running := by
          by_contra hgone
          refine hstop (Bool.or_eq_true_iff.mpr (Or.inr ?_))
          rw [Bool.not_eq_true']
          exact Bool.eq_false_iff.mpr hgone
        exact Or.inl ⟨false, 5, ⟨Or.inl trivial, (stopSignal_of_running hgo).symm⟩, rfl⟩
  | turn k =>
    simp only at hturn
    split_ifs at hturn with hgo
    obtain ⟨rfl, rfl⟩ := Prod.mk.inj (Option.some.inj hturn)
    obtain ⟨hlt, hshould, hrunning, hhalted⟩ := hgo
    -- the conditions of the turn hold, so only the breakpoint is left to check
    have hskip : ¬(!(w.toTarget.hart k).running || (w.toTarget.hart k).halted) := by
      simpa using And.intro hrunning hhalted
    simp only [phaseStep, if_pos hlt, continueTurn, hshould, Bool.not_true, if_neg hskip,
      gdbStubCheckBreakpoint, Bool.false_eq_true, if_false] at hstep
    by_cases hbp : (w.logTurn k).dbg.breakpointAt ((w.logTurn k).toTarget.hart k).pc
    · simp only [if_pos hbp, if_true] at hstep ⊢
      exact (Except.ok.inj hstep).symm
    · simp only [if_neg hbp, Bool.false_eq_true, if_false] at hstep ⊢
      have hsame : (w.logTurn k).updDbg (fun _ => (w.logTurn k).dbg) = w.logTurn k := rfl
      rw [hsame] at hstep
      generalize (w.logTurn k).cpuStep k = u at hstep ⊢
      by_cases hhalt : (u.toTarget.hart k).halted
      · simp only [if_pos hhalt, if_true] at hstep
        exact Or.inl ⟨u.dbg.singleStep, 5, ⟨Or.inr (Or.inl hhalt), (stopSignal_of_halted hhalt).symm⟩,
          (Except.ok.inj hstep).symm⟩
      by_cases hrun : !(u.toTarget.hart k).running
      · simp only [if_neg hhalt, if_pos hrun, if_true] at hstep
        have hgone : ¬(u.toTarget.hart k).running := by simpa using hrun
        exact Or.inl ⟨u.dbg.singleStep, 4, ⟨Or.inr (Or.inr hrun),
          (stopSignal_of_not hhalt hgone).symm⟩, (Except.ok.inj hstep).symm⟩
      · simp only [if_neg hhalt, if_neg hrun, Bool.false_eq_true, if_false] at hstep
        exact Or.inr ⟨(Except.ok.inj hstep).symm, by simpa using hhalt, by simpa using hrun⟩

/-- What a step of a running target does to the connection: nothing while the target goes on, and
one stop reply when it stops. -/
theorem stub_runStep {debugMode : Bool} {e : Event} {s s' : Session} (hrun : s.Running)
    (hstep : sessionStep debugMode e s = .ok s') :
    (s'.Running ∧ s'.world.stub = s.world.stub) ∨
      (s'.phase = .waiting ∧ ∃ tid cause reply, IsStopReply tid cause reply ∧
        s'.world.stub = s.world.stub.write reply) := by
  cases hturn : s.begunTurn debugMode e with
  | none =>
    rcases runStep_of_begunTurn_eq_none hrun hturn hstep with ⟨hgo, hworld⟩ | ⟨hwait, hstop⟩
    · exact Or.inl ⟨hgo, by rw [hworld, (Prelude.signaled s e).stub]⟩
    · obtain ⟨v, signal, pc, hquiet, hworld⟩ := hstop
      refine Or.inr ⟨hwait, _, _, _, isStopReply_stopReplyText v.dbg signal v.dbg.replyThread pc, ?_⟩
      rw [hworld, stub_gdbStubSendStopReason, hquiet.stub]
  | some turn =>
    obtain ⟨h, v⟩ := turn
    have hstub := (prelude_of_begunTurn hturn).stub
    have hreply : ∀ (w : EmuWorld) (signal : Int), w.stub = s.world.stub →
        ∃ tid cause reply, IsStopReply tid cause reply ∧
          (handleHartStop w h signal).stub = s.world.stub.write reply := fun w signal hw =>
      ⟨_, _, _, isStopReply_stopReplyText w.dbg signal _ _, by rw [stub_handleHartStop, hw]⟩
    have hcases := runStep_of_begunTurn hturn hstep
    split_ifs at hcases with hbp
    · rw [hcases]
      exact Or.inr ⟨rfl, hreply _ _ hstub⟩
    · rcases hcases with ⟨singleStep, signal, -, rfl⟩ | ⟨rfl, -⟩
      · exact Or.inr ⟨rfl, hreply _ _ hstub⟩
      · exact Or.inl ⟨⟨nofun, nofun⟩, hstub⟩

end Rv32Gdb
