import Rv32Gdb.Equiv.ContinueThread
import Mathlib.Logic.Function.Iterate

/-!
# Continuing and stepping

A program with one hart is continued by a loop and stepped by a function of its own.  `stepHarts` is
what one step does to the harts: both do it, over and over (`harts_of_steps`, `harts_of_loop`).
The main result is `agreesWithSteps_iff`: `c` leads where as many `s` lead as it takes turns, unless
it takes none and the hart was halted.
-/

namespace Rv32Gdb

/-! ### What an instruction depends on -/

/-- The machines differ in nothing that the execution of an instruction depends on. -/
structure SameHarts (m m' : Machine) : Prop where
  harts : m'.sys.harts = m.sys.harts
  watchpoints : m'.dbg.watchpoints = m.dbg.watchpoints

namespace SameHarts

variable {m m' : Machine}

theorem updHart (hs : SameHarts m m') (h : Nat) (f : Rv32Cpu → Rv32Cpu) :
    SameHarts (m.updHart h f) (m'.updHart h f) := by
  refine ⟨?_, hs.watchpoints⟩
  show Function.update m'.sys.harts h (f (m'.sys.harts h)) = _
  rw [hs.harts]
  rfl

theorem hart (hs : SameHarts m m') (h : Nat) : m'.hart h = m.hart h := congrFun hs.harts h

theorem checkAccess (hs : SameHarts m m') (kind : AccessKind) (connected : Bool) (h : Nat)
    (addr : Word) (size : Nat) :
    SameHarts (checkAccess kind connected m h addr size)
      (checkAccess kind connected m' h addr size) := by
  have hsame : accessHit connected m'.dbg kind addr size =
      accessHit connected m.dbg kind addr size := by
    rw [accessHit, accessHit, DebugState.watchpointFor, hs.watchpoints, DebugState.watchpointFor]
  cases hhit : accessHit connected m.dbg kind addr size with
  | none => rwa [checkAccess_of_none hhit, checkAccess_of_none (hsame.trans hhit)]
  | some a =>
    rw [checkAccess_of_some hhit, checkAccess_of_some (hsame.trans hhit)]
    exact ⟨(hs.updHart h Rv32Cpu.halt).harts, hs.watchpoints⟩

theorem ramLoad (hs : SameHarts m m') (h : Nat) (off : BitVec 16) (size : Nat) :
    m'.sys.ramLoad h off size = m.sys.ramLoad h off size := by
  have hram : m'.sys.ram = m.sys.ram := by
    funext k o
    rw [Rv32System.ram, Rv32System.ramOwner, hs.harts]
    rfl
  unfold Rv32System.ramLoad
  rw [hram]

theorem ramStore (hs : SameHarts m m') (h : Nat) (off : BitVec 16) (value : Word) (size : Nat) :
    SameHarts (m.updSys fun s => s.ramStore h off value size)
      (m'.updSys fun s => s.ramStore h off value size) := by
  refine ⟨?_, hs.watchpoints⟩
  have hset : ∀ {s s' : Rv32System}, s'.harts = s.harts → ∀ o b,
      (s'.setRam h o b).harts = (s.setRam h o b).harts := by
    intro s s' hsame o b
    show Function.update s'.harts (s'.ramOwner h) _ = Function.update s.harts (s.ramOwner h) _
    rw [Rv32System.ramOwner, hsame, Rv32System.ramOwner]
  show (m'.sys.ramStore h off value size).harts = (m.sys.ramStore h off value size).harts
  unfold Rv32System.ramStore
  split
  · exact hset hs.harts _ _
  · exact hset (hset hs.harts _ _) _ _
  · exact hset (hset (hset (hset hs.harts _ _) _ _) _ _) _ _
  · exact hs.harts

theorem rv32CpuWriteMem (hs : SameHarts m m') (connected : Bool) (h : Nat) (addr value : Word)
    (size : Nat) : SameHarts (rv32CpuWriteMem connected m h addr value size)
      (rv32CpuWriteMem connected m' h addr value size) := by
  have hcheck := hs.checkAccess .store connected h addr size
  unfold Rv32Gdb.rv32CpuWriteMem
  simp only
  split_ifs
  · exact hcheck.ramStore h _ value size
  · exact hcheck

theorem fetched (hs : SameHarts m m') (h : Nat) : fetched m' h = fetched m h := by
  rw [Rv32Gdb.fetched, hs.hart, hs.ramLoad, Rv32Gdb.fetched]

theorem log (hs : SameHarts m m') (e : HartEvent) : SameHarts (m.log e) (m'.log e) :=
  ⟨hs.harts, hs.watchpoints⟩

theorem execLoad (hs : SameHarts m m') (connected : Bool) (h : Nat) (i : Word) :
    SameHarts (execLoad connected m h i) (execLoad connected m' h i) := by
  unfold Rv32Gdb.execLoad
  rw [hs.hart]
  cases loadSize (funct3Field i) with
  | none => exact hs.updHart h _
  | some size =>
    simp only [rv32CpuReadMem]
    set addr := rv32CpuReadReg (m.hart h) (rs1Field i) + signExtend (immI i) 12
    have hcheck := (hs.log (.access h .load addr size)).checkAccess .load connected h addr size
    rw [hcheck.ramLoad]
    exact hcheck.updHart h _

theorem execStore (hs : SameHarts m m') (connected : Bool) (h : Nat) (i : Word) :
    SameHarts (execStore connected m h i) (execStore connected m' h i) := by
  unfold Rv32Gdb.execStore
  rw [hs.hart]
  cases storeSize (funct3Field i) with
  | none => exact hs
  | some size => exact (hs.log _).rv32CpuWriteMem connected h _ _ size

/-- An instruction does the same in both. -/
theorem rv32CpuStep (hs : SameHarts m m') (connected : Bool) (h : Nat) :
    SameHarts (rv32CpuStep connected m h) (rv32CpuStep connected m' h) := by
  by_cases hrun : (m.hart h).running
  · have hafter : SameHarts (afterFetch connected m h) (afterFetch connected m' h) := by
      unfold afterFetch
      rw [hs.hart]
      exact ((hs.log _).checkAccess .load connected h _ 4).updHart h _
    rw [rv32CpuStep_of_running connected hrun,
      rv32CpuStep_of_running connected (hs.hart h ▸ hrun), hs.fetched, hs.hart]
    split_ifs
    · exact hafter.execLoad connected h _
    · exact hafter.execStore connected h _
    · exact hafter.updHart h _
  · have hskip : ∀ {m : Machine}, ¬(m.hart h).running → Rv32Gdb.rv32CpuStep connected m h = m := by
      intro m hm
      rw [Rv32Gdb.rv32CpuStep, if_pos (by simpa using hm)]
    rwa [hskip hrun, hskip (hs.hart h ▸ hrun)]

end SameHarts

/-! ### The steps of one hart -/

/-- The machine with one hart, and nothing but the harts and the tables of the stub. -/
def oneHartMachine (d : DebugState .x32) (harts : Nat → Rv32Cpu) : Machine where
  dbg := d
  sim :=
    { sys := { harts := harts, numHarts := 1, focusHart := 0, stopHart := -1 }
      interruptReceived := false
      trace := [] }

/-- The harts after hart `0` has executed an instruction. -/
def execHarts (d : DebugState .x32) (harts : Nat → Rv32Cpu) : Nat → Rv32Cpu :=
  (rv32CpuStep true (oneHartMachine d harts) 0).sys.harts

/-- The harts after hart `0` has been resumed. -/
def resumeHarts (harts : Nat → Rv32Cpu) : Nat → Rv32Cpu :=
  Function.update harts 0 { harts 0 with halted := false }

/-- The harts after a turn of hart `0`, that a breakpoint stops. -/
def turnHarts (d : DebugState .x32) (harts : Nat → Rv32Cpu) : Nat → Rv32Cpu :=
  if d.breakpointAt (harts 0).pc then harts else execHarts d harts

/-- The harts after a step. -/
def stepHarts (d : DebugState .x32) (harts : Nat → Rv32Cpu) : Nat → Rv32Cpu :=
  turnHarts d (resumeHarts harts)

theorem resumeHarts_resumeHarts (harts : Nat → Rv32Cpu) :
    resumeHarts (resumeHarts harts) = resumeHarts harts := by
  unfold resumeHarts
  rw [Function.update_self, Function.update_idem]

theorem resumeHarts_of_not_halted {harts : Nat → Rv32Cpu} (h : ¬(harts 0).halted) :
    resumeHarts harts = harts := by
  have hhart : { harts 0 with halted := false } = harts 0 := by
    rw [← Bool.eq_false_of_not_eq_true h]
  rw [resumeHarts, hhart, Function.update_eq_self]

theorem stepHarts_resumeHarts (d : DebugState .x32) (harts : Nat → Rv32Cpu) :
    stepHarts d (resumeHarts harts) = stepHarts d harts := by
  rw [stepHarts, resumeHarts_resumeHarts, stepHarts]

/-! ### One hart -/

/-- A program with one hart, with the tables of `d` and the thread `tid` to be continued. -/
structure OneHart (d : DebugState .x32) (tid : Int) (w : EmuWorld) : Prop where
  sessionInv : SessionInv 1 w
  currentThread : w.dbg.currentThread = 1
  breakpoints : w.dbg.breakpoints = d.breakpoints
  watchpoints : w.dbg.watchpoints = d.watchpoints
  continueThread : w.dbg.continueThread = tid

theorem runInvariant_oneHart (d : DebugState .x32) (tid : Int) :
    RunInvariant (OneHart d tid) where
  focusHart_lt w h := (sessionInvariant_sessionInv 1).focusHart_lt w h.sessionInv
  stub w s hs h := ⟨(sessionInvariant_sessionInv 1).stub w s hs h.sessionInv, h.currentThread,
    h.breakpoints, h.watchpoints, h.continueThread⟩
  frame w m hm h := ⟨(sessionInvariant_sessionInv 1).frame w m hm.toSelectFrame h.sessionInv,
    hm.currentThread.trans h.currentThread, hm.breakpoints.trans h.breakpoints,
    hm.watchpoints.trans h.watchpoints, hm.continueThread.trans h.continueThread⟩
  focus w k hk h := ⟨(sessionInvariant_sessionInv 1).focus w k hk h.sessionInv, h.currentThread,
    h.breakpoints, h.watchpoints, h.continueThread⟩

namespace OneHart

variable {d : DebugState .x32} {tid : Int} {w : EmuWorld}

theorem focusHart (h : OneHart d tid w) : w.sim.sys.focusHart = 0 := by
  have := h.sessionInv.focusHart_lt
  omega

theorem breakpointAt (h : OneHart d tid w) (pc : Word) :
    w.dbg.breakpointAt pc = d.breakpointAt pc := breakpointAt_congr h.breakpoints pc

theorem withInput (h : OneHart d tid w) (input : List Byte) : OneHart d tid (w.withInput input) :=
  ⟨⟨h.sessionInv.connected, h.sessionInv.consecutiveFailures, h.sessionInv.numHarts,
    h.sessionInv.focusHart_lt, h.sessionInv.hartId⟩, h.currentThread, h.breakpoints,
    h.watchpoints, h.continueThread⟩

/-- An instruction in such a program. -/
theorem harts_cpuStep (h : OneHart d tid w) :
    (w.cpuStep 0).sim.sys.harts = execHarts d w.sim.sys.harts := by
  have hone : (rv32CpuStep w.stub.connected w.toTarget 0).sys.numHarts = 1 :=
    (execFrame_rv32CpuStep _ _ _).numHarts.trans h.sessionInv.numHarts
  have hpost : sysCpuStep w.stub.connected w.toTarget 0 =
      rv32CpuStep w.stub.connected w.toTarget 0 := by
    rw [sysCpuStep, sysPostStep, if_pos hone.le]
  show (sysCpuStep w.stub.connected w.toTarget 0).sys.harts = _
  rw [hpost, h.sessionInv.connected]
  have hsame : SameHarts (oneHartMachine d w.sim.sys.harts) w.toTarget := ⟨rfl, h.watchpoints⟩
  exact (hsame.rv32CpuStep true 0).harts

end OneHart

/-! ### A turn -/

theorem harts_handleHartStop (w : EmuWorld) (h : Nat) (signal : Int) :
    (handleHartStop w h signal).sim.sys.harts = w.sim.sys.harts := by
  unfold handleHartStop notifyStop
  simp only
  rw [sim_gdbStubSendStopReason]
  rfl

theorem input_handleHartStop (w : EmuWorld) (h : Nat) (signal : Int) :
    (handleHartStop w h signal).stub.input = w.stub.input := by
  rw [stub_handleHartStop]
  rfl

/-- What a turn of the hart does. -/
theorem harts_of_begunTurn {d : DebugState .x32} {tid : Int} {e : Event} {s s' : Session}
    {v : EmuWorld} (hs : OneHart d tid s.world) (hturn : s.begunTurn false e = some (0, v))
    (hharts : v.sim.sys.harts = s.world.sim.sys.harts)
    (hstep : sessionStep false e s = .ok s') :
    s'.world.sim.sys.harts = turnHarts d s.world.sim.sys.harts ∧
      s'.world.stub.input = s.world.stub.input := by
  have hpre := prelude_of_begunTurn hturn
  have hv := (runInvariant_oneHart d tid).of_prelude hpre hs
  have hcases := runStep_of_begunTurn hturn hstep
  have hpc : (v.toTarget.hart 0).pc = (s.world.sim.sys.harts 0).pc :=
    congrArg (fun harts => Rv32Cpu.pc (harts 0)) hharts
  rw [hv.breakpointAt, hpc] at hcases
  rw [turnHarts]
  split_ifs at hcases ⊢ with hbp
  · rw [hcases]
    refine ⟨(harts_handleHartStop _ _ _).trans hharts, ?_⟩
    rw [input_handleHartStop]
    exact congrArg GdbStub.input hpre.stub
  · have hexec : (v.cpuStep 0).sim.sys.harts = execHarts d s.world.sim.sys.harts := by
      rw [hv.harts_cpuStep, hharts]
    rcases hcases with ⟨singleStep, signal, -, rfl⟩ | ⟨rfl, -⟩
    · refine ⟨(harts_handleHartStop _ _ _).trans hexec, ?_⟩
      rw [input_handleHartStop]
      exact congrArg GdbStub.input hpre.stub
    · exact ⟨hexec, congrArg GdbStub.input hpre.stub⟩

/-! ### Resuming -/

theorem harts_sysResumeRunnable {m : Machine} (hone : m.sys.numHarts = 1)
    (hrun : gdbStubShouldRunThread m.dbg (sysThreadId 0)) :
    (sysResumeRunnable m).sys.harts = resumeHarts m.sys.harts := by
  funext k
  show (sysResumeRunnable m).hart k = _
  rw [hart_sysResumeRunnable_ite, hone, resumeHarts, Function.update_apply]
  by_cases hk : k = 0
  · subst hk
    rw [if_pos Nat.one_pos, if_neg (by simpa using hrun), if_pos rfl]
    rfl
  · rw [if_neg (by omega), if_neg hk]
    rfl

/-- A command that changes the debug state by `f` has resumed the harts; `rest` is still to be
read. -/
structure ResumesTo (f : DebugState .x32 → DebugState .x32) (rest : List Byte) (w v : EmuWorld) :
    Prop where
  dbg : v.dbg = f w.dbg
  input : v.stub.input = rest
  harts : v.sim.sys.harts = resumeHarts w.sim.sys.harts
  trace : v.sim.trace = w.sim.trace
  sessionInv : SessionInv 1 v

/-- A resume command is accepted. -/
theorem exists_resumesTo {w : EmuWorld} {p rest : List Byte}
    {f : DebugState .x32 → DebugState .x32} (hinv : SessionInv 1 w)
    (hin : Framed p rest w.stub.input) (hlen : p.length < gdbBufferSize)
    (hret : ∀ stub, HasBytes stub.packetBuffer 0 (p ++ [0#8]) →
      dispatch 0 emuCallbacks { w with stub := stub } =
        .ok (1, (World.updDbg { w with stub := stub } f).actOpt emuCallbacks.resume))
    (hrun : gdbStubShouldRunThread (f w.dbg) (sysThreadId 0)) :
    ∃ v, sessionStep false .quiet ⟨.waiting, w⟩ =
        .ok ⟨if (f w.dbg).singleStep then .stepping else .loopHead, v⟩ ∧
      ResumesTo f rest w v := by
  have hfail : w.stub.consecutiveFailures < 50 := by
    rw [hinv.consecutiveFailures]
    decide
  obtain ⟨stub, hrecv, hprocess⟩ := gdbStubProcess_framed 0 emuCallbacks hinv.connected hfail hin
    hlen
  rw [hret stub hrecv.bytes] at hprocess
  set u : EmuWorld := World.updDbg { w with stub := stub } f with hu
  set v₁ : EmuWorld := u.withTarget (sysResumeRunnable u.toTarget) with hv₁
  have hframe : StubFrame w.stub stub := ⟨by rw [hrecv.eq], fun _ => by rw [hrecv.eq]⟩
  have hP := sessionInvariant_sessionInv 1
  have hinv₀ : SessionInv 1 u := (hP.stub w stub hframe hinv).updDbg f
  have hinv₁ : SessionInv 1 v₁ :=
    hP.frame u _ (runFrame_sysResumeRunnable u.toTarget).toSelectFrame hinv₀
  have hharts₁ := harts_sysResumeRunnable (m := u.toTarget) hinv₀.numHarts hrun
  have hharts := harts_sysResumeRunnable (m := v₁.toTarget) hinv₁.numHarts hrun
  refine ⟨v₁.withTarget (sysResumeRunnable v₁.toTarget), ?_, rfl, ?_, ?_, rfl,
    hP.frame v₁ _ (runFrame_sysResumeRunnable v₁.toTarget).toSelectFrame hinv₁⟩
  · rw [sessionStep]
    show phaseStep false .quiet .waiting w = _
    rw [phaseStep, hinv.connected, if_neg (by simp), show Event.quiet.fuel = 0 from rfl, hprocess]
    show Except.ok (if (f w.dbg).singleStep then _ else _ : Session) = _
    split_ifs <;> rfl
  · show stub.input = rest
    rw [hrecv.eq]
  · refine hharts.trans ?_
    rw [show v₁.toTarget.sys.harts = _ from hharts₁, resumeHarts_resumeHarts]
    rfl

theorem OneHart.of_resumesTo {d : DebugState .x32} {tid : Int} {f : DebugState .x32 → DebugState .x32}
    {rest : List Byte} {w v : EmuWorld} (hs : OneHart d tid w) (h : ResumesTo f rest w v)
    (hcurrent : (f w.dbg).currentThread = w.dbg.currentThread)
    (hbreakpoints : (f w.dbg).breakpoints = w.dbg.breakpoints)
    (hwatchpoints : (f w.dbg).watchpoints = w.dbg.watchpoints) :
    OneHart d (f w.dbg).continueThread v := by
  refine ⟨h.sessionInv, ?_, ?_, ?_, ?_⟩ <;> rw [h.dbg]
  · exact hcurrent.trans hs.currentThread
  · exact hbreakpoints.trans hs.breakpoints
  · exact hwatchpoints.trans hs.watchpoints

/-! ### Steps -/

/-- A step of the hart. -/
theorem exists_stepped {d : DebugState .x32} {tid : Int} {w : EmuWorld} {rest : List Byte}
    (hs : OneHart d tid w) (htid : tid = -1 ∨ tid = 1)
    (hin : Framed (ascii "s") rest w.stub.input) :
    ∃ v u, sessionStep false .quiet ⟨.waiting, w⟩ = .ok ⟨.stepping, v⟩ ∧
      sessionStep false .quiet ⟨.stepping, v⟩ = .ok ⟨.waiting, u⟩ ∧ OneHart d 1 u ∧
      u.stub.input = rest ∧ u.sim.sys.harts = stepHarts d w.sim.sys.harts := by
  set f : DebugState .x32 → DebugState .x32 := fun d => d.stepThread
    (if d.continueThread < 0 then d.currentThread else d.continueThread) with hf
  have hthread : (f w.dbg).continueThread = 1 := by
    show (if w.dbg.continueThread < 0 then w.dbg.currentThread else w.dbg.continueThread) = 1
    rw [hs.continueThread, hs.currentThread]
    rcases htid with rfl | rfl <;> rfl
  have hrun : ∀ d : DebugState .x32, d.continueThread = 1 →
      gdbStubShouldRunThread d (sysThreadId 0) := by
    intro d hd
    rw [gdbStubShouldRunThread_iff, hd]
    exact Or.inr rfl
  obtain ⟨v, hstep, hres⟩ := exists_resumesTo (f := f) hs.sessionInv hin (by decide)
    (fun stub hbytes => by
      have hcmd : byteAt stub.packetBuffer 0 = chr 's' := hbytes.head
      unfold dispatch
      simp only [hcmd]
      rfl) (hrun _ hthread)
  have hv := hs.of_resumesTo hres rfl rfl rfl
  rw [hthread] at hv
  have hstep₂ : sessionStep false .quiet ⟨.stepping, v⟩ = .ok ⟨.waiting, stepFocusHart v false⟩ :=
    rfl
  have hturn : Session.begunTurn false .quiet ⟨.stepping, v⟩ = some (0, v.logTurn 0) := by
    have hsig : Session.signaled ⟨.stepping, v⟩ .quiet = v := rfl
    unfold Session.begunTurn
    simp only [hsig, hv.focusHart, hv.sessionInv.hartId 0 Nat.one_pos, hrun _ hv.continueThread]
    rfl
  obtain ⟨hharts, hinput⟩ := harts_of_begunTurn hv hturn rfl hstep₂
  refine ⟨v, _, hstep, hstep₂, (runInvariant_oneHart d 1).step ⟨by simp, by simp⟩ hv hstep₂,
    hinput.trans hres.input, hharts.trans ?_⟩
  rw [stepHarts, ← hres.harts]

/-- The client sends `s` a number of times. -/
def stepPackets (m : Nat) : List Byte := (List.replicate m (frame (ascii "s"))).flatten

/-- What `j` steps of `m` do. -/
theorem harts_of_steps {d : DebugState .x32} {tid : Int} {w : EmuWorld} {m j : Nat}
    (hs : OneHart d tid w) (htid : tid = -1 ∨ tid = 1) (hin : w.stub.input = stepPackets m)
    (hj : j ≤ m) :
    Session.steps false (List.replicate (2 * j) .quiet) ⟨.waiting, w⟩ ∧
      ∃ u, Session.after false (List.replicate (2 * j) .quiet) ⟨.waiting, w⟩ = ⟨.waiting, u⟩ ∧
        (∃ tid', OneHart d tid' u) ∧
        u.sim.sys.harts = (stepHarts d)^[j] w.sim.sys.harts := by
  induction j generalizing w m tid with
  | zero => exact ⟨rfl, w, rfl, ⟨tid, hs⟩, rfl⟩
  | succ j ih =>
    obtain ⟨m, rfl⟩ : ∃ k, m = k + 1 := ⟨m - 1, by omega⟩
    have hframed : Framed (ascii "s") (stepPackets m) w.stub.input := by
      rw [hin]
      exact framed_frame (by decide) _
    obtain ⟨v, u, hstep₁, hstep₂, hu, hinput, hharts⟩ := exists_stepped hs htid hframed
    obtain ⟨hok, u', hafter, hu', hharts'⟩ := ih hu (Or.inr rfl) hinput (by omega)
    have htwo : List.replicate (2 * (j + 1)) Event.quiet =
        .quiet :: .quiet :: List.replicate (2 * j) .quiet := rfl
    have hnext₁ : Session.next false ⟨.waiting, w⟩ .quiet = ⟨.stepping, v⟩ := by
      rw [Session.next, hstep₁]
    have hnext₂ : Session.next false ⟨.stepping, v⟩ .quiet = ⟨.waiting, u⟩ := by
      rw [Session.next, hstep₂]
    rw [htwo]
    refine ⟨?_, u', ?_, hu', ?_⟩
    · rw [Session.steps, hnext₁, Session.steps, hnext₂, hok, hstep₁, hstep₂]
      rfl
    · rw [Session.after, List.foldl_cons, hnext₁, List.foldl_cons, hnext₂]
      exact hafter
    · rw [hharts', hharts, Function.iterate_succ_apply]

/-! ### The loop -/

/-- The hart runs, and a breakpoint at its pc is what stops it. -/
def BreakpointStop (w : EmuWorld) : Prop :=
  (w.toTarget.hart 0).running ∧ ¬(w.toTarget.hart 0).halted ∧
    w.dbg.breakpointAt (w.toTarget.hart 0).pc

instance (w : EmuWorld) : Decidable (BreakpointStop w) := inferInstanceAs (Decidable (_ ∧ _ ∧ _))

/-- A step that does not stop the hart: it finds no breakpoint, and the hart runs on. -/
def GoesOn (d : DebugState .x32) (harts : Nat → Rv32Cpu) : Prop :=
  ¬d.breakpointAt (harts 0).pc ∧ (stepHarts d harts 0).running ∧ ¬(stepHarts d harts 0).halted

/-- No signal is delivered, and no input is found. -/
def Undisturbed (e : Event) (_ : Session) : Prop := e.sigint = false ∧ e.ready = false

/-- `m` steps of the harts lead to `harts'`, and only the last one may stop them. -/
def StepsLead (d : DebugState .x32) (m : Nat) (harts harts' : Nat → Rv32Cpu) : Prop :=
  harts' = (stepHarts d)^[m] harts ∧ ∀ j, j + 1 < m → GoesOn d ((stepHarts d)^[j] harts)

theorem StepsLead.head {d : DebugState .x32} {m : Nat} {harts harts' : Nat → Rv32Cpu}
    (hgo : GoesOn d harts) (h : StepsLead d m (stepHarts d harts) harts') :
    StepsLead d (m + 1) harts harts' := by
  refine ⟨h.1, fun j hj => ?_⟩
  cases j with
  | zero => exact hgo
  | succ j => exact h.2 j (by omega)

theorem stepsLead_zero (d : DebugState .x32) (harts : Nat → Rv32Cpu) :
    StepsLead d 0 harts harts := ⟨rfl, fun _ hj => absurd hj (by omega)⟩

theorem stepsLead_one (d : DebugState .x32) (harts : Nat → Rv32Cpu) :
    StepsLead d 1 harts (stepHarts d harts) := ⟨rfl, fun _ hj => absurd hj (by omega)⟩

theorem stepHarts_of_not_halted {d : DebugState .x32} {harts : Nat → Rv32Cpu}
    (h : ¬(harts 0).halted) : stepHarts d harts = turnHarts d harts := by
  rw [stepHarts, resumeHarts_of_not_halted h]

/-- The turns from which the events are: one for every instruction, and one for a breakpoint. -/
def turnsTaken (evs : List HartEvent) (w' : EmuWorld) : Nat :=
  evs.countP (HartEvent.isExecOf 0) + if BreakpointStop w' then 1 else 0

/-- A stop without an instruction. -/
theorem stepsLead_of_quiet {d : DebugState .x32} {tid : Int} {w' : EmuWorld}
    {harts : Nat → Rv32Cpu} (hw : OneHart d tid w') (hhalt : ¬(harts 0).halted)
    (hharts : w'.sim.sys.harts = harts) {evs : List HartEvent}
    (hevs : evs.countP (HartEvent.isExecOf 0) = 0) :
    StepsLead d (turnsTaken evs w') harts w'.sim.sys.harts := by
  rw [turnsTaken, hevs, Nat.zero_add, hharts]
  split_ifs with hbp
  · have hpc : d.breakpointAt (harts 0).pc := by
      rw [← hw.breakpointAt, ← hharts]
      exact hbp.2.2
    have hsame : stepHarts d harts = harts := by
      rw [stepHarts_of_not_halted hhalt, turnHarts, if_pos hpc]
    have hone := stepsLead_one d harts
    rwa [hsame] at hone
  · exact stepsLead_zero d harts

theorem eq_of_resumeRun_waiting {debugMode : Bool} {P : Event → Session → Prop} {w : EmuWorld}
    {s : Session} (h : ResumeRun debugMode P ⟨.waiting, w⟩ s) : s = ⟨.waiting, w⟩ := by
  rcases h.cases_head with h | ⟨s', hstep, -⟩
  · exact h.symm
  · exact absurd rfl hstep.1.1

theorem sim_notifyStop (w : EmuWorld) (signal : Int) (pc : Word) :
    (notifyStop w signal pc).sim = w.sim := sim_gdbStubSendStopReason _ _ _

theorem sim_continueExit (w : EmuWorld) :
    (continueExit w).sim.sys = w.sim.sys ∧ (continueExit w).sim.trace = w.sim.trace := by
  unfold continueExit
  simp only
  split_ifs
  · rw [sim_notifyStop]
    exact ⟨rfl, rfl⟩
  · rw [sim_notifyStop]
    exact ⟨rfl, rfl⟩
  · rw [sim_notifyStop]
    exact ⟨rfl, rfl⟩
  · exact ⟨rfl, rfl⟩

theorem sysAnyRunning_of_one {s : Rv32System} (hone : s.numHarts = 1) :
    sysAnyRunning s = ((s.harts 0).running && !(s.harts 0).halted) := by
  rw [sysAnyRunning, hone]
  simp [List.range_succ]

/-- Where the loop of `continue_all_harts` is when there is one hart: a turn only begins if the hart
runs. -/
def InLoop (s : Session) : Prop :=
  s.phase = .loopHead ∨ (s.phase = .turn 0 ∧ (s.world.toTarget.hart 0).running) ∨
    s.phase = .turn 1

/-- A turn of the loop ends it, or the hart has executed an instruction and runs on. -/
theorem loopTurn_cases {d : DebugState .x32} {w : EmuWorld} {e : Event} {s' : Session}
    (hw : OneHart d (-1) w) (hrunning : (w.toTarget.hart 0).running)
    (hhalt : ¬(w.toTarget.hart 0).halted) (hsigint : e.sigint = false)
    (hstep : sessionStep false e ⟨.turn 0, w⟩ = .ok s') :
    (s'.phase = .waiting ∧ ∃ evs, s'.world.sim.trace = w.sim.trace ++ evs ∧
      StepsLead d (turnsTaken evs s'.world) w.sim.sys.harts s'.world.sim.sys.harts) ∨
    (s'.phase = .turn 1 ∧ GoesOn d w.sim.sys.harts ∧
      s'.world.sim.sys.harts = stepHarts d w.sim.sys.harts ∧
      ∃ evs, s'.world.sim.trace = w.sim.trace ++ evs ∧
        evs.countP (HartEvent.isExecOf 0) = 1) := by
  have hstepped : stepHarts d w.sim.sys.harts = turnHarts d w.sim.sys.harts :=
    stepHarts_of_not_halted hhalt
  have hsig : Session.signaled ⟨.turn 0, w⟩ e = w := by
    rw [Session.signaled, if_neg (by simp [hsigint])]
  have hshould : shouldStepHart w 0 := by
    have hall : gdbStubShouldRunThread w.dbg (sysThreadId 0) := by
      rw [gdbStubShouldRunThread_iff, hw.continueThread]
      exact Or.inl (by decide)
    rw [shouldStepHart, if_neg (by simpa using hall), if_pos hw.sessionInv.numHarts]
  -- the turn of the one hart begins: every thread may run, and it runs and is not halted
  have hturn : Session.begunTurn false e ⟨.turn 0, w⟩ = some (0, w.logTurn 0) := by
    unfold Session.begunTurn
    simp only [hsig]
    refine if_pos ⟨?_, hshould, hrunning, by simpa using hhalt⟩
    rw [hw.sessionInv.numHarts]
    exact Nat.one_pos
  have hs' := (runInvariant_oneHart d (-1)).step ⟨by simp, by simp⟩ hw hstep
  have hharts : s'.world.sim.sys.harts = stepHarts d w.sim.sys.harts := by
    rw [hstepped]
    exact (harts_of_begunTurn hw hturn rfl hstep).1
  have hcases := runStep_of_begunTurn hturn hstep
  have hbpiff : (w.logTurn 0).dbg.breakpointAt ((w.logTurn 0).toTarget.hart 0).pc =
      d.breakpointAt (w.sim.sys.harts 0).pc := hw.breakpointAt _
  rw [hbpiff] at hcases
  -- at a breakpoint nothing is executed, and the single steps stop there as well
  by_cases hbp : d.breakpointAt (w.sim.sys.harts 0).pc
  · rw [if_pos hbp] at hcases
    refine Or.inl ⟨by rw [hcases], [.turn 0 (w.toTarget.hart 0).pc], ?_, ?_⟩
    · rw [hcases]
      exact trace_handleHartStop _ _ _
    · have hsame : s'.world.sim.sys.harts = w.sim.sys.harts := by
        rw [hharts, hstepped, turnHarts, if_pos hbp]
      exact stepsLead_of_quiet hs' hhalt hsame rfl
  · rw [if_neg hbp] at hcases
    -- otherwise one instruction is executed, which counts as one single step
    have hexec := executed_of_begunTurn hturn (by rwa [hbpiff])
    have hcount := @countP_executed w.stub.connected (w.logTurn 0).toTarget 0
      ((w.logTurn 0).toTarget.hart 0).pc (hw.sessionInv.hartId 0 Nat.one_pos) hrunning
    have hworkers : Session.workerTurns false e ⟨.turn 0, w⟩ =
        nestedTurns w.stub.connected (w.logTurn 0).toTarget 0 := by
      rw [Session.workerTurns, hexec]
    have htrace := trace_of_executed hexec hstep
    rw [hworkers] at htrace
    rcases hcases with ⟨singleStep, signal, ⟨hstop, -⟩, hs''⟩ | ⟨hs'', hhalt', hrunning'⟩
    · refine Or.inl ⟨by rw [hs''], _, htrace, ?_⟩
      -- the hart stopped by itself, not at a breakpoint
      have hnot : ¬BreakpointStop s'.world := by
        rintro ⟨hrun, hnothalt, -⟩
        have hhart : s'.world.toTarget.hart 0 =
            ((w.logTurn 0).cpuStep 0).toTarget.hart 0 := by
          rw [hs'']
          exact congrFun (harts_handleHartStop _ _ _) 0
        rw [hhart] at hrun hnothalt
        rcases hstop with hphase | hstop | hstop
        · cases hphase
        · exact hnothalt hstop
        · rw [hrun] at hstop
          cases hstop
      rw [turnsTaken, hcount, if_neg hnot, hharts]
      exact stepsLead_one d _
    · refine Or.inr ⟨by rw [hs''], ⟨hbp, ?_, ?_⟩, hharts, _, htrace, hcount⟩
      · rw [← hharts, hs'']
        exact hrunning'
      · rw [← hharts, hs'']
        exact Bool.eq_false_iff.mp hhalt'

/-- One step of the loop. -/
theorem loopStep_cases {d : DebugState .x32} {s s' : Session} (hs : OneHart d (-1) s.world)
    (hin : InLoop s) (hhalt : ¬(s.world.toTarget.hart 0).halted)
    (hstep : RunStep false Undisturbed s s') :
    (InLoop s' ∧ s'.world = s.world) ∨
    (s'.phase = .waiting ∧ ∃ evs, s'.world.sim.trace = s.world.sim.trace ++ evs ∧
      StepsLead d (turnsTaken evs s'.world) s.world.sim.sys.harts s'.world.sim.sys.harts) ∨
    (InLoop s' ∧ GoesOn d s.world.sim.sys.harts ∧
      s'.world.sim.sys.harts = stepHarts d s.world.sim.sys.harts ∧
      ∃ evs, s'.world.sim.trace = s.world.sim.trace ++ evs ∧
        evs.countP (HartEvent.isExecOf 0) = 1) := by
  obtain ⟨hrun, e, ⟨hsigint, hready⟩, hstep⟩ := hstep
  have hs' := (runInvariant_oneHart d (-1)).step hrun hs hstep
  obtain ⟨phase, w⟩ := s
  have hsig : Session.signaled ⟨phase, w⟩ e = w := by
    rw [Session.signaled, if_neg (by simp [hsigint])]
  have hnum : w.sim.sys.numHarts = 1 := hs.sessionInv.numHarts
  rcases hin with hphase | ⟨hphase, hrunning⟩ | hphase
  · -- the loop condition: a turn, or the end of the run
    obtain rfl : phase = .loopHead := hphase
    rw [sessionStep, hsig] at hstep
    simp only [phaseStep] at hstep
    split_ifs at hstep with hgo
    · obtain rfl := Except.ok.inj hstep
      rw [sysAnyRunning_of_one hnum] at hgo
      simp only [Bool.and_eq_true] at hgo
      exact Or.inl ⟨Or.inr (Or.inl ⟨rfl, hgo.1.1.1⟩), rfl⟩
    · obtain rfl := Except.ok.inj hstep
      obtain ⟨hsys, htrace⟩ := sim_continueExit w
      refine Or.inr (Or.inl ⟨rfl, [], htrace.trans (List.append_nil _).symm, ?_⟩)
      exact stepsLead_of_quiet hs' hhalt (congrArg Rv32System.harts hsys) rfl
  · -- the turn of hart 0
    obtain rfl : phase = .turn 0 := hphase
    rcases loopTurn_cases hs hrunning hhalt hsigint hstep with hstop | ⟨hphase', hgo⟩
    · exact Or.inr (Or.inl hstop)
    · exact Or.inr (Or.inr ⟨Or.inr (Or.inr hphase'), hgo⟩)
  · -- no hart is left, and there is no input: back to the loop condition
    obtain rfl : phase = .turn 1 := hphase
    rw [sessionStep, hsig] at hstep
    simp only [phaseStep] at hstep
    rw [if_neg (by omega), if_neg (by simp [hready])] at hstep
    obtain rfl := Except.ok.inj hstep
    exact Or.inl ⟨Or.inl rfl, rfl⟩

/-- Where the loop leads. -/
theorem harts_of_loop {d : DebugState .x32} {s : Session} {w' : EmuWorld}
    (hrun : ResumeRun false Undisturbed s ⟨.waiting, w'⟩) (hs : OneHart d (-1) s.world)
    (hin : InLoop s) (hhalt : ¬(s.world.toTarget.hart 0).halted) :
    OneHart d (-1) w' ∧ ∃ evs, w'.sim.trace = s.world.sim.trace ++ evs ∧
      StepsLead d (turnsTaken evs w') s.world.sim.sys.harts w'.sim.sys.harts := by
  induction hrun using Relation.ReflTransGen.head_induction_on with
  | refl => rcases hin with h | ⟨h, -⟩ | h <;> cases h
  | @head s s' hstep hrest ih =>
    have hs' := (runInvariant_oneHart d (-1)).step hstep.1 hs hstep.2.choose_spec.2
    rcases loopStep_cases hs hin hhalt hstep with ⟨hin', hsame⟩ | ⟨hwait, hstop⟩ |
      ⟨hin', hgo, hharts, evs, htrace, hcount⟩
    · rw [← hsame]
      exact ih hs' hin' (hsame ▸ hhalt)
    · obtain ⟨phase, v⟩ := s'
      obtain rfl : phase = .waiting := hwait
      obtain rfl : v = w' := congrArg Session.world (eq_of_resumeRun_waiting hrest).symm
      exact ⟨hs', hstop⟩
    · have hhalt' : ¬(s'.world.toTarget.hart 0).halted := by
        show ¬(s'.world.sim.sys.harts 0).halted
        rw [hharts]
        exact hgo.2.2
      obtain ⟨hw', evs', htrace', hlead⟩ := ih hs' hin' hhalt'
      refine ⟨hw', evs ++ evs', ?_, ?_⟩
      · rw [htrace', htrace, List.append_assoc]
      · have hturns : turnsTaken (evs ++ evs') w' = turnsTaken evs' w' + 1 := by
          rw [turnsTaken, List.countP_append, hcount, turnsTaken]
          omega
        rw [hturns]
        rw [hharts] at hlead
        exact hlead.head hgo

theorem breakpointAt_resumeHarts (d : DebugState .x32) (harts : Nat → Rv32Cpu) :
    d.breakpointAt (resumeHarts harts 0).pc = d.breakpointAt (harts 0).pc := by
  rw [resumeHarts, Function.update_self]

/-- The first step resumes the hart. -/
theorem StepsLead.of_resumeHarts {d : DebugState .x32} {m : Nat} {harts harts' : Nat → Rv32Cpu}
    (hm : 0 < m) (h : StepsLead d m (resumeHarts harts) harts') : StepsLead d m harts harts' := by
  have hiter : ∀ j, (stepHarts d)^[j + 1] (resumeHarts harts) = (stepHarts d)^[j + 1] harts := by
    intro j
    rw [Function.iterate_succ_apply, stepHarts_resumeHarts, Function.iterate_succ_apply]
  obtain ⟨m, rfl⟩ : ∃ k, m = k + 1 := ⟨m - 1, by omega⟩
  refine ⟨h.1.trans (hiter m), fun j hj => ?_⟩
  have hgo := h.2 j hj
  cases j with
  | zero =>
    obtain ⟨hbp, hrunning, hhalted⟩ := hgo
    rw [Function.iterate_zero_apply, stepHarts_resumeHarts] at hrunning hhalted
    rw [Function.iterate_zero_apply, breakpointAt_resumeHarts] at hbp
    exact ⟨hbp, hrunning, hhalted⟩
  | succ j =>
    rw [hiter] at hgo
    exact hgo

/-! ### Reachable states -/

theorem sessionInv_imageSession {n : Nat} (hn : 0 < n) (image : BitVec 16 → Byte)
    (input : List Byte) : SessionInv n (imageSession n image input).world := by
  refine (sessionInvariant_sessionInv n).frame _ _ ?_ (sessionInv_initSession hn input)
  exact (HartFrame.updHart _ _ rfl id).execFrame.runFrame.toSelectFrame

theorem sessionInv_of_sessionFrom {debugMode : Bool} {n : Nat} {packets : List (List Byte)}
    {s₀ s : Session} (h₀ : SessionInv n s₀.world) (hfrom : SessionFrom debugMode s₀ packets s)
    (hended : s.phase ≠ .ended) : SessionInv n s.world := by
  induction hfrom with
  | refl => exact h₀
  | step e _ hstep ih =>
    exact (sessionInvariant_sessionInv n).step (ih (phase_ne_ended_of_step hstep hended)) hstep
      hended fun _ w _ hw => ⟨fun _ => hw.handleSetThread, fun _ => hw.handleReset⟩

theorem oneHart_of_sessionFrom {debugMode : Bool} {image : BitVec 16 → Byte} {input : List Byte}
    {packets : List (List Byte)} {s : Session}
    (hfrom : SessionFrom debugMode (imageSession 1 image input) packets s)
    (hended : s.phase ≠ .ended) :
    OneHart s.world.dbg s.world.dbg.continueThread s.world := by
  have hthreads := (machineInv_of_sessionFrom
    (machineInv_imageSession Nat.one_pos image input) hfrom).threads
  refine ⟨sessionInv_of_sessionFrom (sessionInv_imageSession Nat.one_pos image input) hfrom hended,
    ?_, rfl, rfl, rfl⟩
  have hpos := hthreads.currentThread_pos
  have hle := hthreads.currentThread_le
  omega

/-! ### Continuing is stepping -/

/-- `c` in `w`, without further input and without a signal, stops in `w'`. -/
def ContinueStops (w w' : EmuWorld) : Prop :=
  ∃ s, sessionStep false .quiet ⟨.waiting, w.withInput (frame (ascii "c"))⟩ = .ok s ∧
    ResumeRun false Undisturbed s ⟨.waiting, w'⟩

/-- The instructions executed from `w` to `w'`. -/
def executedCount (w w' : EmuWorld) : Nat :=
  (w'.sim.trace.drop w.sim.trace.length).countP (HartEvent.isExecOf 0)

/-- How many `s` packets there are for a `c` packet: one for every instruction, and one more if a
breakpoint has stopped the hart. -/
def stepsFor (w w' : EmuWorld) : Nat :=
  if BreakpointStop w' then executedCount w w' + 1 else executedCount w w'

/-- The client sends `m` times `s` in `w`, and `j` of them have been carried out. -/
def afterSteps (w : EmuWorld) (m j : Nat) : Session :=
  Session.after false (List.replicate (2 * j) .quiet) ⟨.waiting, w.withInput (stepPackets m)⟩

/-- The `s` packets lead where `c` leads, from `w` to the harts of `w'`, and no step before the last
finds a breakpoint or stops the hart. -/
def AgreesWithSteps (w w' : EmuWorld) : Prop :=
  let m := stepsFor w w'
  Session.steps false (List.replicate (2 * m) .quiet) ⟨.waiting, w.withInput (stepPackets m)⟩ ∧
    (∀ j ≤ m, (afterSteps w m j).phase = .waiting) ∧
    (afterSteps w m m).world.sim.sys.harts = w'.sim.sys.harts ∧
    ∀ j, j + 1 < m →
      ¬(afterSteps w m j).world.dbg.breakpointAt
        ((afterSteps w m j).world.toTarget.hart 0).pc ∧
      ((afterSteps w m (j + 1)).world.toTarget.hart 0).running ∧
      ¬((afterSteps w m (j + 1)).world.toTarget.hart 0).halted

/-- Where `c` leads. -/
theorem harts_of_continue {d : DebugState .x32} {tid : Int} {w w' : EmuWorld}
    (hs : OneHart d tid w) (hstop : ContinueStops w w') :
    StepsLead d (stepsFor w w') (resumeHarts w.sim.sys.harts) w'.sim.sys.harts := by
  obtain ⟨s, hstep, hrun⟩ := hstop
  set f : DebugState .x32 → DebugState .x32 := fun d => { d with
    shouldStop := false
    singleStep := false
    stopThread := 0
    continueThread := -1 } with hf
  have hs₀ := hs.withInput (frame (ascii "c"))
  have hall : gdbStubShouldRunThread (f (w.withInput (frame (ascii "c"))).dbg) (sysThreadId 0) :=
    rfl
  obtain ⟨v, hstep', hres⟩ := exists_resumesTo (f := f) hs₀.sessionInv
    (framed_frame_nil (p := ascii "c") (by decide)) (by decide)
    (fun stub hbytes => by
      have hcmd : byteAt stub.packetBuffer 0 = chr 'c' := hbytes.head
      unfold dispatch
      simp only [hcmd]
      rfl) hall
  obtain rfl := Except.ok.inj (hstep.symm.trans hstep')
  have hharts : v.sim.sys.harts = resumeHarts w.sim.sys.harts := hres.harts
  have hhalt : ¬(v.sim.sys.harts 0).halted := by
    rw [hharts, resumeHarts, Function.update_self]
    simp
  obtain ⟨-, evs, htrace, hlead⟩ := harts_of_loop hrun (hs₀.of_resumesTo hres rfl rfl rfl)
    (Or.inl rfl) hhalt
  have hevs : w'.sim.trace.drop w.sim.trace.length = evs := by
    rw [htrace, show v.sim.trace = w.sim.trace from hres.trace, List.drop_left]
  have hturns : turnsTaken evs w' = stepsFor w w' := by
    rw [stepsFor, executedCount, hevs, turnsTaken]
    split_ifs <;> rfl
  rw [← hturns, ← hharts]
  exact hlead

/-- `c` leads where the `s` packets lead, unless it takes none of them and the hart was halted. -/
theorem agreesWithSteps_iff {image : BitVec 16 → Byte} {input : List Byte}
    {packets : List (List Byte)} {w w' : EmuWorld}
    (hfrom : SessionFrom false (imageSession 1 image input) packets ⟨.waiting, w⟩)
    (hthread : w.dbg.continueThread = -1 ∨ w.dbg.continueThread = 1)
    (hstop : ContinueStops w w') :
    AgreesWithSteps w w' ↔ 0 < stepsFor w w' ∨ ¬(w.toTarget.hart 0).halted := by
  have hs := oneHart_of_sessionFrom hfrom (by simp)
  have hlead := harts_of_continue hs hstop
  constructor
  · -- `c` resumes a halted hart, which no steps at all do not
    rintro ⟨-, -, hharts, -⟩
    by_contra hno
    rw [not_or, not_lt, Nat.le_zero, not_not] at hno
    obtain ⟨hzero, hhalted⟩ := hno
    rw [hzero] at hharts hlead
    have hsame : w.sim.sys.harts = resumeHarts w.sim.sys.harts := hharts.trans hlead.1
    have hrunning := congrArg (fun harts => Rv32Cpu.halted (harts 0)) hsame
    simp only [resumeHarts, Function.update_self] at hrunning
    exact absurd (hhalted.symm.trans hrunning) (by simp)
  · intro hlive
    -- the first step resumes the hart as `c` does
    have hlead' : StepsLead w.dbg (stepsFor w w') w.sim.sys.harts w'.sim.sys.harts := by
      by_cases hpos : 0 < stepsFor w w'
      · exact hlead.of_resumeHarts hpos
      · have hhalt : ¬(w.sim.sys.harts 0).halted := hlive.resolve_left hpos
        rwa [resumeHarts_of_not_halted hhalt] at hlead
    have hafter : ∀ j ≤ stepsFor w w', _ := fun j hj =>
      harts_of_steps (hs.withInput (stepPackets (stepsFor w w'))) hthread rfl hj
    refine ⟨(hafter _ le_rfl).1, fun j hj => ?_, ?_, fun j hj => ?_⟩
    · obtain ⟨-, u, hu, -⟩ := hafter j hj
      rw [afterSteps, hu]
    · obtain ⟨-, u, hu, -, hharts⟩ := hafter _ le_rfl
      rw [afterSteps, hu]
      exact hharts.trans hlead'.1.symm
    · obtain ⟨-, u, hu, ⟨tid, hone⟩, hharts⟩ := hafter j (by omega)
      obtain ⟨-, u', hu', -, hharts'⟩ := hafter (j + 1) (by omega)
      obtain ⟨hbp, hrunning, hhalted⟩ := hlead'.2 j hj
      rw [afterSteps, hu, afterSteps, hu']
      have hnext : u'.sim.sys.harts =
          stepHarts w.dbg ((stepHarts w.dbg)^[j] w.sim.sys.harts) := by
        rw [hharts', Function.iterate_succ_apply']
        rfl
      refine ⟨?_, ?_, ?_⟩
      · show ¬u.dbg.breakpointAt (u.sim.sys.harts 0).pc
        rw [hone.breakpointAt, hharts]
        exact hbp
      · show (u'.sim.sys.harts 0).running
        rw [hnext]
        exact hrunning
      · show ¬(u'.sim.sys.harts 0).halted
        rw [hnext]
        exact hhalted

theorem eq_of_phase {s : Session} {phase : Phase} (h : s.phase = phase) : s = ⟨phase, s.world⟩ := by
  rw [← h]

/-- A session of the demo program that waits. -/
theorem sessionFrom_demo {s : Session} (es : List Event) (n : Nat) (input : List Byte)
    (hsteps : (loadedSession n input).steps false es)
    (hs : (loadedSession n input).after false es = s) (hwait : s.phase = .waiting) :
    ∃ packets, SessionFrom false (imageSession n ((initSystem n).harts 0).memory input) packets
      ⟨.waiting, s.world⟩ := by
  rw [imageSession_memory, initSession_eq, ← eq_of_phase hwait, ← hs]
  exact SessionFrom.refl.after hsteps

/-- `c` in a concrete world. -/
def continued (w : EmuWorld) : Session :=
  Session.next false ⟨.waiting, w.withInput (frame (ascii "c"))⟩ .quiet

theorem continueStops_of_runSteps {w : EmuWorld} {es : List Event}
    (hok : (sessionStep false .quiet ⟨.waiting, w.withInput (frame (ascii "c"))⟩).isOk)
    (hrun : (continued w).RunSteps false Undisturbed es)
    (hwait : ((continued w).after false es).phase = .waiting) :
    ContinueStops w ((continued w).after false es).world := by
  refine ⟨continued w, sessionStep_next hok, ?_⟩
  rw [← eq_of_phase hwait]
  exact resumeRun_after hrun

/-- One hart of the demo program, with a breakpoint at its second instruction. -/
def secondInstructionSession : Session :=
  (loadedSession 1 (frame (ascii "Z0,80000004,4"))).after false [.quiet]

/-- The hart continued up to the breakpoint. -/
def atSecondInstruction : Session := (continued secondInstructionSession.world).after false
  [.quiet, .quiet, .quiet, .quiet, .quiet]

theorem agreesWithSteps_secondInstructionSession :
    stepsFor secondInstructionSession.world atSecondInstruction.world = 2 ∧
      AgreesWithSteps secondInstructionSession.world atSecondInstruction.world := by
  have htwo : stepsFor secondInstructionSession.world atSecondInstruction.world = 2 := by
    decide +kernel
  obtain ⟨packets, hfrom⟩ := sessionFrom_demo [.quiet] 1 (frame (ascii "Z0,80000004,4"))
    (by decide +kernel) rfl (by decide +kernel : secondInstructionSession.phase = .waiting)
  have hstop : ContinueStops secondInstructionSession.world atSecondInstruction.world :=
    continueStops_of_runSteps (by decide +kernel)
      ⟨by decide +kernel, ⟨rfl, rfl⟩, by decide +kernel, by decide +kernel, ⟨rfl, rfl⟩,
        by decide +kernel, by decide +kernel, ⟨rfl, rfl⟩, by decide +kernel, by decide +kernel,
        ⟨rfl, rfl⟩, by decide +kernel, by decide +kernel, ⟨rfl, rfl⟩, by decide +kernel, trivial⟩
      (by decide +kernel)
  exact ⟨htwo, (agreesWithSteps_iff hfrom (Or.inl (by decide +kernel)) hstop).mpr
    (Or.inl (Nat.zero_lt_two.trans_eq htwo.symm))⟩

/-- One hart that has executed an illegal instruction, so that it does not run, and is then halted by
a Ctrl-C. -/
def haltedSession : Session :=
  (loadedSession 1 (frame (ascii "P20=00010080") ++ frame (ascii "s") ++ [0x03])).after false
    [.quiet, .quiet, .quiet, .quiet]

/-- `c` takes no step, but clears the flag. -/
theorem not_agreesWithSteps_haltedSession :
    (∃ packets, SessionFrom false (imageSession 1 ((initSystem 1).harts 0).memory
      (frame (ascii "P20=00010080") ++ frame (ascii "s") ++ [0x03])) packets
        ⟨.waiting, haltedSession.world⟩) ∧
      haltedSession.world.dbg.continueThread = 1 ∧
      ContinueStops haltedSession.world
        ((continued haltedSession.world).after false [.quiet]).world ∧
      ¬AgreesWithSteps haltedSession.world
        ((continued haltedSession.world).after false [.quiet]).world := by
  refine ⟨sessionFrom_demo [.quiet, .quiet, .quiet, .quiet] 1 _ (by decide +kernel) rfl
    (by decide +kernel), by decide +kernel, continueStops_of_runSteps (by decide +kernel)
      ⟨by decide +kernel, ⟨rfl, rfl⟩, by decide +kernel, trivial⟩ (by decide +kernel), ?_⟩
  rintro ⟨-, -, hharts, -⟩
  have hzero : stepsFor haltedSession.world
      ((continued haltedSession.world).after false [.quiet]).world = 0 := by decide +kernel
  rw [hzero] at hharts
  have hhalted := congrArg (fun harts => Rv32Cpu.halted (harts 0)) hharts
  have hdiff : ((afterSteps haltedSession.world 0 0).world.sim.sys.harts 0).halted ≠
      (((continued haltedSession.world).after false [.quiet]).world.sim.sys.harts 0).halted := by
    decide +kernel
  exact hdiff hhalted

end Rv32Gdb
