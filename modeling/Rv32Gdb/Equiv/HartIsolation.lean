import Rv32Gdb.Equiv.ContinueThread
import Rv32Gdb.Equiv.Decode

/-!
# One hart at a time

`onlyMemory_of_resumeRun`: a run with `continue_thread = N` for a worker's thread `N` leaves the
registers, pc, counter and flags of every other hart as they are (`OnlyMemory`), from the packet
that resumes the target on: only the hart of the thread gets a turn, and it starts no jobs.
-/

namespace Rv32Gdb

/-! ### The command -/

/-- A command that runs the target has changed the debug state and called `resume`. -/
theorem eq_resume_of_handleVcont {x : Xlen} {σ : Type} {cb : GdbCallbacks x σ} {w w' : World x σ}
    (h : handleVcont cb w = .ok (true, w')) : ∃ f, w' = (w.updDbg f).actOpt cb.resume := by
  have hsend : ∀ payload, (.ok (false, w.send payload) : Result (Bool × World x σ)) ≠
      .ok (true, w') := by
    intro payload he
    exact absurd (Prod.mk.inj (Except.ok.inj he)).1 Bool.false_ne_true
  unfold handleVcont at h
  simp only at h
  split_ifs at h
  · exact absurd h (hsend _)
  · exact absurd h (hsend _)
  · exact absurd h (hsend _)
  · obtain ⟨r, hloop, -⟩ := vcontLoop_eq_ok w.dbg
      (skipSemicolon (w.packetText.drop 5)) ⟨false, -1, -1, false⟩ le_rfl
    rw [hloop] at h
    cases r with
    | reply payload => exact absurd h (hsend _)
    | actions s =>
      simp only [bind, Except.bind] at h
      split at h
      · exact absurd h (hsend _)
      · obtain ⟨-, rfl⟩ := Prod.mk.inj (Except.ok.inj h)
        exact ⟨_, rfl⟩

/-- If the target is to run, the debug state has changed and `resume` has been called. -/
def OnlyResumes {x : Xlen} {σ : Type} (cb : GdbCallbacks x σ) (w : World x σ)
    (r : Result (Int × World x σ)) : Prop :=
  ∀ w', r = .ok (1, w') → ∃ f, w' = (w.updDbg f).actOpt cb.resume

theorem onlyResumes_dispatch {x : Xlen} {σ : Type} (fuel : Nat) (cb : GdbCallbacks x σ)
    (w : World x σ) : OnlyResumes cb w (dispatch fuel cb w) := by
  have hzero : ∀ r : Result (World x σ), OnlyResumes cb w (andReturnZero r) := by
    intro r w' he
    cases r with
    | error e => cases he
    | ok w₁ => exact absurd (Prod.mk.inj (Except.ok.inj he)).1 (by decide)
  have hret : ∀ {k : Int} {w₁ : World x σ}, k ≠ 1 → OnlyResumes cb w (.ok (k, w₁)) := by
    intro k w₁ hk w' he
    exact absurd (Prod.mk.inj (Except.ok.inj he)).1 hk
  have hrun : ∀ f, OnlyResumes cb w (.ok (1, (w.updDbg f).actOpt cb.resume)) := by
    intro f w' he
    exact ⟨f, (Prod.mk.inj (Except.ok.inj he)).2.symm⟩
  unfold dispatch
  extract_lets cmd
  repeat' apply iteInduction (motive := OnlyResumes cb w) <;> intro hcmd
  all_goals first
    | exact hzero _
    | exact hret (by decide)
    | exact hrun _
    | skip
  intro w' he
  cases hv : handleVcont cb w with
  | error e =>
    rw [hv] at he
    cases he
  | ok r =>
    obtain ⟨run, w₁⟩ := r
    rw [hv] at he
    obtain ⟨hone, rfl⟩ := Prod.mk.inj (Except.ok.inj he)
    cases run with
    | false => exact absurd hone (by decide)
    | true => exact eq_resume_of_handleVcont hv

/-! ### The other harts -/

/-- Of the harts other than `h` nothing changes but the RAM. -/
def OthersKept (h : Nat) (w w' : EmuWorld) : Prop :=
  ∀ k ≠ h, OnlyMemory (w.toTarget.hart k) (w'.toTarget.hart k)

namespace OthersKept

variable {h : Nat} {w w' w₁ w₂ w₃ : EmuWorld}

theorem of_eq (heq : ∀ k ≠ h, w'.toTarget.hart k = w.toTarget.hart k) : OthersKept h w w' := by
  intro k hk
  rw [heq k hk]
  exact .refl _

theorem of_harts (heq : w'.sim.sys.harts = w.sim.sys.harts) : OthersKept h w w' :=
  of_eq fun k _ => congrFun heq k

theorem trans (h₁ : OthersKept h w₁ w₂) (h₂ : OthersKept h w₂ w₃) : OthersKept h w₁ w₃ :=
  fun k hk => (h₁ k hk).trans (h₂ k hk)

theorem updDbg (w : EmuWorld) (f : DebugState .x32 → DebugState .x32) :
    OthersKept h w (w.updDbg f) :=
  of_harts rfl

/-- An instruction of a worker: it runs no jobs. -/
theorem cpuStep (w : EmuWorld) (hid : (w.toTarget.hart h).hartId ≠ 0) :
    OthersKept h w (w.cpuStep h) := by
  have hpost : ∀ m : Machine, (m.hart h).hartId ≠ 0 → ∀ pc,
      sysPostStep w.stub.connected m h pc = m := by
    intro m hm pc
    unfold sysPostStep
    split_ifs with hone hzero
    · rfl
    · exact absurd hzero.1 hm
    · rfl
  have hexec : ((rv32CpuStep w.stub.connected w.toTarget h).hart h).hartId ≠ 0 := by
    rwa [(execFrame_rv32CpuStep _ _ _).hartId]
  intro k hk
  have hstep : (w.cpuStep h).toTarget = rv32CpuStep w.stub.connected w.toTarget h :=
    hpost _ hexec _
  rw [hstep]
  exact hart_rv32CpuStep_of_ne _ _ hk

theorem handleHartStop (w : EmuWorld) (k : Nat) (signal : Int) :
    OthersKept h w (handleHartStop w k signal) := by
  refine of_harts ?_
  unfold Rv32Gdb.handleHartStop notifyStop
  simp only [sim_gdbStubSendStopReason]
  rfl

theorem stopsIdle {tid : Int} (hstop : StopsIdle w tid w') : OthersKept h w w' := by
  obtain ⟨u, signal, pc, hflag, rfl⟩ := hstop
  refine of_harts ?_
  rw [sim_gdbStubSendStopReason, World.sim_updDbg, hflag.sim]

/-- The harts of the threads that may not run stay halted. -/
theorem sysResumeRunnable (w : EmuWorld) (hcont : w.dbg.continueThread = sysThreadId h) :
    OthersKept h w (w.withTarget (sysResumeRunnable w.toTarget)) := by
  refine of_eq fun k hk => ?_
  have hskip : ¬gdbStubShouldRunThread w.dbg (sysThreadId k) := by
    rw [gdbStubShouldRunThread_iff, hcont]
    unfold sysThreadId
    omega
  show (Rv32Gdb.sysResumeRunnable w.toTarget).hart k = _
  rw [hart_sysResumeRunnable_ite]
  split_ifs with hlt hnot
  · rfl
  · exact absurd (by simpa using hnot) hskip
  · rfl

end OthersKept

/-! ### Turns -/

theorem signaled_of_quiet {e : Event} (s : Session) (he : e.sigint = false) :
    s.signaled e = s.world := by
  rw [Session.signaled, he, if_neg (by simp)]

/-- Only the hart whose thread is continued gets a turn, and no other hart changes before it. -/
theorem of_begunTurn_continueThread {debugMode : Bool} {n h k : Nat} {e : Event} {s : Session}
    {v : EmuWorld} (hinv : SessionInv n s.world) (he : e.sigint = false)
    (hcont : s.world.dbg.continueThread = sysThreadId h)
    (hturn : s.begunTurn debugMode e = some (k, v)) : k = h ∧ OthersKept h s.world v := by
  have hsame : ∀ j, gdbStubShouldRunThread s.world.dbg (sysThreadId j) → j = h := by
    intro j hj
    rw [gdbStubShouldRunThread_iff, hcont] at hj
    unfold sysThreadId at hj
    omega
  unfold Session.begunTurn at hturn
  rw [signaled_of_quiet s he] at hturn
  simp only at hturn
  split at hturn
  · rw [hinv.hartId _ hinv.focusHart_lt] at hturn
    split_ifs at hturn with hrun hdebug
    · obtain ⟨rfl, rfl⟩ := Prod.mk.inj (Option.some.inj hturn)
      have hfocus := hsame _ (by simpa using hrun)
      refine ⟨hfocus, OthersKept.of_eq fun j hj => ?_⟩
      obtain ⟨b, hb⟩ := hart_checkAccess .load s.world.stub.connected s.world.toTarget
        s.world.sim.sys.focusHart (s.world.toTarget.hart s.world.sim.sys.focusHart).pc 4
      exact (hb j).trans (if_neg (hfocus ▸ hj))
    · obtain ⟨rfl, rfl⟩ := Prod.mk.inj (Option.some.inj hturn)
      exact ⟨hsame _ (by simpa using hrun), OthersKept.of_harts rfl⟩
  · split_ifs at hturn with hgo
    obtain ⟨rfl, rfl⟩ := Prod.mk.inj (Option.some.inj hturn)
    refine ⟨hsame _ ?_, OthersKept.of_harts rfl⟩
    have hshould := hgo.2.1
    unfold shouldStepHart at hshould
    split_ifs at hshould with hrun
    all_goals simpa using hrun
  · cases hturn

/-- A step of a run of one worker. -/
theorem othersKept_of_runStep {debugMode : Bool} {n h : Nat} {e : Event} {s s' : Session}
    (hinv : SessionInv n s.world) (hpos : h ≠ 0) (hh : h < n) (he : e.sigint = false)
    (hcont : s.world.dbg.continueThread = sysThreadId h) (hrun : s.Running)
    (hstep : sessionStep debugMode e s = .ok s') : OthersKept h s.world s'.world := by
  cases hturn : s.begunTurn debugMode e with
  | none =>
    rcases runStep_without_turn hrun hturn hstep with ⟨-, hworld⟩ | ⟨-, tid, -, hstop⟩
    · rw [hworld, signaled_of_quiet s he]
      exact .of_harts rfl
    · rw [signaled_of_quiet s he] at hstop
      exact .stopsIdle hstop
  | some turn =>
    obtain ⟨k, v⟩ := turn
    obtain ⟨rfl, hbefore⟩ := of_begunTurn_continueThread hinv he hcont hturn
    have hid : (v.toTarget.hart k).hartId ≠ 0 := by
      rwa [(prelude_of_begunTurn hturn).runFrame.hartId, hinv.hartId k hh]
    have hcases := runStep_of_begunTurn hturn hstep
    split_ifs at hcases with hbp
    · rw [hcases]
      exact hbefore.trans ((OthersKept.updDbg v _).trans (.handleHartStop _ _ _))
    · have hexec := hbefore.trans (OthersKept.cpuStep v hid)
      rcases hcases with ⟨singleStep, signal, -, rfl⟩ | ⟨rfl, -⟩
      · exact hexec.trans ((OthersKept.updDbg _ _).trans (.handleHartStop _ _ _))
      · exact hexec

theorem othersKept_of_resumeRun {debugMode : Bool} {n h : Nat} {s s' : Session}
    (hinv : SessionInv n s.world) (hpos : h ≠ 0) (hh : h < n)
    (hcont : s.world.dbg.continueThread = sysThreadId h)
    (hrun : ResumeRun debugMode (fun e _ => e.sigint = false) s s') :
    OthersKept h s.world s'.world := by
  induction hrun with
  | refl => exact .of_harts rfl
  | tail hrun hstep ih =>
    obtain ⟨hrunning, e, he, hstep⟩ := hstep
    obtain ⟨hinv', hcont'⟩ := continueThread_of_resumeRun hinv hrun
    exact ih.trans (othersKept_of_runStep hinv' hpos hh he (hcont'.trans hcont) hrunning hstep)

/-! ### From the packet on -/

/-- The packet that lets one worker run. -/
theorem othersKept_of_resumed {debugMode : Bool} {n h : Nat} {e : Event} {s s' : Session}
    (hinv : SessionInv n s.world) (hwait : s.phase = .waiting) (he : e.sigint = false)
    (hstep : sessionStep debugMode e s = .ok s') (hrun : s'.Running)
    (hcont : s'.world.dbg.continueThread = sysThreadId h) : OthersKept h s.world s'.world := by
  have hfail : s.world.stub.consecutiveFailures < 50 := by
    rw [hinv.consecutiveFailures]
    decide
  rcases step_of_waiting hwait hinv.connected hfail hstep with
    ⟨stub, -, rfl⟩ | ⟨stub, r, -, hdispatch, rfl⟩
  · exact absurd rfl hrun.2
  rw [signaled_of_quiet s he] at hdispatch
  rcases afterProcess_cases r with ⟨-, hafter⟩ | ⟨hone, hafter⟩ | ⟨-, -, hafter⟩
  · exact absurd (congrArg Session.phase hafter) hrun.2
  · have hr : dispatch e.fuel emuCallbacks { s.world with stub := stub } = .ok (1, r.2) := by
      rw [hdispatch, ← hone]
    obtain ⟨f, hf⟩ := onlyResumes_dispatch _ _ _ _ hr
    rw [hafter] at hcont ⊢
    have hcallback : OthersKept h ({ s.world with stub := stub }.updDbg f) r.2 := by
      rw [hf] at hcont ⊢
      exact .sysResumeRunnable _ hcont
    exact (OthersKept.trans (.of_harts rfl) hcallback).trans (.sysResumeRunnable r.2 hcont)
  · exact absurd (congrArg Session.phase hafter) hrun.1

/-- A continue or a step with `continue_thread = N`, for the thread `N` of a worker, leaves the
registers, the pc, the counter and the flags of every other hart as they are. -/
theorem onlyMemory_of_resumeRun {debugMode : Bool} {n N : Nat} {packets : List (List Byte)}
    {e : Event} {s₀ s₁ s : Session} (hn : validHartCount n) (hN : 2 ≤ N) (hNn : N ≤ n)
    (hrun₀ : SessionRun debugMode n packets s₀) (hwait : s₀.phase = .waiting)
    (he : e.sigint = false) (hstep : sessionStep debugMode e s₀ = .ok s₁) (hrunning : s₁.Running)
    (hcont : s₁.world.dbg.continueThread = N)
    (hrun : ResumeRun debugMode (fun e _ => e.sigint = false) s₁ s) (k : Nat) (hk : k ≠ N - 1) :
    OnlyMemory (s₀.world.toTarget.hart k) (s.world.toTarget.hart k) := by
  have hinv₀ := sessionInv_of_sessionRun hn hrun₀ (by simp [hwait])
  have hinv₁ := sessionInv_of_sessionRun hn (hrun₀.step e hstep) hrunning.2
  have hthread : s₁.world.dbg.continueThread = sysThreadId (N - 1) := by
    rw [hcont, sysThreadId]
    omega
  have hresumed := othersKept_of_resumed hinv₀ hwait he hstep hrunning hthread
  have hran := othersKept_of_resumeRun hinv₁ (by omega) (by omega) hthread hrun
  exact (hresumed.trans hran) k hk

/-- Two harts, of which the second one is continued. -/
def isolatedSession : Session := loadedSession 2 (frame (ascii "vCont;c:2"))

theorem onlyMemory_isolatedSession :
    OnlyMemory (isolatedSession.world.toTarget.hart 0)
      (((isolatedSession.next false .quiet).after false
        [.quiet, .quiet, .quiet, .quiet]).world.toTarget.hart 0) := by
  have hrun : ResumeRun false (fun e _ => e.sigint = false) (isolatedSession.next false .quiet)
      ((isolatedSession.next false .quiet).after false [.quiet, .quiet, .quiet, .quiet]) :=
    resumeRun_after ⟨by decide +kernel, rfl, by decide +kernel, by decide +kernel, rfl,
      by decide +kernel, by decide +kernel, rfl, by decide +kernel, by decide +kernel, rfl,
      by decide +kernel, trivial⟩
  exact @onlyMemory_of_resumeRun false 2 2 [] .quiet _ _ _ (by decide) le_rfl le_rfl
    (sessionRun_loadedSession _ _ _) rfl rfl (sessionStep_next (by decide +kernel))
    (by decide +kernel) (by decide +kernel) hrun 0 (by decide)

end Rv32Gdb
