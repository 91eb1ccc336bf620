import Rv32Gdb.Equiv.Turn
import Rv32Gdb.Equiv.Invariant

/-!
# Invariants of the debug session

`RunInvariant P` and `SessionInvariant P` collect what keeps a property `P` of the program while
the target runs and in a whole session; `RunInvariant.step` and `SessionInvariant.step` are the
step lemmas.  The main result is `sessionInv_of_sessionRun`: in every session that has not ended,
the client is connected, the focus hart exists, and every hart has its own number.
-/

namespace Rv32Gdb

/-- What the stub keeps of its connection. -/
structure StubFrame (s s' : GdbStub) : Prop where
  connected : s'.connected = s.connected
  consecutiveFailures : s.consecutiveFailures = 0 → s'.consecutiveFailures = 0

theorem StubFrame.sendPacket (s : GdbStub) (data : List Byte) :
    StubFrame s (sendPacket s data) := by
  unfold Rv32Gdb.sendPacket
  split_ifs
  · exact ⟨rfl, id⟩
  · exact ⟨rfl, id⟩

/-! ### While the target runs -/

/-- What keeps `P` while the target runs. -/
structure RunInvariant (P : EmuWorld → Prop) : Prop where
  focusHart_lt : ∀ w, P w → w.sim.sys.focusHart < w.sim.sys.numHarts
  stub : ∀ w s, StubFrame w.stub s → P w → P { w with stub := s }
  frame : ∀ w m, RunFrame w.toTarget m → P w → P (w.withTarget m)
  focus : ∀ w h, h < w.sim.sys.numHarts → P w →
    P (w.withTarget (w.toTarget.updSys fun s => { s with focusHart := (s.harts h).hartId }))

namespace RunInvariant

variable {P : EmuWorld → Prop} (hP : RunInvariant P)

include hP

theorem quietFrame {w v : EmuWorld} (hframe : QuietFrame w v) (h : P w) : P v := by
  obtain ⟨target, stub⟩ := v
  obtain rfl : stub = w.stub := hframe.stub
  exact hP.frame w target hframe.runFrame h

theorem updDbg {w : EmuWorld} {f : DebugState .x32 → DebugState .x32} (h : P w)
    (hthread : (f w.dbg).currentThread = w.dbg.currentThread)
    (hbreakpoints : (f w.dbg).breakpoints = w.dbg.breakpoints)
    (hwatchpoints : (f w.dbg).watchpoints = w.dbg.watchpoints)
    (hcontinue : (f w.dbg).continueThread = w.dbg.continueThread) : P (w.updDbg f) :=
  hP.quietFrame (QuietFrame.updDbg w hthread hbreakpoints hwatchpoints hcontinue) h

theorem send {w : EmuWorld} (data : List Byte) (h : P w) : P (w.send data) :=
  hP.stub w _ (StubFrame.sendPacket _ _) h

theorem sendStopReason {w : EmuWorld} (signal : Int) (addr : Word) (h : P w) :
    P (gdbStubSendStopReason w signal addr) := by
  unfold gdbStubSendStopReason
  simp only
  split_ifs
  · exact hP.send _ (hP.updDbg h rfl rfl rfl rfl)
  · exact hP.send _ (hP.updDbg h rfl rfl rfl rfl)
  · exact hP.send _ h
  · exact hP.send _ h

theorem handleHartStop {w : EmuWorld} {h : Nat} (signal : Int) (hw : P w)
    (hh : h < w.sim.sys.numHarts) : P (handleHartStop w h signal) := by
  have hstop := hP.frame _ _ (RunFrame.updSys _
    (f := fun s => { s with stopHart := (w.toTarget.hart h).hartId }) rfl rfl fun _ => rfl)
    (hP.focus w h hh hw)
  have hflag := hP.updDbg (f := fun d => { d with shouldStop := true }) hstop rfl rfl rfl rfl
  exact hP.sendStopReason _ _ (hP.quietFrame (QuietFrame.setStopThread _ _) hflag)

theorem cpuStep {w : EmuWorld} (h : Nat) (hw : P w) : P (w.cpuStep h) :=
  hP.frame w _ (execFrame_sysCpuStep _ _ _).1.runFrame hw

/-- What a step does before a hart executes. -/
theorem of_prelude {w v : EmuWorld} {events : List HartEvent} (hpre : Prelude w v events)
    (h : P w) : P v := by
  obtain ⟨target, stub⟩ := v
  obtain rfl : stub = w.stub := hpre.stub
  exact hP.frame w target hpre.runFrame h

/-- A step of a running target keeps `P`. -/
theorem step {debugMode : Bool} {e : Event} {s s' : Session} (hrun : s.Running) (h : P s.world)
    (hstep : sessionStep debugMode e s = .ok s') : P s'.world := by
  cases hturn : s.begunTurn debugMode e with
  | none =>
    rcases runStep_of_begunTurn_eq_none hrun hturn hstep with ⟨-, hworld⟩ | ⟨-, hstop⟩
    · rw [hworld]
      exact hP.of_prelude (Prelude.signaled s e) h
    · obtain ⟨v, signal, pc, hquiet, hworld⟩ := hstop
      rw [hworld]
      exact hP.sendStopReason _ _ (hP.quietFrame hquiet h)
  | some turn =>
    obtain ⟨k, v⟩ := turn
    have hpre := prelude_of_begunTurn hturn
    have hk := lt_numHarts_of_begunTurn hturn (hP.focusHart_lt _ h)
    have hv := hP.of_prelude hpre h
    have hcases := runStep_of_begunTurn hturn hstep
    rw [← hpre.numHarts] at hk
    split_ifs at hcases with hbp
    · rw [hcases]
      exact hP.handleHartStop _ (hP.updDbg hv rfl rfl rfl rfl) hk
    · have hcpu := hP.cpuStep k hv
      have hk' : k < (v.cpuStep k).sim.sys.numHarts :=
        hk.trans_eq (execFrame_sysCpuStep _ _ _).1.numHarts.symm
      rcases hcases with ⟨singleStep, signal, -, rfl⟩ | ⟨rfl, -⟩
      · exact hP.handleHartStop _ (hP.updDbg hcpu rfl rfl rfl rfl) hk'
      · exact hcpu

end RunInvariant

/-! ### Receiving a packet -/

/-- Storing a byte of the packet does not touch the connection. -/
theorem StubFrame.of_poke {s s' : GdbStub} {i : Nat} {b : Byte}
    {f : GdbStub → Result (Bool × GdbStub)} (h : (s.poke i b >>= f) = .ok (true, s'))
    (hf : ∀ s₁, f s₁ = .ok (true, s') → StubFrame s₁ s') : StubFrame s s' := by
  unfold GdbStub.poke at h
  split_ifs at h
  · have hs := hf _ h
    exact ⟨hs.connected, hs.consecutiveFailures⟩
  · cases h

/-- A received packet leaves the connection as it is and clears the failures. -/
theorem receiveLoop_frame (input : List Byte) (s : GdbStub) (st : RecvState) {s' : GdbStub}
    (h : receiveLoop s st input = .ok (true, s')) : StubFrame s s' := by
  induction input generalizing s st with
  | nil => cases st <;> cases h
  | cons c rest ih =>
    cases st with
    | waitStart =>
      rw [receiveLoop] at h
      split_ifs at h
      · exact ih s _ h
      · rw [s.poke_of_lt _ (by decide)] at h
        obtain ⟨-, rfl⟩ := Prod.mk.inj (Except.ok.inj h)
        exact ⟨rfl, id⟩
      · exact ih s _ h
    | readData index =>
      rw [receiveLoop] at h
      split_ifs at h with hc hroom
      · exact StubFrame.of_poke h fun s₁ h₁ => by
          have hs := ih _ _ h₁
          exact ⟨hs.connected, hs.consecutiveFailures⟩
      · exact StubFrame.of_poke h fun s₁ h₁ => ih s₁ _ h₁
      · exact ih s _ h
    | readChecksum index expected received =>
      simp only [receiveLoop] at h
      split_ifs at h
      · cases h
      · cases h
      · obtain ⟨-, rfl⟩ := Prod.mk.inj (Except.ok.inj h)
        exact ⟨rfl, fun _ => rfl⟩
      · obtain ⟨-, rfl⟩ := Prod.mk.inj (Except.ok.inj h)
        exact ⟨rfl, fun _ => rfl⟩
      · exact ih s _ h

/-! ### Whole sessions -/

/-- A session that has ended goes no further. -/
theorem phase_ne_ended_of_step {debugMode : Bool} {e : Event} {s s' : Session}
    (hstep : sessionStep debugMode e s = .ok s') (hended : s'.phase ≠ .ended) :
    s.phase ≠ .ended := by
  intro hend
  rw [sessionStep, hend] at hstep
  obtain rfl := Except.ok.inj hstep
  exact hended rfl

/-- The main loop after a packet: the end, the start of a run, or the next packet. -/
theorem afterProcess_cases (r : Int × EmuWorld) :
    (r.1 < 0 ∧ afterProcess r = ⟨.ended, r.2⟩) ∨
      (r.1 = 1 ∧ afterProcess r = ⟨if r.2.dbg.singleStep then .stepping else .loopHead,
        r.2.withTarget (sysResumeRunnable r.2.toTarget)⟩) ∨
      (0 ≤ r.1 ∧ r.1 ≠ 1 ∧ afterProcess r = ⟨.waiting, r.2⟩) := by
  by_cases hneg : r.1 < 0
  · exact Or.inl ⟨hneg, by rw [afterProcess, if_pos hneg]⟩
  by_cases hone : r.1 = 1
  · refine Or.inr (Or.inl ⟨hone, ?_⟩)
    rw [afterProcess, if_neg hneg, if_pos hone]
    show (if r.2.dbg.singleStep then _ else _) = _
    split_ifs <;> rfl
  · exact Or.inr (Or.inr ⟨not_lt.mp hneg, hone, by rw [afterProcess, if_neg hneg, if_neg hone]⟩)

/-- What keeps `P` in a command that selects no hart. -/
structure CommandInvariant (P : EmuWorld → Prop) : Prop where
  stub : ∀ w s, StubFrame w.stub s → P w → P { w with stub := s }
  frame : ∀ w m, SelectFrame w.toTarget m → P w → P (w.withTarget m)

namespace CommandInvariant

variable {P : EmuWorld → Prop} (hP : CommandInvariant P)

include hP

/-- The handlers of the emulator. -/
theorem handlerInvariant : HandlerInvariant emuCallbacks P where
  send w data h := hP.stub w _ (StubFrame.sendPacket _ _) h
  setBuffer w buf h := hP.stub w _ ⟨rfl, id⟩ h
  updDbg w f hthread h := hP.frame w _ ⟨hthread, rfl, rfl, fun _ => rfl⟩ h
  noAckMode w h := hP.stub w _ ⟨rfl, id⟩ h
  readReg _ _ h := h
  writeReg w i v h := by
    refine hP.frame w _ (HartFrame.updHart w.toTarget _ ?_ ?_).execFrame.runFrame.toSelectFrame h
    · split_ifs
      · exact (hartId_rv32CpuWriteReg _ _ _).1
      · rfl
      · rfl
    · intro hhalted
      split_ifs
      · rwa [(hartId_rv32CpuWriteReg _ _ _).2]
      · exact hhalted
      · exact hhalted
  readMem w a n h := hP.frame w _ (execFrame_sysReadMem _ _ _ _).runFrame.toSelectFrame h
  writeMem w a v n h := hP.frame w _ (execFrame_sysWriteMem _ _ _ _ _ _).runFrame.toSelectFrame h
  getPc _ h := h
  setPc w pc h :=
    hP.frame w _ (HartFrame.updHart w.toTarget _ rfl id).execFrame.runFrame.toSelectFrame h
  resume w h := hP.frame w _ (runFrame_sysResumeRunnable _).toSelectFrame h
  getNumHarts _ _ h := h
  haltCpus w h := hP.frame w _ (runFrame_sysHaltAll _).toSelectFrame h

theorem of_prelude {w v : EmuWorld} {events : List HartEvent} (hpre : Prelude w v events)
    (h : P w) : P v := by
  obtain ⟨target, stub⟩ := v
  obtain rfl : stub = w.stub := hpre.stub
  exact hP.frame w target hpre.runFrame.toSelectFrame h

theorem process {w : EmuWorld} (fuel : Nat) (h : P w)
    (hselect : ∀ stub, receivePacket w.stub = .ok (true, stub) →
      P { w with stub := stub } →
      (byteAt stub.packetBuffer 0 = chr 'H' →
        P (handleSetThread emuCallbacks { w with stub := stub })) ∧
      (byteAt stub.packetBuffer 0 = chr 'R' →
        P (handleReset emuCallbacks { w with stub := stub }))) :
    KeepsIfConnected P (gdbStubProcess fuel emuCallbacks w) := by
  have hend : ∀ w', KeepsIfConnected P (.ok (-1, w')) := by
    intro w' n w'' he hn
    obtain ⟨rfl, -⟩ := Prod.mk.inj (Except.ok.inj he)
    exact absurd hn (by decide)
  obtain ⟨received, stub, hrecv, -⟩ := receivePacket_cases w.stub
  unfold gdbStubProcess
  rw [hrecv]
  split_ifs
  · exact hend _
  · exact hend _
  · cases received with
    | false => exact hend _
    | true =>
      have hstub := hP.stub w stub (receiveLoop_frame _ _ _ hrecv) h
      have hsel := hselect stub hrecv hstub
      exact hP.handlerInvariant.dispatch fuel hstub hsel.1 hsel.2

/-- A packet keeps `P`, if those that select a hart do. -/
theorem step {debugMode : Bool} {e : Event} {s s' : Session} (hwait : s.phase = .waiting)
    (h : P s.world) (hstep : sessionStep debugMode e s = .ok s') (hended : s'.phase ≠ .ended)
    (hselect : ∀ w : EmuWorld, receivePacket s.world.stub = .ok (true, w.stub) → P w →
      (byteAt w.stub.packetBuffer 0 = chr 'H' → P (handleSetThread emuCallbacks w)) ∧
      (byteAt w.stub.packetBuffer 0 = chr 'R' → P (handleReset emuCallbacks w))) :
    P s'.world := by
  have hpre := Prelude.signaled s e
  rw [sessionStep, hwait, phaseStep] at hstep
  split_ifs at hstep with hconn
  · obtain rfl := Except.ok.inj hstep
    exact absurd rfl hended
  · have hprocess := hP.process e.fuel (hP.of_prelude hpre h) fun stub hrecv hstub => by
      rw [hpre.stub] at hrecv
      exact hselect _ hrecv hstub
    cases hret : gdbStubProcess e.fuel emuCallbacks (s.signaled e) with
    | error err =>
      rw [hret] at hstep
      cases hstep
    | ok r =>
      rw [hret] at hstep
      obtain rfl := Except.ok.inj hstep
      rcases afterProcess_cases r with ⟨-, hafter⟩ | ⟨hone, hafter⟩ | ⟨hpos, -, hafter⟩
      · rw [hafter] at hended
        exact absurd rfl hended
      · rw [hafter]
        exact hP.frame _ _ (runFrame_sysResumeRunnable _).toSelectFrame
          (hprocess r.1 r.2 hret (by omega))
      · rw [hafter]
        exact hprocess r.1 r.2 hret hpos

end CommandInvariant

/-- What keeps `P` in a session, but for the packets that select a hart. -/
structure SessionInvariant (P : EmuWorld → Prop) : Prop where
  focusHart_lt : ∀ w, P w → w.sim.sys.focusHart < w.sim.sys.numHarts
  stub : ∀ w s, StubFrame w.stub s → P w → P { w with stub := s }
  frame : ∀ w m, SelectFrame w.toTarget m → P w → P (w.withTarget m)
  focus : ∀ w h, h < w.sim.sys.numHarts → P w →
    P (w.withTarget (w.toTarget.updSys fun s => { s with focusHart := (s.harts h).hartId }))

namespace SessionInvariant

variable {P : EmuWorld → Prop} (hP : SessionInvariant P)

include hP

theorem runInvariant : RunInvariant P :=
  ⟨hP.focusHart_lt, hP.stub, fun w m hm => hP.frame w m hm.toSelectFrame, hP.focus⟩

theorem commandInvariant : CommandInvariant P := ⟨hP.stub, hP.frame⟩

/-- A step keeps `P` until the session ends. -/
theorem step {debugMode : Bool} {e : Event} {s s' : Session} (h : P s.world)
    (hstep : sessionStep debugMode e s = .ok s') (hended : s'.phase ≠ .ended)
    (hselect : s.phase = .waiting → ∀ w : EmuWorld,
      receivePacket s.world.stub = .ok (true, w.stub) → P w →
      (byteAt w.stub.packetBuffer 0 = chr 'H' → P (handleSetThread emuCallbacks w)) ∧
      (byteAt w.stub.packetBuffer 0 = chr 'R' → P (handleReset emuCallbacks w))) :
    P s'.world := by
  by_cases hwait : s.phase = .waiting
  · exact hP.commandInvariant.step hwait h hstep hended (hselect hwait)
  · exact hP.runInvariant.step ⟨hwait, phase_ne_ended_of_step hstep hended⟩ h hstep

end SessionInvariant

/-! ### Reachable sessions -/

/-- A session with `n` harts that has not ended. -/
structure SessionInv (n : Nat) (w : EmuWorld) : Prop where
  connected : w.stub.connected
  consecutiveFailures : w.stub.consecutiveFailures = 0
  numHarts : w.sim.sys.numHarts = n
  focusHart_lt : w.sim.sys.focusHart < n
  hartId : ∀ h < n, (w.toTarget.hart h).hartId = h

theorem sessionInvariant_sessionInv (n : Nat) : SessionInvariant (SessionInv n) where
  focusHart_lt w h := h.numHarts ▸ h.focusHart_lt
  stub w s hs h :=
    ⟨hs.connected.trans h.connected, hs.consecutiveFailures h.consecutiveFailures, h.numHarts,
      h.focusHart_lt, h.hartId⟩
  frame w m hm h :=
    ⟨h.connected, h.consecutiveFailures, hm.numHarts.trans h.numHarts,
      hm.focusHart.trans_lt h.focusHart_lt, fun k hk => (hm.hartId k).trans (h.hartId k hk)⟩
  focus w k hk h := by
    rw [h.numHarts] at hk
    exact ⟨h.connected, h.consecutiveFailures, h.numHarts, (h.hartId k hk).trans_lt hk, h.hartId⟩

theorem snd_selectedThread (w : EmuWorld) (tid : Int) :
    (selectedThread emuCallbacks w tid).2 = w := by
  unfold selectedThread
  simp only
  split_ifs <;> rfl

theorem SysFrame.smpSyncRamInit (s : Rv32System) : SysFrame s (smpSyncRamInit s) := by
  have hfold : ∀ (l : List Nat) (s : Rv32System),
      SysFrame s (l.foldl (fun s h => Rv32Gdb.ramWrite32 s (ipiPending h) 0) s) := by
    intro l
    induction l with
    | nil => exact SysFrame.refl
    | cons h l ih => exact fun s => (SysFrame.ramWrite32 s _ _).trans (ih _)
  unfold Rv32Gdb.smpSyncRamInit
  exact ((((SysFrame.ramWrite32 _ _ _).trans (SysFrame.ramWrite32 _ _ _)).trans
    (SysFrame.ramWrite32 _ _ _)).trans (SysFrame.ramWrite32 _ _ _)).trans
    ((SysFrame.ramWrite32 _ _ _).trans (hfold _ _))

theorem hartId_resetHart (h : Nat) (c : Rv32Cpu) : (resetHart h c).hartId = c.hartId := by
  unfold resetHart
  simp only
  split_ifs <;> rfl

theorem gdbReset_eq (m : Machine) :
    ∃ s : Rv32System,
      gdbReset m = m.updSys (fun _ => { s with focusHart := 0, stopHart := -1 }) ∧
      s.numHarts = m.sys.numHarts ∧ ∀ k, (s.harts k).hartId = (m.hart k).hartId := by
  have hram := SysFrame.smpSyncRamInit (m.sys.forHarts resetHart)
  refine ⟨smpSyncRamInit (m.sys.forHarts resetHart), ?_, ?_, fun k => ?_⟩
  · simp only [gdbReset, Target.updSys, Target.sys]
  · rw [hram.numHarts, Rv32System.forHarts_eq]
  · rw [hram.hartId, hartId_forHarts _ hartId_resetHart, Target.hart]

theorem initSystem_frame (n : Nat) :
    (initSystem n).numHarts = n ∧ (initSystem n).focusHart = 0 ∧
      ∀ k < n, ((initSystem n).harts k).hartId = k := by
  unfold initSystem createTestProgram
  simp only
  generalize hs : ({ harts := initHart n, numHarts := n, focusHart := 0, stopHart := -1 } :
    Rv32System) = s
  have hload := SysFrame.updHart s 0 (f := fun c =>
    { c with memory := memcpyWords (memcpyWords c.memory 0 testProgram) 0x30 smpWorkerCode })
    rfl id
  have hram := hload.trans (SysFrame.smpSyncRamInit _)
  generalize smpSyncRamInit _ = r at hram ⊢
  refine ⟨?_, ?_, fun k hk => ?_⟩
  · rw [Rv32System.forHarts_eq, hram.numHarts, ← hs]
  · rw [Rv32System.forHarts_eq, hram.focusHart, ← hs]
  · rw [hartId_forHarts _ fun h c => by split_ifs <;> rfl, hram.hartId, ← hs]
    show (initHart n k).hartId = k
    rw [initHart, if_pos hk]

namespace SessionInv

variable {n : Nat} {w : EmuWorld}

theorem updDbg (h : SessionInv n w) (f : DebugState .x32 → DebugState .x32) :
    SessionInv n (w.updDbg f) :=
  ⟨h.connected, h.consecutiveFailures, h.numHarts, h.focusHart_lt, h.hartId⟩

theorem setFocusHart (h : SessionInv n w) (hart : Int) :
    SessionInv n (w.withTarget (gdbSetFocusHart w.toTarget hart)) := by
  by_cases hrange : 0 ≤ hart ∧ hart < w.sim.sys.numHarts
  · have hset : gdbSetFocusHart w.toTarget hart =
        w.toTarget.updSys fun s => { s with focusHart := hart.toNat } := by
      simp only [gdbSetFocusHart, Target.updSys, if_pos hrange]
    have hnum := h.numHarts
    have hlt : hart.toNat < n := by omega
    rw [hset]
    exact ⟨h.connected, h.consecutiveFailures, h.numHarts, hlt, h.hartId⟩
  · have hset : gdbSetFocusHart w.toTarget hart = w.toTarget := by
      simp only [gdbSetFocusHart, Target.updSys, if_neg hrange]
    rw [hset]
    exact h

theorem handleSetThread (h : SessionInv n w) : SessionInv n (handleSetThread emuCallbacks w) := by
  have hP := (sessionInvariant_sessionInv n).commandInvariant.handlerInvariant
  unfold Rv32Gdb.handleSetThread
  simp only [snd_selectedThread]
  split_ifs
  · exact hP.send _ _ h
  · exact hP.send _ _ h
  · exact hP.send _ _ h
  · exact hP.send _ _ ((h.updDbg _).setFocusHart _)
  · exact hP.send _ _ (h.updDbg _)
  · exact hP.send _ _ (h.updDbg _)

theorem handleReset (h : SessionInv n w) : SessionInv n (handleReset emuCallbacks w) := by
  have hP := (sessionInvariant_sessionInv n).commandInvariant.handlerInvariant
  obtain ⟨s, hs, hnum, hid⟩ := gdbReset_eq w.toTarget
  have hreset : SessionInv n (w.withTarget (gdbReset w.toTarget)) := by
    rw [hs]
    exact ⟨h.connected, h.consecutiveFailures, hnum.trans h.numHarts,
      (Nat.zero_le _).trans_lt h.focusHart_lt, fun k hk => (hid k).trans (h.hartId k hk)⟩
  exact hP.send _ _ ((hreset.updDbg _).updDbg _)

end SessionInv

theorem sessionInv_initSession {n : Nat} (hn : 0 < n) (input : List Byte) :
    SessionInv n (initSession n input).world := by
  obtain ⟨hnum, hfocus, hid⟩ := initSystem_frame n
  exact ⟨rfl, rfl, hnum, hfocus.trans_lt hn, hid⟩

/-- Every session that has not ended satisfies the invariant. -/
theorem sessionInv_of_sessionRun {debugMode : Bool} {n : Nat} {packets : List (List Byte)}
    {s : Session} (hn : validHartCount n) (hrun : SessionRun debugMode n packets s)
    (hended : s.phase ≠ .ended) : SessionInv n s.world := by
  induction hrun with
  | init input =>
    refine sessionInv_initSession (Nat.pos_of_ne_zero ?_) input
    rintro rfl
    exact absurd hn (by decide)
  | @step packets s s' e hrun hstep ih =>
    exact (sessionInvariant_sessionInv n).step (ih (phase_ne_ended_of_step hstep hended)) hstep
      hended fun _ w _ hw => ⟨fun _ => hw.handleSetThread, fun _ => hw.handleReset⟩

/-! ### Continuations -/

/-- The sessions that `s₀` goes on to, each with the packets handled since. -/
inductive SessionFrom (debugMode : Bool) (s₀ : Session) : List (List Byte) → Session → Prop
  | refl : SessionFrom debugMode s₀ [] s₀
  | step {packets : List (List Byte)} {s s' : Session} (e : Event)
      (hrun : SessionFrom debugMode s₀ packets s) (hstep : sessionStep debugMode e s = .ok s') :
      SessionFrom debugMode s₀ (packets ++ s.handled) s'

theorem SessionFrom.phase_ne_ended {debugMode : Bool} {packets : List (List Byte)}
    {s₀ s : Session} (h : SessionFrom debugMode s₀ packets s) (hended : s.phase ≠ .ended) :
    s₀.phase ≠ .ended := by
  induction h with
  | refl => exact hended
  | step e _ hstep ih => exact ih (phase_ne_ended_of_step hstep hended)

theorem SessionRun.trans {debugMode : Bool} {n : Nat} {packets packets' : List (List Byte)}
    {s s' : Session} (h : SessionRun debugMode n packets s)
    (h' : SessionFrom debugMode s packets' s') :
    SessionRun debugMode n (packets ++ packets') s' := by
  induction h' with
  | refl => rwa [List.append_nil]
  | step e _ hstep ih =>
    rw [← List.append_assoc]
    exact ih.step e hstep

/-- The packet that is received is the one that is handled. -/
theorem packet_mem_handled {s : Session} {stub : GdbStub} (hwait : s.phase = .waiting)
    (hrecv : receivePacket s.world.stub = .ok (true, stub)) : stub.packet ∈ s.handled := by
  rw [Session.handled, hwait]
  show stub.packet ∈ s.world.stub.nextPacket.toList
  rw [nextPacket_eq hrecv]
  exact List.mem_singleton_self _

/-- A step in which `main` waits for a packet, of a session that has not ended: no packet is
received and the session ends, or the packet is dispatched. -/
theorem step_of_waiting {debugMode : Bool} {e : Event} {s s' : Session}
    (hwait : s.phase = .waiting) (hconn : s.world.stub.connected)
    (hfail : s.world.stub.consecutiveFailures < 50) (hstep : sessionStep debugMode e s = .ok s') :
    (∃ stub, receivePacket s.world.stub = .ok (false, stub) ∧
      s' = ⟨.ended, { s.signaled e with stub := stub }⟩) ∨
    ∃ stub r, receivePacket s.world.stub = .ok (true, stub) ∧
      dispatch e.fuel emuCallbacks { s.signaled e with stub := stub } = .ok r ∧
      s' = afterProcess r := by
  have hstub := (Prelude.signaled s e).stub
  obtain ⟨received, stub, hrecv, -⟩ := receivePacket_cases s.world.stub
  rw [sessionStep, hwait, phaseStep, hstub, hconn, if_neg (by simp), gdbStubProcess, hstub, hconn,
    if_neg (by simp), if_neg (by omega), hrecv] at hstep
  cases received with
  | false =>
    obtain rfl := Except.ok.inj hstep
    exact Or.inl ⟨stub, hrecv, rfl⟩
  | true =>
    refine Or.inr ⟨stub, ?_⟩
    cases hret : dispatch e.fuel emuCallbacks { s.signaled e with stub := stub } with
    | error err =>
      have herr : (dispatch e.fuel emuCallbacks { s.signaled e with stub := stub } >>=
          fun r => Except.ok (afterProcess r)) = .ok s' := hstep
      rw [hret] at herr
      cases herr
    | ok r =>
      have hok : (dispatch e.fuel emuCallbacks { s.signaled e with stub := stub } >>=
          fun r => Except.ok (afterProcess r)) = .ok s' := hstep
      rw [hret] at hok
      exact ⟨r, hrecv, rfl, (Except.ok.inj hok).symm⟩

end Rv32Gdb
