import Rv32Gdb.Equiv.Execution
import Rv32Gdb.Equiv.Harts

/-!
# What every reachable session satisfies

`MachineInv n` bounds the hart and thread numbers of the emulator and the stub, and `StubBounds`
the counters of the connection.  The main result is `sessionBounds_of_sessionFrom`: they hold in
every session that a program with `n` harts reaches, whatever its RAM contains and the client sends.
-/

namespace Rv32Gdb

/-! ### Threads -/

/-- The threads that the stub names are harts. -/
structure ThreadInv (n : Nat) (d : DebugState .x32) : Prop where
  currentThread_pos : 1 ≤ d.currentThread
  currentThread_le : d.currentThread ≤ n
  stopThread_nonneg : 0 ≤ d.stopThread
  stopThread_le : d.stopThread ≤ n

namespace ThreadInv

variable {n : Nat} {d d' : DebugState .x32}

theorem resumeFrame (h : ThreadInv n d) (hd : ResumeFrame d d') : ThreadInv n d' := by
  have hcurrent := hd.currentThread
  obtain ⟨hpos, hle, hnonneg, hstop⟩ := h
  refine ⟨by omega, by omega, ?_, ?_⟩
  · rcases hd.stopThread with hsame | hzero | hmax <;> omega
  · rcases hd.stopThread with hsame | hzero | hmax <;> omega

theorem of_eq (h : ThreadInv n d) (hcurrent : d'.currentThread = d.currentThread)
    (hstop : d'.stopThread = d.stopThread) : ThreadInv n d' :=
  h.resumeFrame ⟨hcurrent, Or.inl hstop⟩

theorem setStopThread (h : ThreadInv n d) {tid : Int} (hpos : 1 ≤ tid) (hle : tid ≤ n) :
    ThreadInv n (gdbStubSetStopThread d tid) := by
  rw [gdbStubSetStopThread, if_pos hpos]
  refine ⟨h.currentThread_pos, h.currentThread_le, ?_, hle⟩
  show 0 ≤ tid
  omega

end ThreadInv

/-! ### The machine -/

/-- The invariant of the emulator and of the threads of the stub. -/
structure MachineInv (n : Nat) (m : Machine) : Prop where
  sys : SystemInv n m.sys
  threads : ThreadInv n m.dbg

namespace MachineInv

variable {n : Nat} {m : Machine}

/-- What executes instructions leaves the threads alone. -/
theorem of_execFrame (h : MachineInv n m) {m' : Machine} (hframe : ExecFrame m m')
    (hsys : SystemInv n m'.sys) : MachineInv n m' := by
  refine ⟨hsys, ?_⟩
  rw [hframe.dbg]
  exact h.threads.of_eq rfl rfl

theorem sysCpuStep (h : MachineInv n m) (connected : Bool) {k : Nat} (hk : k < n) :
    MachineInv n (sysCpuStep connected m k) :=
  h.of_execFrame (execFrame_sysCpuStep _ _ _).1 (h.sys.sysCpuStep connected hk)

/-- The thread of a hart. -/
theorem setStopThread (h : MachineInv n m) {k : Nat} (hk : k < n) :
    MachineInv n { m with dbg := gdbStubSetStopThread m.dbg (sysThreadId k) } := by
  refine ⟨h.sys, h.threads.setStopThread ?_ ?_⟩ <;> unfold sysThreadId <;> omega

/-- The commands other than `H` and `R`. -/
theorem commandSteps (n : Nat) : CommandSteps emuCallbacks fun w => MachineInv n w.toTarget where
  send w data h := by rwa [World.toTarget_send]
  setBuffer _ _ h := h
  updDbg w f hf h := ⟨h.sys, h.threads.resumeFrame hf.toResumeFrame⟩
  noAckMode _ h := h
  readReg _ _ h := h
  writeReg w i v h := ⟨h.sys.gdbWriteReg i v, h.threads⟩
  readMem w a k h := h.of_execFrame (execFrame_sysReadMem _ _ _ _) (h.sys.sysReadMem _ _ _)
  writeMem w a v k h :=
    h.of_execFrame (execFrame_sysWriteMem _ _ _ _ _ _) (h.sys.sysWriteMem _ h.sys.focusHart_lt _ _ _)
  getPc _ h := h
  setPc w pc h := ⟨h.sys.updHart _ fun _ hc => hc.setPc pc, h.threads⟩
  resume w h := ⟨h.sys.sysResumeRunnable, h.threads⟩
  getNumHarts _ _ h := h
  haltCpus w h := ⟨h.sys.sysHaltAll, h.threads⟩

/-- `H` selects a thread that exists, if any. -/
theorem handleSetThread {w : EmuWorld} (h : MachineInv n w.toTarget) :
    MachineInv n (handleSetThread emuCallbacks w).toTarget := by
  have hP := commandSteps n
  have hnum := h.sys.numHarts
  unfold Rv32Gdb.handleSetThread
  simp only [snd_selectedThread]
  generalize (selectedThread emuCallbacks _ _).1 = tid
  split_ifs with hop hpid hg hrange
  · exact hP.send _ _ h
  · exact hP.send _ _ h
  · exact hP.send _ _ h
  · rw [not_or, not_lt, not_lt] at hrange
    have hle : tid ≤ n := hnum ▸ hrange.2
    have hthreads : ThreadInv n { w.dbg with currentThread := tid } :=
      ⟨hrange.1, hle, h.threads.stopThread_nonneg, h.threads.stopThread_le⟩
    exact hP.send _ _ ⟨SystemInv.gdbSetFocusHart h.sys (tid - 1), hthreads⟩
  · exact hP.send _ _ ⟨h.sys, h.threads.of_eq rfl rfl⟩
  · exact hP.send _ _ ⟨h.sys, h.threads.of_eq rfl rfl⟩

/-- `R` selects the first thread. -/
theorem handleReset {w : EmuWorld} (h : MachineInv n w.toTarget) :
    MachineInv n (handleReset emuCallbacks w).toTarget := by
  have hpos : 0 < n := Nat.zero_lt_of_lt h.sys.focusHart_lt
  refine (commandSteps n).send _ _ ⟨h.sys.gdbReset, ⟨le_refl 1, ?_, le_refl 0, ?_⟩⟩
  · show (1 : Int) ≤ n
    omega
  · show (0 : Int) ≤ n
    omega

end MachineInv

/-- A command that disconnects does nothing else, but for the reply to `D`. -/
theorem dispatch_of_neg {x : Xlen} {σ : Type} {fuel : Nat} {cb : GdbCallbacks x σ} {w w' : World x σ}
    {r : Int} (hret : dispatch fuel cb w = .ok (r, w')) (hneg : r < 0) :
    w' = w ∨ w' = { w.send (ascii "OK") with
      stub := { (w.send (ascii "OK")).stub with connected := false } } := by
  rcases returnValue_dispatch fuel cb w r w' hret with rfl | ⟨rfl, -⟩ | ⟨-, hcmd | hcmd⟩
  · exact absurd hneg (by decide)
  · exact absurd hneg (by decide)
  · unfold dispatch at hret
    simp only [hcmd] at hret
    exact Or.inl (Prod.mk.inj (Except.ok.inj hret)).2.symm
  · unfold dispatch at hret
    simp only [hcmd] at hret
    exact Or.inr (Prod.mk.inj (Except.ok.inj hret)).2.symm

/-- A step in which the target does not run: nothing, or one call of `gdb_stub_process`. -/
theorem step_of_not_running {debugMode : Bool} {e : Event} {s s' : Session} (hrun : ¬s.Running)
    (hstep : sessionStep debugMode e s = .ok s') :
    s'.world = s.signaled e ∨ ∃ r, gdbStubProcess e.fuel emuCallbacks (s.signaled e) = .ok r ∧
      (s'.world = r.2 ∨ s'.world = r.2.withTarget (sysResumeRunnable r.2.toTarget)) := by
  unfold sessionStep at hstep
  by_cases hwait : s.phase = .waiting
  · rw [hwait, phaseStep] at hstep
    split_ifs at hstep
    · obtain rfl := Except.ok.inj hstep
      exact Or.inl rfl
    · cases hret : gdbStubProcess e.fuel emuCallbacks (s.signaled e) with
      | error err =>
        rw [hret] at hstep
        cases hstep
      | ok r =>
        rw [hret] at hstep
        obtain rfl := Except.ok.inj hstep
        refine Or.inr ⟨r, rfl, ?_⟩
        rcases afterProcess_cases r with ⟨-, hafter⟩ | ⟨-, hafter⟩ | ⟨-, -, hafter⟩
        · exact Or.inl (congrArg Session.world hafter)
        · exact Or.inr (congrArg Session.world hafter)
        · exact Or.inl (congrArg Session.world hafter)
  · have hended : s.phase = .ended := by
      by_contra hended
      exact hrun ⟨hwait, hended⟩
    rw [hended] at hstep
    obtain rfl := Except.ok.inj hstep
    exact Or.inl rfl

namespace MachineInv

variable {n : Nat}

theorem dispatch {fuel : Nat} {w : EmuWorld} {r : Int × EmuWorld} (h : MachineInv n w.toTarget)
    (hret : dispatch fuel emuCallbacks w = .ok r) : MachineInv n r.2.toTarget := by
  obtain ⟨v, w'⟩ := r
  by_cases hneg : v < 0
  · rcases dispatch_of_neg hret hneg with rfl | rfl
    · exact h
    · exact (commandSteps n).send w (ascii "OK") h
  · exact (commandSteps n).dispatch_of_resume fuel h (fun _ => h.handleSetThread)
      (fun _ => h.handleReset) (fun f hf => ⟨h.sys, h.threads.resumeFrame hf⟩) v w' hret
      (not_lt.mp hneg)

theorem gdbStubProcess {fuel : Nat} {w : EmuWorld} {r : Int × EmuWorld}
    (h : MachineInv n w.toTarget) (hret : gdbStubProcess fuel emuCallbacks w = .ok r) :
    MachineInv n r.2.toTarget := by
  obtain ⟨received, stub, hrecv, -⟩ := receivePacket_cases w.stub
  unfold Rv32Gdb.gdbStubProcess at hret
  rw [hrecv] at hret
  split_ifs at hret
  · obtain rfl := Except.ok.inj hret
    exact h
  · obtain rfl := Except.ok.inj hret
    exact h
  · cases received with
    | false =>
      obtain rfl := Except.ok.inj hret
      exact h
    | true => exact dispatch (w := { w with stub := stub }) h hret

theorem sigintHandler {w : EmuWorld} (h : MachineInv n w.toTarget) :
    MachineInv n (sigintHandler w).toTarget := by
  unfold Rv32Gdb.sigintHandler
  simp only
  split_ifs
  · exact ⟨h.sys.sysHaltAll, h.threads.of_eq rfl rfl⟩
  · exact ⟨h.sys, h.threads⟩

theorem signaled {s : Session} (h : MachineInv n s.world.toTarget) (e : Event) :
    MachineInv n (s.signaled e).toTarget := by
  unfold Session.signaled
  split_ifs
  · exact h.sigintHandler
  · exact h

/-- A stop of a hart that exists. -/
theorem handleHartStop {w : EmuWorld} (h : MachineInv n w.toTarget) {k : Nat} (hk : k < n)
    (signal : Int) : MachineInv n (handleHartStop w k signal).toTarget := by
  have hid := (h.sys.hart k hk).hartId
  have hselect : SystemInv n { w.sim.sys with stopHart := k, focusHart := k } :=
    h.sys.select hk (by omega) (by exact_mod_cast hk)
  have hthreads : ThreadInv n { w.dbg with shouldStop := true } := h.threads.of_eq rfl rfl
  unfold Rv32Gdb.handleHartStop notifyStop
  refine (commandSteps n).sendStopReason _ _ ?_
  show MachineInv n ⟨gdbStubSetStopThread { w.dbg with shouldStop := true }
    (if ((w.toTarget.hart k).hartId : Int) ≥ 0 then sysThreadId (w.toTarget.hart k).hartId
      else sysThreadId (w.toTarget.hart k).hartId), _⟩
  rw [ite_self]
  show MachineInv n ⟨gdbStubSetStopThread _ (sysThreadId (w.sim.sys.harts k).hartId), { w.sim with
    sys := { w.sim.sys with
      stopHart := (w.sim.sys.harts k).hartId
      focusHart := (w.sim.sys.harts k).hartId } }⟩
  have hid' : (w.sim.sys.harts k).hartId = k := hid
  rw [hid']
  exact setStopThread (m := ⟨_, { w.sim with sys := _ }⟩) ⟨hselect, hthreads⟩ hk

/-- The thread that `notify_stop` names is that of a hart. -/
theorem notifyThread_eq {s : Rv32System} (h : SystemInv n s) :
    ∃ k < n, notifyThread s = sysThreadId k := by
  have hlt := h.stopHart_lt
  unfold notifyThread
  split_ifs
  · exact ⟨s.stopHart.toNat, by omega, rfl⟩
  · exact ⟨s.focusHart, h.focusHart_lt, rfl⟩

/-- A stop that is reported without a turn. -/
theorem stopsIdle {w w' : EmuWorld} (h : MachineInv n w.toTarget) {k : Nat} (hk : k < n)
    (hstop : StopsIdle w (sysThreadId k) w') : MachineInv n w'.toTarget := by
  obtain ⟨u, signal, pc, hflag, rfl⟩ := hstop
  refine (commandSteps n).sendStopReason _ _ (setStopThread (m := u.toTarget) ?_ hk)
  refine ⟨?_, ?_⟩
  · show SystemInv n u.sim.sys
    rw [hflag.sim]
    exact h.sys
  · rw [hflag.dbg]
    exact h.threads.of_eq rfl rfl

theorem logTurn {w : EmuWorld} (h : MachineInv n w.toTarget) (k : Nat) :
    MachineInv n (w.logTurn k).toTarget := ⟨h.sys, h.threads⟩

theorem readMem {w : EmuWorld} (h : MachineInv n w.toTarget) {k : Nat} (hk : k < n) (addr : Word)
    (size : Nat) : MachineInv n (w.withTarget
      (rv32CpuReadMem w.stub.connected w.toTarget k addr size).2).toTarget :=
  h.of_execFrame (ExecFrame.checkAccess .load w.stub.connected w.toTarget k addr size)
    (h.sys.checkAccess _ _ hk _ _)

/-- The hart that gets its turn. -/
theorem begunTurn {debugMode : Bool} {e : Event} {s : Session} {k : Nat} {v : EmuWorld}
    (h : MachineInv n s.world.toTarget) (hturn : s.begunTurn debugMode e = some (k, v)) :
    k < n ∧ MachineInv n v.toTarget := by
  have hsig := h.signaled e
  have hfocus := h.sys.focusHart_lt
  have hlt := lt_numHarts_of_begunTurn hturn (h.sys.numHarts.symm ▸ hfocus)
  refine ⟨h.sys.numHarts ▸ hlt, ?_⟩
  unfold Session.begunTurn at hturn
  simp only at hturn
  split at hturn
  · split_ifs at hturn
    · obtain ⟨-, rfl⟩ := Prod.mk.inj (Option.some.inj hturn)
      exact (hsig.readMem hsig.sys.focusHart_lt _ _).logTurn _
    · obtain ⟨-, rfl⟩ := Prod.mk.inj (Option.some.inj hturn)
      exact hsig.logTurn _
  · split_ifs at hturn
    obtain ⟨-, rfl⟩ := Prod.mk.inj (Option.some.inj hturn)
    exact hsig.logTurn _
  · cases hturn

/-- A step of a running target. -/
theorem runStep {debugMode : Bool} {e : Event} {s s' : Session} (h : MachineInv n s.world.toTarget)
    (hrun : s.Running) (hstep : sessionStep debugMode e s = .ok s') :
    MachineInv n s'.world.toTarget := by
  have hsig := h.signaled e
  cases hturn : s.begunTurn debugMode e with
  | none =>
    rcases runStep_without_turn hrun hturn hstep with ⟨-, hworld⟩ | ⟨-, tid, htid, hstop⟩
    · rw [hworld]
      exact hsig
    · rcases htid with ⟨-, rfl⟩ | ⟨-, rfl⟩
      · have hid : ((s.signaled e).toTarget.hart (s.signaled e).sim.sys.focusHart).hartId =
            (s.signaled e).sim.sys.focusHart := (hsig.sys.hart _ hsig.sys.focusHart_lt).hartId
        rw [hid] at hstop
        exact hsig.stopsIdle hsig.sys.focusHart_lt hstop
      · obtain ⟨k, hk, hthread⟩ := notifyThread_eq hsig.sys
        have hstop' : StopsIdle (s.signaled e) (sysThreadId k) s'.world := hthread ▸ hstop
        exact hsig.stopsIdle hk hstop'
  | some turn =>
    obtain ⟨k, v⟩ := turn
    obtain ⟨hk, hv⟩ := h.begunTurn hturn
    have hcases := runStep_of_begunTurn hturn hstep
    split_ifs at hcases
    · rw [hcases]
      exact handleHartStop (w := v.updDbg _) ⟨hv.sys, hv.threads.of_eq rfl rfl⟩ hk 5
    · have hcpu : MachineInv n (v.cpuStep k).toTarget := hv.sysCpuStep _ hk
      rcases hcases with ⟨singleStep, signal, -, rfl⟩ | ⟨rfl, -⟩
      · exact handleHartStop (w := (v.cpuStep k).updDbg _)
          ⟨hcpu.sys, hcpu.threads.of_eq rfl rfl⟩ hk signal
      · exact hcpu

/-- Every step of a session, its last one included. -/
theorem step {debugMode : Bool} {e : Event} {s s' : Session} (h : MachineInv n s.world.toTarget)
    (hstep : sessionStep debugMode e s = .ok s') : MachineInv n s'.world.toTarget := by
  by_cases hrun : s.Running
  · exact h.runStep hrun hstep
  have hsig := h.signaled e
  rcases step_of_not_running hrun hstep with hworld | ⟨r, hret, hworld⟩
  · rw [hworld]
    exact hsig
  · have hr := hsig.gdbStubProcess hret
    rcases hworld with hworld | hworld <;> rw [hworld]
    · exact hr
    · exact ⟨hr.sys.sysResumeRunnable, hr.threads⟩

end MachineInv

/-! ### The connection -/

/-- The bounds of the counters of the connection. -/
structure StubBounds (s : GdbStub) : Prop where
  packetSize_le : s.packetSize ≤ 4095
  consecutiveFailures_le : s.consecutiveFailures ≤ 50

theorem stubInvariant_stubBounds : StubInvariant StubBounds where
  send s data h := by
    unfold sendPacket
    split_ifs
    · exact ⟨h.packetSize_le, h.consecutiveFailures_le⟩
    · exact h
  setBuffer _ _ h := ⟨h.packetSize_le, h.consecutiveFailures_le⟩
  noAckMode _ h := ⟨h.packetSize_le, h.consecutiveFailures_le⟩

/-- A packet, received or not, fits the buffer and adds at most one failure. -/
theorem receiveLoop_bounds (input : List Byte) (s : GdbStub) (st : RecvState) {received : Bool}
    {s' : GdbStub} (h : receiveLoop s st input = .ok (received, s')) (hsize : s.packetSize ≤ 4095) :
    s'.packetSize ≤ 4095 ∧ s'.consecutiveFailures ≤ s.consecutiveFailures + 1 := by
  induction input generalizing s st with
  | nil =>
    cases st <;>
      · obtain ⟨-, rfl⟩ := Prod.mk.inj (Except.ok.inj h)
        exact ⟨hsize, le_refl _⟩
  | cons c rest ih =>
    cases st with
    | waitStart =>
      rw [receiveLoop] at h
      split_ifs at h
      · exact ih s _ h hsize
      · rw [s.poke_of_lt _ (by decide)] at h
        obtain ⟨-, rfl⟩ := Prod.mk.inj (Except.ok.inj h)
        exact ⟨show 1 ≤ 4095 by decide, Nat.le_succ _⟩
      · exact ih s _ h hsize
    | readData index =>
      rw [receiveLoop] at h
      by_cases hindex : index < gdbBufferSize
      · rw [s.poke_of_lt _ hindex, s.poke_of_lt _ hindex] at h
        split_ifs at h
        · exact ih { s with packetBuffer := setByte s.packetBuffer ⟨index, hindex⟩ 0
                            packetSize := index } _ h (Nat.le_pred_of_lt hindex)
        · exact ih { s with packetBuffer := setByte s.packetBuffer ⟨index, hindex⟩ c } _ h hsize
        · exact ih s _ h hsize
      · -- past the buffer nothing is stored, and `#` would be an error
        rw [GdbStub.poke, dif_neg hindex] at h
        split_ifs at h with hc hroom
        · cases h
        · exact absurd hroom (by omega)
        · exact ih s _ h hsize
    | readChecksum index expected received =>
      simp only [receiveLoop] at h
      split_ifs at h
      · obtain ⟨-, rfl⟩ := Prod.mk.inj (Except.ok.inj h)
        exact ⟨hsize, le_refl _⟩
      · obtain ⟨-, rfl⟩ := Prod.mk.inj (Except.ok.inj h)
        exact ⟨hsize, le_refl _⟩
      · obtain ⟨-, rfl⟩ := Prod.mk.inj (Except.ok.inj h)
        exact ⟨hsize, Nat.zero_le _⟩
      · obtain ⟨-, rfl⟩ := Prod.mk.inj (Except.ok.inj h)
        exact ⟨hsize, Nat.zero_le _⟩
      · exact ih s _ h hsize

namespace StubBounds

theorem dispatch {x : Xlen} {σ : Type} {fuel : Nat} {cb : GdbCallbacks x σ} {w : World x σ}
    {r : Int × World x σ} (h : StubBounds w.stub) (hret : dispatch fuel cb w = .ok r) :
    StubBounds r.2.stub := by
  obtain ⟨v, w'⟩ := r
  by_cases hneg : v < 0
  · rcases dispatch_of_neg hret hneg with rfl | rfl
    · exact h
    · have hsend := stubInvariant_stubBounds.send _ (ascii "OK") h
      exact ⟨hsend.packetSize_le, hsend.consecutiveFailures_le⟩
  · exact stubInvariant_stubBounds.dispatch fuel cb h v w' hret (not_lt.mp hneg)

/-- One more failure is counted only below the limit. -/
theorem gdbStubProcess {x : Xlen} {σ : Type} {fuel : Nat} {cb : GdbCallbacks x σ} {w : World x σ}
    {r : Int × World x σ} (h : StubBounds w.stub) (hret : gdbStubProcess fuel cb w = .ok r) :
    StubBounds r.2.stub := by
  obtain ⟨received, stub, hrecv, -⟩ := receivePacket_cases w.stub
  obtain ⟨hsize, hfail⟩ := receiveLoop_bounds _ _ _ hrecv h.packetSize_le
  unfold Rv32Gdb.gdbStubProcess at hret
  rw [hrecv] at hret
  split_ifs at hret with hconn hlimit
  · obtain rfl := Except.ok.inj hret
    exact h
  · obtain rfl := Except.ok.inj hret
    exact h
  · have hstub : StubBounds stub := ⟨hsize, by omega⟩
    cases received with
    | false =>
      obtain rfl := Except.ok.inj hret
      exact hstub
    | true => exact dispatch (w := { w with stub := stub }) hstub hret

theorem step {debugMode : Bool} {e : Event} {s s' : Session} (h : StubBounds s.world.stub)
    (hstep : sessionStep debugMode e s = .ok s') : StubBounds s'.world.stub := by
  have hsig := (Prelude.signaled s e).stub
  by_cases hrun : s.Running
  · rcases stub_runStep hrun hstep with ⟨-, hstub⟩ | ⟨-, tid, cause, reply, -, hstub⟩
    · rwa [hstub]
    · rw [hstub]
      exact ⟨h.packetSize_le, h.consecutiveFailures_le⟩
  rcases step_of_not_running hrun hstep with hworld | ⟨r, hret, hworld⟩
  · rwa [hworld, hsig]
  · have hr := gdbStubProcess (hsig ▸ h) hret
    rcases hworld with hworld | hworld <;> rwa [hworld]

end StubBounds

/-! ### Every session -/

/-- The program with `n` harts when the client has connected, with an arbitrary image in the RAM. -/
def imageSession (n : Nat) (image : BitVec 16 → Byte) (input : List Byte) : Session :=
  let s := initSession n input
  ⟨s.phase, s.world.withTarget (s.world.toTarget.updHart 0 fun c => { c with memory := image })⟩

/-- `create_test_program` leaves one of the images. -/
theorem imageSession_memory (n : Nat) (input : List Byte) :
    imageSession n ((initSystem n).harts 0).memory input = initSession n input := by
  have hsame : (initSystem n).updHart 0
      (fun c => { c with memory := ((initSystem n).harts 0).memory }) = initSystem n := by
    simp [Rv32System.updHart]
  show Session.mk _ (World.mk ⟨_, { sys := (initSystem n).updHart 0 _, .. }⟩ _) = _
  rw [hsame]
  rfl

theorem systemInv_initSystem {n : Nat} (hn : 0 < n) : SystemInv n (initSystem n) := by
  have hhart : ∀ h < n, HartInv h (initHart n h) := by
    intro h hh
    have hregs : Function.update rv32CpuInit.regs regTp (BitVec.ofNat 32 h) 0 = 0 := by
      rw [Function.update_of_ne (by decide)]
      rfl
    rw [initHart, if_pos hh]
    refine ⟨rfl, hregs, ?_⟩
    by_cases h0 : h = 0
    · rw [if_neg (by omega), if_pos h0]
    · rw [if_pos (by omega), if_neg h0]
  have hinit : SystemInv n
      { harts := initHart n, numHarts := n, focusHart := 0, stopHart := -1 } :=
    ⟨rfl, hn, le_refl (-1), show (-1 : Int) < n by omega, hhart⟩
  have hload := hinit.updHart 0 (f := fun c =>
    { c with memory := memcpyWords (memcpyWords c.memory 0 testProgram) 0x30 smpWorkerCode })
    fun c hc => ⟨hc.hartId, hc.zero, hc.sharedRam⟩
  unfold initSystem createTestProgram
  refine hload.smpSyncRamInit.forHarts fun h c hc => ?_
  split_ifs
  · exact hc.smpSyncInitWorkerHart
  · exact hc

theorem machineInv_imageSession {n : Nat} (hn : 0 < n) (image : BitVec 16 → Byte)
    (input : List Byte) : MachineInv n (imageSession n image input).world.toTarget := by
  have hsys := (systemInv_initSystem hn).updHart 0 (f := fun c => { c with memory := image })
    fun c hc => ⟨hc.hartId, hc.zero, hc.sharedRam⟩
  refine ⟨hsys, ⟨le_refl 1, ?_, le_refl 0, ?_⟩⟩
  · show (1 : Int) ≤ n
    omega
  · show (0 : Int) ≤ n
    omega

/-- The bounds of the state of a session with `n` harts. -/
structure SessionBounds (n : Nat) (w : EmuWorld) : Prop where
  numHarts : w.sim.sys.numHarts = n
  focusHart : w.sim.sys.focusHart < n
  stopHart : -1 ≤ w.sim.sys.stopHart ∧ w.sim.sys.stopHart < n
  currentThread : 1 ≤ w.dbg.currentThread ∧ w.dbg.currentThread ≤ n
  stopThread : 0 ≤ w.dbg.stopThread ∧ w.dbg.stopThread ≤ n
  packetSize : w.stub.packetSize ≤ 4095
  consecutiveFailures : w.stub.consecutiveFailures ≤ 50
  breakpoints : w.dbg.breakpoints.slots.length ≤ 64 ∧
    w.dbg.breakpoints.slots.Pairwise fun s t => s.key ≠ t.key
  watchpoints : w.dbg.watchpoints.slots.length ≤ 32 ∧ w.dbg.watchpoints.slots.Pairwise fun s t =>
    (s.key.addr, s.key.len, s.key.type) ≠ (t.key.addr, t.key.len, t.key.type)
  zero : ∀ h < n, (w.toTarget.hart h).regs 0 = 0
  ramOwner : ∀ h < n, w.sim.sys.ramOwner h = 0

theorem MachineInv.sessionBounds {n : Nat} {w : EmuWorld} (h : MachineInv n w.toTarget)
    (hstub : StubBounds w.stub) : SessionBounds n w where
  numHarts := h.sys.numHarts
  focusHart := h.sys.focusHart_lt
  stopHart := ⟨h.sys.stopHart_ge, h.sys.stopHart_lt⟩
  currentThread := ⟨h.threads.currentThread_pos, h.threads.currentThread_le⟩
  stopThread := ⟨h.threads.stopThread_nonneg, h.threads.stopThread_le⟩
  packetSize := hstub.packetSize_le
  consecutiveFailures := hstub.consecutiveFailures_le
  breakpoints := ⟨w.dbg.breakpoints.bound, List.pairwise_map.mp w.dbg.breakpoints.nodup⟩
  watchpoints := by
    refine ⟨w.dbg.watchpoints.bound, (List.pairwise_map.mp w.dbg.watchpoints.nodup).imp ?_⟩
    intro s t hne heq
    have hkey := congrArg
      (fun k : Word × Word × WatchpointType => (⟨k.1, k.2.1, k.2.2⟩ : WatchpointKey .x32)) heq
    exact hne hkey
  zero k hk := (h.sys.hart k hk).zero
  ramOwner k hk := h.sys.ramOwner hk

/-- Every step keeps the invariants, and so does every session. -/
theorem machineInv_of_sessionFrom {debugMode : Bool} {n : Nat} {s₀ s : Session}
    {packets : List (List Byte)} (h₀ : MachineInv n s₀.world.toTarget)
    (hrun : SessionFrom debugMode s₀ packets s) : MachineInv n s.world.toTarget := by
  induction hrun with
  | refl => exact h₀
  | step e _ hstep ih => exact ih.step hstep

theorem machineInv_of_sessionRun {debugMode : Bool} {n : Nat} {packets : List (List Byte)}
    {s : Session} (hn : 0 < n) (hrun : SessionRun debugMode n packets s) :
    MachineInv n s.world.toTarget := by
  induction hrun with
  | init input =>
    rw [← imageSession_memory]
    exact machineInv_imageSession hn _ input
  | step e _ hstep ih => exact ih.step hstep

theorem stubBounds_of_sessionFrom {debugMode : Bool} {s₀ s : Session}
    {packets : List (List Byte)} (h₀ : StubBounds s₀.world.stub)
    (hrun : SessionFrom debugMode s₀ packets s) : StubBounds s.world.stub := by
  induction hrun with
  | refl => exact h₀
  | step e _ hstep ih => exact ih.step hstep

/-- The bounds hold in every session, whatever is in RAM and whatever the client sends. -/
theorem sessionBounds_of_sessionFrom {debugMode : Bool} {n : Nat} {image : BitVec 16 → Byte}
    {input : List Byte} {packets : List (List Byte)} {s : Session} (hn : validHartCount n)
    (hrun : SessionFrom debugMode (imageSession n image input) packets s) :
    SessionBounds n s.world := by
  have hpos : 0 < n := by
    refine Nat.pos_of_ne_zero ?_
    rintro rfl
    exact absurd hn (by decide)
  have hmachine := machineInv_of_sessionFrom (machineInv_imageSession hpos image input) hrun
  have hstub : StubBounds (imageSession n image input).world.stub :=
    ⟨Nat.zero_le _, Nat.zero_le _⟩
  exact hmachine.sessionBounds (stubBounds_of_sessionFrom hstub hrun)

/-- Two harts of the demo program, of which the first has executed an instruction. -/
def boundedSession : Session :=
  (loadedSession 2 (frame (ascii "s"))).after false [.quiet, .quiet]

theorem sessionBounds_boundedSession : SessionBounds 2 boundedSession.world := by
  have hstart : imageSession 2 ((initSystem 2).harts 0).memory (frame (ascii "s")) =
      loadedSession 2 (frame (ascii "s")) := by rw [imageSession_memory, initSession_eq]
  have hrefl : SessionFrom false (loadedSession 2 (frame (ascii "s"))) []
      (loadedSession 2 (frame (ascii "s"))) := .refl
  have hsteps : (loadedSession 2 (frame (ascii "s"))).steps false [.quiet, .quiet] := by
    decide +kernel
  obtain ⟨packets, hrun⟩ := hrefl.after hsteps
  rw [← hstart] at hrun
  have hstepped : boundedSession = (imageSession 2 ((initSystem 2).harts 0).memory
      (frame (ascii "s"))).after false [.quiet, .quiet] := by rw [hstart, boundedSession]
  rw [hstepped]
  exact sessionBounds_of_sessionFrom (by decide) hrun

end Rv32Gdb
