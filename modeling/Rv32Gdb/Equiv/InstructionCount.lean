import Rv32Gdb.Equiv.Isa
import Rv32Gdb.Equiv.Transparency

/-!
# Instruction counts

`instructionCount_of_sessionFrom`: in every session without a reset, the instruction count of each
hart grows by the number of instructions that the hart executes, modulo `2 ^ 64`, whoever lets it
execute them: the client by a step or a continue, or the job loop after a store of the counter.
-/

namespace Rv32Gdb

/-! ### Counting -/

/-- The hart that executes an instruction. -/
def HartEvent.executing : HartEvent → Option Nat
  | .exec h _ => some h
  | _ => none

/-- The number of instructions of hart `k` among the events. -/
def executed (k : Nat) (events : List HartEvent) : Nat :=
  (events.filterMap HartEvent.executing).count k

theorem executed_append (k : Nat) (events events' : List HartEvent) :
    executed k (events ++ events') = executed k events + executed k events' := by
  rw [executed, List.filterMap_append, List.count_append, executed, executed]

/-- The instructions that a turn executes. -/
theorem executed_turnEvents (k h : Nat) (m : Machine) :
    executed k (turnEvents h m) = if (m.hart h).running ∧ k = h then 1 else 0 := by
  have hexec : (turnEvents h m).filterMap HartEvent.executing =
      if (m.hart h).running then [h] else [] := by
    unfold turnEvents execEvents
    split_ifs
    · cases pendingAccess m h <;> rfl
    · rfl
  rw [executed, hexec]
  by_cases hrun : (m.hart h).running
  · rw [if_pos hrun, List.count_singleton]
    by_cases hk : k = h
    · rw [if_pos (by rw [hk, beq_self_eq_true]), if_pos ⟨hrun, hk⟩]
    · rw [if_neg (by simpa using Ne.symm hk), if_neg fun hand => hk hand.2]
  · rw [if_neg hrun, if_neg fun hand => hrun hand.1]
    rfl

/-- The counts of `m'` are those of `m` with the instructions executed in between. -/
def Accounts (m m' : Machine) : Prop :=
  ∃ events, m'.sim.trace = m.sim.trace ++ events ∧ ∀ k, (m'.hart k).instructionCount =
    (m.hart k).instructionCount + BitVec.ofNat 64 (executed k events)

/-- The instruction counts of the harts are the same. -/
def SameCounts (s s' : Rv32System) : Prop :=
  ∀ k, (s'.harts k).instructionCount = (s.harts k).instructionCount

namespace SameCounts

variable {s₁ s₂ s₃ : Rv32System}

theorem refl (s : Rv32System) : SameCounts s s := fun _ => rfl

theorem trans (h₁ : SameCounts s₁ s₂) (h₂ : SameCounts s₂ s₃) : SameCounts s₁ s₃ :=
  fun k => (h₂ k).trans (h₁ k)

theorem updHart (s : Rv32System) (h : Nat) {f : Rv32Cpu → Rv32Cpu}
    (hf : (f (s.harts h)).instructionCount = (s.harts h).instructionCount) :
    SameCounts s (s.updHart h f) := by
  intro k
  rw [Rv32System.harts_updHart]
  split_ifs with hk
  · rw [hf, hk]
  · rfl

theorem ramStore (s : Rv32System) (h : Nat) (off : BitVec 16) (value : Word) (size : Nat) :
    SameCounts s (s.ramStore h off value size) := by
  intro k
  obtain ⟨memory, hk⟩ := s.harts_ramStore h off value size k
  rw [hk]

theorem ramWrite32 (s : Rv32System) (addr value : Word) :
    SameCounts s (ramWrite32 s addr value) := by
  unfold Rv32Gdb.ramWrite32
  split_ifs
  · exact ramStore _ _ _ _ _
  · exact refl s

theorem smpDeliverIpi (s : Rv32System) (targetHart : Int) (workItem : Word) :
    SameCounts s (smpDeliverIpi s targetHart workItem) := by
  unfold Rv32Gdb.smpDeliverIpi
  split_ifs
  · exact refl s
  · exact ((ramWrite32 _ _ _).trans (ramWrite32 _ _ _)).trans (ramWrite32 _ _ _)

theorem publish (s : Rv32System) (h : Nat) (prevPc : Word) :
    SameCounts s (s.publish h prevPc) := by
  unfold Rv32System.publish
  simp only
  split_ifs
  · exact refl s
  · exact smpDeliverIpi _ _ _

theorem checkAccess (kind : AccessKind) (connected : Bool) (m : Machine) (h : Nat) (addr : Word)
    (size : Nat) : SameCounts m.sys (checkAccess kind connected m h addr size).sys := fun k =>
  apply_of_core_eq ((SameProgram.checkAccess kind connected m h addr size).core k) _ fun _ => rfl

theorem rv32CpuWriteMem (connected : Bool) (m : Machine) (h : Nat) (addr value : Word)
    (size : Nat) : SameCounts m.sys (rv32CpuWriteMem connected m h addr value size).sys := by
  have hcheck := checkAccess .store connected m h addr size
  unfold Rv32Gdb.rv32CpuWriteMem
  simp only
  split_ifs
  · exact hcheck.trans (ramStore _ _ _ _ _)
  · exact hcheck

theorem execLoad (connected : Bool) (m : Machine) (h : Nat) (i : Word) :
    SameCounts m.sys (execLoad connected m h i).sys := by
  have hreg : ∀ (m : Machine) (reg : Nat) (value : Word), SameCounts m.sys
      (m.updHart h fun c => rv32CpuWriteReg c reg value).sys := fun m reg value =>
    updHart m.sys h (f := fun c => rv32CpuWriteReg c reg value)
      (sameCore_writeReg _ _ _).instructionCount
  unfold Rv32Gdb.execLoad
  cases loadSize (funct3Field i) with
  | none => exact hreg m _ _
  | some size => exact (checkAccess .load connected (m.log _) h _ size).trans (hreg _ _ _)

theorem execStore (connected : Bool) (m : Machine) (h : Nat) (i : Word) :
    SameCounts m.sys (execStore connected m h i).sys := by
  unfold Rv32Gdb.execStore
  cases storeSize (funct3Field i) with
  | none => exact refl _
  | some size => exact rv32CpuWriteMem connected (m.log _) h _ _ size

end SameCounts

/-- An instruction is counted for the hart that executes it. -/
theorem instructionCount_rv32CpuStep (connected : Bool) (m : Machine) (h k : Nat) :
    ((rv32CpuStep connected m h).hart k).instructionCount =
      (m.hart k).instructionCount + BitVec.ofNat 64 (executed k (turnEvents h m)) := by
  rw [executed_turnEvents]
  by_cases hrun : (m.hart h).running
  · have hafter : ((afterFetch connected m h).hart k).instructionCount =
        (m.hart k).instructionCount +
          BitVec.ofNat 64 (if (m.hart h).running ∧ k = h then 1 else 0) := by
      obtain ⟨b, hb⟩ := hart_afterFetch connected m h
      rw [hb]
      by_cases hk : k = h
      · rw [if_pos hk, if_pos ⟨hrun, hk⟩, hk]
        rfl
      · rw [if_neg hk, if_neg fun hand => hk hand.2]
        exact (BitVec.add_zero _).symm
    have hsame : SameCounts (afterFetch connected m h).sys (rv32CpuStep connected m h).sys := by
      rw [rv32CpuStep_of_running connected hrun]
      split_ifs
      · exact SameCounts.execLoad _ _ _ _
      · exact SameCounts.execStore _ _ _ _
      · exact SameCounts.updHart _ _ (sameCore_execHart _ _ _).instructionCount
    exact (hsame k).trans hafter
  · rw [rv32CpuStep, if_pos (by simpa using hrun), if_neg fun hand => hrun hand.1]
    exact (BitVec.add_zero _).symm

/-- Replaying counts, too. -/
theorem instructionCount_replay {s s' : Rv32System} {events : List HartEvent}
    (h : Replay s events s') (k : Nat) :
    (s'.harts k).instructionCount =
      (s.harts k).instructionCount + BitVec.ofNat 64 (executed k events) := by
  induction h with
  | done => exact (BitVec.add_zero _).symm
  | @turn s s' events h _ ih =>
    have hturn : (((s.step h).publish h (s.harts h).pc).harts k).instructionCount =
        (s.harts k).instructionCount + BitVec.ofNat 64 (executed k (turnEvents h s.alone)) :=
      (SameCounts.publish _ _ _ k).trans (instructionCount_rv32CpuStep false s.alone h k)
    rw [ih, hturn, executed_append, BitVec.ofNat_add, BitVec.add_assoc]
  | stopped h _ ih => exact ih

namespace Accounts

variable {m m' m₁ m₂ m₃ : Machine}

theorem trans (h₁ : Accounts m₁ m₂) (h₂ : Accounts m₂ m₃) : Accounts m₁ m₃ := by
  obtain ⟨events₁, htrace₁, hcount₁⟩ := h₁
  obtain ⟨events₂, htrace₂, hcount₂⟩ := h₂
  refine ⟨events₁ ++ events₂, by rw [htrace₂, htrace₁, List.append_assoc], fun k => ?_⟩
  rw [hcount₂, hcount₁, executed_append, BitVec.ofNat_add, BitVec.add_assoc]

/-- What executes nothing and counts nothing. -/
theorem of_sameCounts (htrace : m'.sim.trace = m.sim.trace) (hs : SameCounts m.sys m'.sys) :
    Accounts m m' := by
  refine ⟨[], htrace.trans (List.append_nil _).symm, fun k => ?_⟩
  exact (hs k).trans (BitVec.add_zero _).symm

theorem refl (m : Machine) : Accounts m m := of_sameCounts rfl (SameCounts.refl _)

/-- What the harts do by themselves. -/
theorem of_replays (h : Replays m m') : Accounts m m' := by
  obtain ⟨events, htrace, hreplay⟩ := h
  obtain ⟨s', hrun, hsame⟩ := hreplay _ (SameProgram.refl _)
  refine ⟨events, htrace, fun k => ?_⟩
  have hcount : (m'.hart k).instructionCount = (s'.harts k).instructionCount :=
    apply_of_core_eq (hsame.core k) _ fun _ => rfl
  exact hcount.trans (instructionCount_replay hrun k)

/-! ### Writing -/

theorem updSys (m : Machine) {g : Rv32System → Rv32System} (hg : SameCounts m.sys (g m.sys)) :
    Accounts m (m.updSys g) := of_sameCounts rfl hg

theorem updHart (m : Machine) (h : Nat) {f : Rv32Cpu → Rv32Cpu}
    (hf : (f (m.hart h)).instructionCount = (m.hart h).instructionCount) :
    Accounts m (m.updHart h f) :=
  of_sameCounts rfl (SameCounts.updHart m.sys h hf)

theorem gdbWriteReg (m : Machine) (regNum : Nat) (value : Word) :
    Accounts m (gdbWriteReg m regNum value) := by
  refine updHart m _ ?_
  split_ifs
  · exact (sameCore_writeReg _ _ _).instructionCount
  · rfl
  · rfl

theorem rv32CpuWriteMem (connected : Bool) (m : Machine) (h : Nat) (addr value : Word)
    (size : Nat) : Accounts m (rv32CpuWriteMem connected m h addr value size) := by
  refine of_sameCounts ?_ (SameCounts.rv32CpuWriteMem connected m h addr value size)
  exact (HartFrame.rv32CpuWriteMem connected m h addr value size).trace.trans
    (trace_checkAccess _ _ _ _ _ _)

theorem smpSyncRunWorkerJobs {n : Nat} (hs : SystemInv n m.sys) (connected : Bool) (hartId : Int) :
    Accounts m (smpSyncRunWorkerJobs connected m hartId) := by
  have hnum := hs.numHarts
  unfold Rv32Gdb.smpSyncRunWorkerJobs
  split_ifs with hrange
  · exact refl m
  · exact refl m
  · refine of_replays (Replays.workerJobLoop connected 128 ?_)
    have hid : (m.hart hartId.toNat).hartId = hartId.toNat :=
      (hs.hart hartId.toNat (by omega)).hartId
    omega

/-- A write to the IPI device makes a worker work. -/
theorem smpSyncHandleMmio {n : Nat} (hs : SystemInv n m.sys) {connected : Bool}
    {addr value : Word} {size : Nat}
    (hret : smpSyncHandleMmio connected m addr value size = some m') : Accounts m m' := by
  have hdeliver : ∀ target item, Accounts m (Rv32Gdb.smpSyncRunWorkerJobs connected
      (m.updSys fun s => smpDeliverIpi s target item) target) := fun target item =>
    (updSys m (SameCounts.smpDeliverIpi m.sys target item)).trans
      (smpSyncRunWorkerJobs (hs.smpDeliverIpi target item) connected target)
  unfold Rv32Gdb.smpSyncHandleMmio at hret
  split_ifs at hret
  obtain rfl := Option.some.inj hret
  exact hdeliver _ _

theorem sysWriteMem {n : Nat} (hs : SystemInv n m.sys) (connected : Bool) (src : Nat)
    (addr value : Word) (size : Nat) : Accounts m (sysWriteMem connected m src addr value size) := by
  have hsync : SameCounts m.sys (smpSyncWriteRam m.sys addr value size) := by
    unfold smpSyncWriteRam
    split_ifs
    · exact SameCounts.ramStore _ _ _ _ _
    · exact SameCounts.refl _
  unfold Rv32Gdb.sysWriteMem
  cases hret : Rv32Gdb.smpSyncHandleMmio connected m addr value size with
  | some m' => exact smpSyncHandleMmio hs hret
  | none =>
    simp only
    split_ifs
    · exact updSys m hsync
    · exact rv32CpuWriteMem connected m src addr value size

/-! ### Sessions -/

/-- What a command keeps. -/
def Accounted (n : Nat) (m : Machine) (w : EmuWorld) : Prop :=
  SystemInv n w.sim.sys ∧ Accounts m w.toTarget

theorem handlerInvariant (n : Nat) (m : Machine) : HandlerInvariant emuCallbacks (Accounted n m) where
  send _ _ h := h
  setBuffer _ _ h := h
  updDbg _ _ _ h := h
  noAckMode _ h := h
  readReg _ _ h := h
  writeReg _ _ _ h := ⟨h.1.gdbWriteReg _ _, h.2.trans (gdbWriteReg _ _ _)⟩
  readMem _ _ _ h :=
    ⟨h.1.sysReadMem _ _ _, h.2.trans (of_replays (Replays.sysReadMem _ _ _ _))⟩
  writeMem _ _ _ _ h :=
    ⟨h.1.sysWriteMem _ h.1.focusHart_lt _ _ _, h.2.trans (sysWriteMem h.1 _ _ _ _ _)⟩
  getPc _ h := h
  setPc w _ h :=
    ⟨h.1.updHart _ fun _ hc => hc.setPc _, h.2.trans (updHart w.toTarget _ rfl)⟩
  resume _ h := ⟨h.1.sysResumeRunnable, h.2.trans (of_replays (Replays.sysResumeRunnable _))⟩
  getNumHarts _ _ h := h
  haltCpus _ h := ⟨h.1.sysHaltAll, h.2.trans (of_replays (Replays.gdbHaltCpus _))⟩

theorem handleSetThread {n : Nat} {w : EmuWorld} (h : Accounted n m w) :
    Accounted n m (handleSetThread emuCallbacks w) := by
  unfold Rv32Gdb.handleSetThread
  simp only [snd_selectedThread]
  split_ifs
  · exact h
  · exact h
  · exact h
  · exact ⟨h.1.gdbSetFocusHart _, h.2.trans (of_replays (Replays.gdbSetFocusHart _ _))⟩
  · exact h
  · exact h

theorem dispatch {n : Nat} {fuel : Nat} {w : EmuWorld} {r : Int × EmuWorld}
    (hs : SystemInv n w.sim.sys) (hcmd : byteAt w.stub.packetBuffer 0 ∉ [chr 'R'])
    (hret : dispatch fuel emuCallbacks w = .ok r) : Accounts w.toTarget r.2.toTarget := by
  obtain ⟨v, w'⟩ := r
  by_cases hneg : v < 0
  · rcases dispatch_of_neg hret hneg with rfl | rfl
    · exact refl _
    · exact refl _
  · have hw : Accounted n w.toTarget w := ⟨hs, refl _⟩
    exact ((handlerInvariant n w.toTarget).dispatch fuel hw (fun _ => handleSetThread hw)
      (fun h => absurd (List.mem_singleton.mpr h) hcmd) v w' hret (not_lt.mp hneg)).2

end Accounts

theorem sessionRelation_accounts (n : Nat) : SessionRelation n [chr 'R'] Accounts :=
  ⟨Accounts.refl, Accounts.trans, Accounts.of_replays, by decide,
    fun hw => Accounts.dispatch hw.sys⟩

/-- The instruction counts are the numbers of instructions that the harts execute, until a reset. -/
theorem instructionCount_of_sessionFrom {debugMode : Bool} {n : Nat} {s₀ s : Session}
    {packets : List (List Byte)} (h₀ : MachineInv n s₀.world.toTarget)
    (hrun : SessionFrom debugMode s₀ packets s) (hreset : ∀ p ∈ packets, p.head? ≠ some (chr 'R')) :
    ∃ events, s.world.sim.trace = s₀.world.sim.trace ++ events ∧ ∀ k,
      (s.world.toTarget.hart k).instructionCount =
        (s₀.world.toTarget.hart k).instructionCount + BitVec.ofNat 64 (executed k events) := by
  refine (sessionRelation_accounts n).of_sessionFrom h₀ hrun fun p hp c hc hmem => ?_
  rw [List.mem_singleton.mp hmem] at hc
  exact hreset p hp hc

/-- After one step of the first hart. -/
theorem instructionCount_lookingSession :
    let s := lookingSession.after false [.quiet, .quiet, .quiet]
    ∃ events, s.world.sim.trace = lookingSession.world.sim.trace ++ events ∧ ∀ k,
      (s.world.toTarget.hart k).instructionCount =
        (lookingSession.world.toTarget.hart k).instructionCount +
          BitVec.ofNat 64 (executed k events) :=
  instructionCount_of_sessionFrom
    (machineInv_of_sessionRun (by decide) (sessionRun_loadedSession false 2 _))
    sessionFrom_lookingSession (by decide +kernel)

end Rv32Gdb
