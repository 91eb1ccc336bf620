import Rv32Gdb.Equiv.Decode
import Rv32Gdb.Equiv.Harts
import Rv32Gdb.Equiv.WorkerCode

/-!
# Worker jobs
-/

namespace Rv32Gdb

open Rv32i Mailbox

/-! ### A worker in the machine -/

/-- Without a system instruction a worker stays as it is. -/
theorem opcode_instr (l : Loc) :
    knownOpcode l.instr.encode ∧ l.instr.encode &&& 0x7F ≠ 0x73 := by
  cases l <;> decide

/-- Harts with the same RAM. -/
theorem mem_archState_congr {m : Machine} {h k : Nat}
    (howner : m.sys.ramOwner h = m.sys.ramOwner k) : (archState m h).mem = (archState m k).mem := by
  funext a
  show ramAt m.sys h a = ramAt m.sys k a
  rw [ramAt, ramAt, Rv32System.ram, Rv32System.ram, howner]

/-- Nothing but hart `h` and the sync words changes. -/
structure SyncFrame (h : Nat) (m m' : Machine) : Prop where
  hart : ∀ k ≠ h, OnlyMemory (m.hart k) (m'.hart k)
  sharedRam : ∀ k, (m'.hart k).sharedRam = (m.hart k).sharedRam
  memory : ∀ k ≠ m.sys.ramOwner 0, (m'.hart k).memory = (m.hart k).memory
  mem : ∀ a, ¬InSyncWords a → (archState m' 0).mem a = (archState m 0).mem a

namespace SyncFrame

variable {h : Nat} {m m₁ m₂ : Machine}

theorem ramOwner (hf : SyncFrame h m m₁) (k : Nat) : m₁.sys.ramOwner k = m.sys.ramOwner k := by
  show ((m₁.hart k).sharedRam).getD k = _
  rw [hf.sharedRam]
  rfl

theorem trans (h₁ : SyncFrame h m m₁) (h₂ : SyncFrame h m₁ m₂) : SyncFrame h m m₂ where
  hart k hk := (h₁.hart k hk).trans (h₂.hart k hk)
  sharedRam k := (h₂.sharedRam k).trans (h₁.sharedRam k)
  memory k hk := (h₂.memory k (by rwa [h₁.ramOwner])).trans (h₁.memory k hk)
  mem a ha := (h₂.mem a ha).trans (h₁.mem a ha)

end SyncFrame

/-- A running worker executes an instruction of its code. -/
theorem WorkerInv.rv32CpuStep (connected : Bool) {h : Nat} (hh : h < 8) {ms : Mailbox.State Word}
    {m : Machine} (howner : m.sys.ramOwner h = m.sys.ramOwner 0)
    (hinv : WorkerInv h ms (archState m h)) (hrun : (m.hart h).running) :
    WorkerInv h (ms.step workerTag h) (archState (rv32CpuStep connected m h) h) ∧
      ((rv32CpuStep connected m h).hart h).running ∧
      SyncFrame h m (rv32CpuStep connected m h) := by
  have hfetched := fetched_of_fetch hinv.fetch
  have hstep : archState (Rv32Gdb.rv32CpuStep connected m h) h = _ :=
    (rv32CpuStep_encode hrun hinv.fetch).1
  have hexec := hinv.exec hh
  rw [← hstep] at hexec
  have hshared := sharedRam_rv32CpuStep connected m h
  have howner' : ∀ k, (Rv32Gdb.rv32CpuStep connected m h).sys.ramOwner k = m.sys.ramOwner k := by
    intro k
    show (((Rv32Gdb.rv32CpuStep connected m h).hart k).sharedRam).getD k = _
    rw [hshared]
    rfl
  refine ⟨hexec, ?_, ?_, hshared, ?_, ?_⟩
  · rw [running_rv32CpuStep connected hrun, hfetched]
    exact (opcode_instr _).1
  · exact fun k hk => hart_rv32CpuStep_of_ne connected m hk
  · exact fun k hk => memory_rv32CpuStep_of_ne connected m (by rwa [howner])
  · intro a ha
    rw [mem_archState_congr (k := h) (by rw [howner', howner', howner]), hstep,
      mem_archState_congr (k := h) howner.symm]
    exact mem_exec_of_not_inSyncWords hh hinv.worker ha

/-! ### The loop -/

/-- A word below the end of the RAM. -/
theorem ramRead32_eq_load (m : Machine) {a : Word} (ha : a.toNat + 4 ≤ 0x80010000) :
    ramRead32 m.sys a = (archState m 0).load a 4 := by
  have hbase : ramBase.toNat = 0x80000000 := by decide
  have hsize : (ramBase + ramSize).toNat = 0x80010000 := by decide
  have hfour : (a + 4).toNat = a.toNat + 4 := by
    rw [BitVec.toNat_add]
    exact Nat.mod_eq_of_lt (by
      show a.toNat + 4 < 2 ^ 32
      omega)
  have hin : inRam32 a = inRam a 4 := by
    rw [Bool.eq_iff_iff, inRam_iff (Or.inr (Or.inr rfl)), inRam32, Bool.not_eq_true',
      Bool.or_eq_false_iff, decide_eq_false_iff_not, decide_eq_false_iff_not, BitVec.lt_def,
      BitVec.lt_def, hbase, hsize, hfour]
    omega
  rw [ramRead32, load_archState m 0 a (Or.inr (Or.inr rfl)), hin]

theorem ramRead32_syncWord (m : Machine) {k : Nat} (hk : k < 12) :
    ramRead32 m.sys (syncWord k) = (archState m 0).load (syncWord k) 4 := by
  have haddr := toNat_syncWord hk
  exact ramRead32_eq_load m (by omega)

theorem mem_workerLocs (l : Loc) : l ∈ workerLocs := by
  cases l <;> decide

theorem pc_injective {l l' : Loc} (h : l.pc = l'.pc) : l = l' := by
  have hall : ∀ l ∈ workerLocs, ∀ l' ∈ workerLocs, l.pc = l'.pc → l = l' := by decide +kernel
  exact hall l (mem_workerLocs l) l' (mem_workerLocs l') h

/-- A worker is parked when the server is idle. -/
theorem workerParked_iff {h : Nat} (hh : h < 8) {ms : Mailbox.State Word} {m : Machine}
    (howner : m.sys.ramOwner h = m.sys.ramOwner 0) (hinv : WorkerInv h ms (archState m h)) :
    workerParked m.sys h ↔ (ms.view h).Idle := by
  have hpc : (m.sys.harts h).pc = (ms.server h).loc.pc := hinv.worker.pc
  have hbell : ramRead32 m.sys (ipiPending h) = ms.bell h := by
    rw [ipiPending_eq, ramRead32_syncWord m (by omega)]
    refine Eq.trans (State.load_congr fun a _ => ?_) (hinv.shared.load (h + 4) (by omega))
    rw [mem_archState_congr howner]
  have hpoll : (m.sys.harts h).pc = smpWorkerPoll ↔ (ms.server h).loc = .poll := by
    rw [hpc]
    exact ⟨fun heq => pc_injective (heq.trans (by decide : smpWorkerPoll = Loc.poll.pc)),
      fun heq => by rw [heq]; rfl⟩
  have hspin : (m.sys.harts h).pc = smpWorkerSpin ↔ (ms.server h).loc = .spin := by
    rw [hpc]
    exact ⟨fun heq => pc_injective (heq.trans (by decide : smpWorkerSpin = Loc.spin.pc)),
      fun heq => by rw [heq]; rfl⟩
  unfold workerParked View.Idle
  simp only [hbell, hpoll, hspin, Bool.and_eq_true, Bool.or_eq_true, decide_eq_true_iff, State.view]

/-- A worker at its turn. -/
structure AtTurn (h : Nat) (ms : Mailbox.State Word) (m : Machine) : Prop where
  inv : WorkerInv h ms (archState m h)
  ramOwner : m.sys.ramOwner h = m.sys.ramOwner 0
  running : (m.hart h).running
  not_halted : ¬(m.hart h).halted

namespace AtTurn

variable {connected : Bool} {h : Nat} {ms : Mailbox.State Word} {m : Machine}

theorem workerParked_iff (hh : h < 8) (ht : AtTurn h ms m) :
    workerParked m.sys h ↔ (ms.view h).Idle :=
  Rv32Gdb.workerParked_iff hh ht.ramOwner ht.inv

theorem go (ht : AtTurn h ms m) : ((m.hart h).running && !(m.hart h).halted) = true := by
  rw [ht.running, Bool.eq_false_iff.mpr ht.not_halted]
  rfl

/-- A turn of the loop that hits no watchpoint. -/
theorem step (hh : h < 8) (ht : AtTurn h ms m) (hno : NoHit connected m h) :
    AtTurn h (ms.step workerTag h)
        (rv32CpuStep connected (m.log (.turn h (m.hart h).pc)) h) ∧
      SyncFrame h m (rv32CpuStep connected (m.log (.turn h (m.hart h).pc)) h) := by
  set m₀ := m.log (.turn h (m.hart h).pc)
  have hinv₀ : WorkerInv h ms (archState m₀ h) := ht.inv
  have hrun₀ : (m₀.hart h).running := ht.running
  obtain ⟨hinv, hrun, hframe⟩ := WorkerInv.rv32CpuStep (m := m₀) connected hh ht.ramOwner hinv₀ hrun₀
  refine ⟨⟨hinv, ?_, hrun, ?_⟩, hframe.hart, hframe.sharedRam, hframe.memory, hframe.mem⟩
  · rw [hframe.ramOwner, hframe.ramOwner]
    exact ht.ramOwner
  · rw [halted_rv32CpuStep hrun₀ hno]
    · exact ht.not_halted
    · rw [fetched_of_fetch hinv₀.fetch]
      exact (opcode_instr _).2

/-- The loop ends when the server is idle for the first time: it executes as many instructions as
the server takes steps. -/
theorem workerJobLoop (hh : h < 8) {k guard : Nat} (hk : k < guard) (ht : AtTurn h ms m)
    (hno : ∀ m' ∈ jobTurns connected h guard m, NoHit connected m' h)
    (hbusy : ∀ i < k, ¬((View.step (workerTag h))^[i + 1] (ms.view h)).Idle)
    (hidle : ((View.step (workerTag h))^[k + 1] (ms.view h)).Idle) :
    AtTurn h ((State.step workerTag h)^[k + 1] ms) (workerJobLoop connected h guard m) ∧
      SyncFrame h m (Rv32Gdb.workerJobLoop connected h guard m) ∧
      (jobTurns connected h guard m).length = k + 1 := by
  induction k generalizing guard ms m with
  | zero =>
    obtain ⟨guard, rfl⟩ := Nat.exists_eq_succ_of_ne_zero (by omega : guard ≠ 0)
    rw [jobTurns, if_pos ht.go] at hno
    obtain ⟨hstep, hframe⟩ := ht.step hh (hno m List.mem_cons_self)
    -- the worker is parked again, which ends the loop
    have hparked := (hstep.workerParked_iff hh).mpr (by rwa [State.view_step_self])
    rw [Rv32Gdb.workerJobLoop, jobTurns, if_pos ht.go, if_pos ht.go]
    simp only
    rw [if_pos hparked, if_pos hparked]
    exact ⟨hstep, hframe, rfl⟩
  | succ k ih =>
    obtain ⟨guard, rfl⟩ := Nat.exists_eq_succ_of_ne_zero (by omega : guard ≠ 0)
    rw [jobTurns, if_pos ht.go] at hno
    simp only at hno
    obtain ⟨hstep, hframe⟩ := ht.step hh (hno m List.mem_cons_self)
    -- not yet parked: the loop goes on
    have hparked : ¬_ := mt (hstep.workerParked_iff hh).mp (by
      rw [State.view_step_self]
      exact hbusy 0 (by omega))
    rw [if_neg hparked] at hno
    obtain ⟨hlast, hframe', hlength⟩ := ih (by omega) hstep
      (fun m' hm' => hno m' (List.mem_cons_of_mem _ hm'))
      (fun i hi => by
        rw [State.view_step_self, ← Function.iterate_succ_apply]
        exact hbusy (i + 1) (by omega))
      (by
        rw [State.view_step_self, ← Function.iterate_succ_apply]
        exact hidle)
    rw [Rv32Gdb.workerJobLoop, jobTurns, if_pos ht.go, if_pos ht.go]
    simp only
    rw [if_neg hparked, if_neg hparked, List.length_cons, hlength, Function.iterate_succ_apply]
    exact ⟨hlast, hframe.trans hframe', rfl⟩

end AtTurn

/-! ### Delivery -/

/-- A write to a sync word. -/
theorem archState_ramWrite32 (m : Machine) {k : Nat} (hk : k < 12) (v : Word) :
    archState (m.updSys fun s => ramWrite32 s (syncWord k) v) 0 =
      (archState m 0).store (syncWord k) v 4 := by
  have haddr := toNat_syncWord hk
  have hin : inRam (syncWord k) 4 := (inRam_iff (Or.inr (Or.inr rfl))).mpr (by omega)
  have hall : ∀ k < 12, inRam32 (syncWord k) := by decide
  rw [store_archState m 0 _ _ (Or.inr (Or.inr rfl)), if_pos hin]
  unfold ramWrite32
  simp only [hall k hk, if_true]

theorem SyncFrame.ramWrite32 (h : Nat) (m : Machine) {k : Nat} (hk : k < 12) (v : Word) :
    SyncFrame h m (m.updSys fun s => ramWrite32 s (syncWord k) v) := by
  have hall : ∀ k < 12, inRam32 (syncWord k) := by decide
  have hstore : ∀ j, (m.updSys fun s => Rv32Gdb.ramWrite32 s (syncWord k) v).hart j =
      (m.sys.ramStore 0 (ramOffset (syncWord k)) v 4).harts j := by
    intro j
    show (Rv32Gdb.ramWrite32 m.sys (syncWord k) v).harts j = _
    rw [Rv32Gdb.ramWrite32, if_pos (hall k hk)]
  have hhart := m.sys.harts_ramStore 0 (ramOffset (syncWord k)) v 4
  refine ⟨fun j _ => ?_, fun j => ?_, fun j hj => ?_, fun a ha => ?_⟩
  · rw [hstore]
    exact hhart j
  · obtain ⟨memory, hmemory⟩ := hhart j
    rw [hstore, hmemory]
    rfl
  · rw [hstore]
    exact m.sys.memory_ramStore_of_ne hj _ _ _
  · rw [archState_ramWrite32 m hk, Rv32i.State.store]
    split_ifs
    · exact if_neg fun hin => ha (inSyncWords_of_syncWord hk hin)
    · rfl

theorem shared_ramWrite32 {ms ms' : Mailbox.State Word} {m : Machine}
    (hshared : SharedRel ms (archState m 0)) {j : Nat} (hj : j < 12) {v : Word}
    (hword : ∀ k < 12, ms'.word k = if k = j then v else ms.word k) :
    SharedRel ms' (archState (m.updSys fun s => ramWrite32 s (syncWord j) v) 0) := by
  rw [archState_ramWrite32 m hj]
  exact hshared.store hj hword

/-- `smp_deliver_ipi` posts a work item. -/
theorem smpDeliverIpi_spec {ms : Mailbox.State Word} {m : Machine}
    (hshared : SharedRel ms (archState m 0)) {w : Nat} (hpos : 0 < w) (hlt : w < m.sys.numHarts)
    (hw : w < 8) (item : Word) :
    SharedRel (ms.post w item) (archState (m.updSys fun s => smpDeliverIpi s w item) 0) ∧
      ∀ h, SyncFrame h m (m.updSys fun s => smpDeliverIpi s w item) := by
  have hdeliver : (m.updSys fun s => smpDeliverIpi s w item) =
      ((m.updSys fun s => ramWrite32 s (syncWord 1) item).updSys fun s =>
        ramWrite32 s (syncWord 2) 1).updSys fun s => ramWrite32 s (syncWord (w + 4)) 1 := by
    have hrange : ¬((w : Int) ≤ 0 ∨ (w : Int) ≥ m.sys.numHarts) := by omega
    have hitem : smpSyncBase + smpOffWorkItem = syncWord 1 := by decide
    have hready : smpSyncBase + smpOffWorkReady = syncWord 2 := by decide
    have hsys : smpDeliverIpi m.sys w item = ramWrite32 (ramWrite32 (ramWrite32 m.sys (syncWord 1)
        item) (syncWord 2) 1) (syncWord (w + 4)) 1 := by
      rw [smpDeliverIpi, if_neg hrange, Int.toNat_natCast, ipiPending_eq, hitem, hready]
    exact congrArg (fun s => m.updSys fun _ => s) hsys
  rw [hdeliver]
  constructor
  · have h₁ : SharedRel { ms with item := item }
        (archState (m.updSys fun s => ramWrite32 s (syncWord 1) item) 0) :=
      shared_ramWrite32 hshared (by decide) fun k _ => by
        rcases k with _ | _ | _ | _ | k <;> rfl
    have h₂ : SharedRel { ms with item := item, ready := 1 }
        (archState ((m.updSys fun s => ramWrite32 s (syncWord 1) item).updSys fun s =>
          ramWrite32 s (syncWord 2) 1) 0) :=
      shared_ramWrite32 h₁ (by decide) fun k _ => by rcases k with _ | _ | _ | _ | k <;> rfl
    refine shared_ramWrite32 h₂ (by omega) fun k _ => ?_
    rcases k with _ | _ | _ | _ | k
    · exact (if_neg (by omega)).symm
    · exact (if_neg (by omega)).symm
    · exact (if_neg (by omega)).symm
    · exact (if_neg (by omega)).symm
    · show Function.update ms.bell w 1 k = _
      rw [Function.update_apply]
      exact if_congr (by omega) rfl rfl
  · intro h
    exact ((SyncFrame.ramWrite32 h m (by decide) item).trans (.ramWrite32 h _ (by decide) 1)).trans
      (.ramWrite32 h _ (by omega) 1)

/-! ### A job -/

/-- The worker of hart `w` waits for work. -/
structure WaitsForWork (w : Nat) (c : Rv32Cpu) : Prop where
  running : c.running
  not_halted : ¬c.halted
  pc : c.pc = smpWorkerPoll ∨ c.pc = smpWorkerSpin
  base : c.regs regS0 = smpSyncBase
  hart : c.regs regTp = BitVec.ofNat 32 w

/-- The worker code is in the RAM. -/
def CodeIntact (s : Rv32System) : Prop :=
  ∀ k < smpWorkerCode.length,
    ramRead32 s (smpWorkerWait + BitVec.ofNat 32 k * 4) = smpWorkerCode.getD k 0

/-- From `m` to `m'` the worker of hart `w` has done the job `counter`. -/
structure JobDone (w : Nat) (counter : Word) (m m' : Machine) : Prop where
  pc : (m'.hart w).pc = smpWorkerPoll
  item : (m'.hart w).regs 9 = counter
  total : (m'.hart w).regs 18 = ramRead32 m'.sys (smpSyncBase + smpOffSharedDone)
  done : ramRead32 m'.sys (smpSyncBase + smpOffSharedDone) =
    ramRead32 m.sys (smpSyncBase + smpOffSharedDone) + 1
  lock : ramRead32 m'.sys (smpSyncBase + smpOffLock) = 0
  ready : ramRead32 m'.sys (smpSyncBase + smpOffWorkReady) = 0
  doorbell : ramRead32 m'.sys (ipiPending w) = 0
  doorbells : ∀ h < 8, h ≠ w → ramRead32 m'.sys (ipiPending h) = ramRead32 m.sys (ipiPending h)
  harts : ∀ h ≠ w, h ≠ 0 → m'.hart h = m.hart h
  hart_zero : OnlyMemory (m.hart 0) (m'.hart 0)
  ram : ∀ a, InRam a → ¬InSyncWords a → m'.sys.ram 0 (ramOffset a) = m.sys.ram 0 (ramOffset a)

theorem CodeIntact.hasWorkerCode {m : Machine} (hcode : CodeIntact m.sys) :
    HasWorkerCode (archState m 0) := by
  intro l
  have hall : ∀ l ∈ workerLocs, ∃ k < smpWorkerCode.length,
      smpWorkerWait + BitVec.ofNat 32 k * 4 = l.pc ∧ smpWorkerCode.getD k 0 = l.instr.encode ∧
        l.pc.toNat + 4 ≤ 0x80010000 := by decide +kernel
  obtain ⟨k, hk, hpc, hword, hlt⟩ := hall l (mem_workerLocs l)
  rw [← ramRead32_eq_load m hlt, ← hpc, hcode k hk, hword]

/-- The sync words as a mailbox, with the same server everywhere. -/
def mailboxOf (s : Rv32i.State) (w : Server Word) : Mailbox.State Word where
  lock := s.load (syncWord 0) 4
  item := s.load (syncWord 1) 4
  ready := s.load (syncWord 2) 4
  done := s.load (syncWord 3) 4
  bell h := s.load (syncWord (h + 4)) 4
  server _ := w

theorem sharedRel_mailboxOf (m : Machine) (w : Server Word) :
    SharedRel (mailboxOf (archState m 0) w) (archState m 0) := by
  constructor
  · intro k hk
    have haddr := toNat_syncWord hk
    exact (mapped_iff (Or.inr (Or.inr rfl))).mpr ((inRam_iff (Or.inr (Or.inr rfl))).mpr (by omega))
  · intro k hk
    rcases k with _ | _ | _ | _ | k <;> rfl

section Job

variable {connected : Bool} {m : Machine} {w : Nat} {counter : Word}

/-- After the delivery the worker is at its turn. -/
theorem atTurn_smpDeliverIpi (counter : Word) (hpos : 0 < w) (hlt : w < m.sys.numHarts)
    (hw : w < 8) (howner : m.sys.ramOwner w = m.sys.ramOwner 0)
    (hwait : WaitsForWork w (m.hart w)) (hcode : CodeIntact m.sys) : ∃ ms,
      AtTurn w (ms.post w counter) (m.updSys fun s => smpDeliverIpi s w counter) ∧
      SharedRel ms (archState m 0) ∧
      ((ms.server w).loc = .poll ∨ (ms.server w).loc = .spin) := by
  set m' := m.updSys fun s => smpDeliverIpi s w counter
  have hloc : ∃ l : Loc, (l = .poll ∨ l = .spin) ∧ (m.hart w).pc = l.pc := by
    rcases hwait.pc with hpc | hpc
    · exact ⟨.poll, Or.inl rfl, hpc⟩
    · exact ⟨.spin, Or.inr rfl, hpc⟩
  obtain ⟨l, hl, hpc⟩ := hloc
  set c := archState m w with hc
  set ms := mailboxOf (archState m 0) ⟨l, c.reg 6, 0, c.reg 7, c.reg 9, c.reg 18⟩
  have hshared : SharedRel ms (archState m 0) := sharedRel_mailboxOf m _
  obtain ⟨hposted, hframe⟩ := smpDeliverIpi_spec hshared hpos hlt hw counter
  -- the worker itself has not moved
  obtain ⟨memory, hhart⟩ := (hframe (w + 1)).hart w (by omega)
  have howner' : m'.sys.ramOwner w = m'.sys.ramOwner 0 := by
    rw [(hframe 0).ramOwner, (hframe 0).ramOwner, howner]
  have hmem := mem_archState_congr howner'
  have hreg : ∀ r, (archState m' w).reg r = c.reg r := fun r => by
    show rv32CpuReadReg (m'.hart w) r.toNat = _
    rw [hhart]
    rfl
  have hworker : WorkerRel w ((ms.post w counter).server w) (archState m' w) := by
    refine ⟨?_, ?_, ?_, hreg 6, hreg 7, hreg 9, hreg 18, fun v hv => ?_, fun haddr => ?_⟩
    · show (m'.hart w).pc = l.pc
      rw [hhart]
      exact hpc
    · exact (hreg 8).trans hwait.base
    · exact (hreg 4).trans hwait.hart
    · rcases hl with rfl | rfl <;> cases hv
    · rcases hl with rfl | rfl <;> cases haddr
  refine ⟨ms, ⟨⟨fun l => ?_, hposted.congr hmem, hworker⟩, howner', ?_, ?_⟩, hshared, hl⟩
  · rw [← hcode.hasWorkerCode l]
    refine State.load_congr fun k hk => ?_
    rw [hmem]
    exact (hframe 0).mem _ (not_inSyncWords_pc l k hk)
  · rw [hhart]
    exact hwait.running
  · rw [hhart]
    exact hwait.not_halted

/-- The job of a worker that waits. -/
theorem jobDone_workerJobLoop (hpos : 0 < w) (hlt : w < m.sys.numHarts) (hw : w < 8)
    (howner : ∀ h, h = w ∨ h = 0 → m.sys.ramOwner h = 0) (hwait : WaitsForWork w (m.hart w))
    (hcode : CodeIntact m.sys) (hlock : ramRead32 m.sys (smpSyncBase + smpOffLock) = 0)
    (hno : ∀ m' ∈ jobTurns connected w 128 (m.updSys fun s => smpDeliverIpi s w counter),
      NoHit connected m' w) :
    JobDone w counter m
        (workerJobLoop connected w 128 (m.updSys fun s => smpDeliverIpi s w counter)) ∧
      (jobTurns connected w 128 (m.updSys fun s => smpDeliverIpi s w counter)).length < 128 := by
  have howner' : m.sys.ramOwner w = m.sys.ramOwner 0 := by
    rw [howner w (Or.inl rfl), howner 0 (Or.inr rfl)]
  obtain ⟨ms, hturn, hshared, hloc⟩ :=
    atTurn_smpDeliverIpi counter hpos hlt hw howner' hwait hcode
  have hframe := (smpDeliverIpi_spec hshared hpos hlt hw counter).2 w
  set m₁ := m.updSys fun s => smpDeliverIpi s w counter
  set v := (ms.post w counter).view w with hv
  have hbell : v.bell = 1 := Function.update_self _ _ _
  have hfree : v.lock = 0 := by
    rw [← hlock]
    exact (hshared.load 0 (by decide)).symm.trans (ramRead32_syncWord m (k := 0) (by decide)).symm
  -- the job of the server
  have hjob : ∃ k ≤ 22, ∃ v', View.Busy (workerTag w) k v v' ∧
      v'.step (workerTag w) = v.served (workerTag w) :=
    View.job hloc (by rw [hbell]; decide) hfree (show (1 : Word) ≠ 0 by decide)
  obtain ⟨k, hk, v', hbusy, hlast⟩ := hjob
  have hserved : (View.step (workerTag w))^[k + 1] v = v.served (workerTag w) := by
    rw [Function.iterate_succ_apply', hbusy.iterate_step, hlast]
  obtain ⟨hend, hloop, hlength⟩ := hturn.workerJobLoop hw (by omega : k < 128) hno hbusy.not_idle
    (by rw [← hv, hserved]; exact View.idle_served)
  set m' := workerJobLoop connected w 128 m₁
  set ms' := (State.step workerTag w)^[k + 1] (ms.post w counter) with hms'
  have hview : ms'.view w = v.served (workerTag w) := by rw [hms', State.view_iterate_step, hserved]
  -- what is read is what the mailbox holds
  have hread : ∀ {k}, k < 12 → ramRead32 m'.sys (syncWord k) = ms'.word k := by
    intro k hk
    rw [ramRead32_syncWord m' hk, ← hend.inv.shared.load k hk]
    exact State.load_congr fun a _ => by rw [mem_archState_congr hend.ramOwner]
  have hread₀ : ∀ {k}, k < 12 → ramRead32 m.sys (syncWord k) = ms.word k := by
    intro k hk
    rw [ramRead32_syncWord m hk, hshared.load k hk]
  have hserver : ms'.server w = ⟨.poll, counter, workerTag w, ms.done + 1, counter, ms.done + 1⟩ :=
    congrArg View.server hview
  have hdone : ramRead32 m'.sys (smpSyncBase + smpOffSharedDone) = ms.done + 1 :=
    (hread (k := 3) (by decide)).trans (congrArg View.done hview)
  have hall := hframe.trans hloop
  refine ⟨⟨?_, ?_, ?_, ?_, ?_, ?_, ?_, ?_, ?_, hall.hart 0 (by omega), ?_⟩, by omega⟩
  · have hpc := hend.inv.worker.pc
    rwa [hserver] at hpc
  · have hitem := hend.inv.worker.item
    rwa [hserver] at hitem
  · have htotal := hend.inv.worker.total
    rw [hdone]
    rwa [hserver] at htotal
  · rw [hdone]
    exact congrArg (· + 1) (hread₀ (k := 3) (by decide)).symm
  · exact ((hread (k := 0) (by decide)).trans (congrArg View.lock hview)).trans hfree
  · exact (hread (k := 2) (by decide)).trans (congrArg View.ready hview)
  · rw [ipiPending_eq, hread (by omega)]
    exact congrArg View.bell hview
  · intro h hh hne
    rw [ipiPending_eq, hread (by omega), hread₀ (by omega)]
    show ms'.bell h = ms.bell h
    rw [hms', State.bell_iterate_step_of_ne _ hne]
    exact Function.update_of_ne hne _ _
  · intro h hne h0
    obtain ⟨memory, hmemory⟩ := hall.hart h hne
    have hsame := hall.memory h (by rwa [howner 0 (Or.inr rfl)])
    rw [hmemory] at hsame ⊢
    subst hsame
    rfl
  · intro a ha hout
    have hmem : ramAt m'.sys 0 a = ramAt m.sys 0 a := hall.mem a hout
    rw [ramAt, ramAt, if_pos ha, if_pos ha] at hmem
    exact Option.some.inj hmem

/-- A worker with a pending IPI runs. -/
theorem smpSyncRunWorkerJobs_smpDeliverIpi (hpos : 0 < w) (hlt : w < m.sys.numHarts) (hw : w < 8) :
    smpSyncRunWorkerJobs connected (m.updSys fun s => smpDeliverIpi s w counter) w =
      workerJobLoop connected w 128 (m.updSys fun s => smpDeliverIpi s w counter) := by
  set m₁ := m.updSys fun s => smpDeliverIpi s w counter
  have hposted := (smpDeliverIpi_spec (sharedRel_mailboxOf m ⟨.poll, 0, 0, 0, 0, 0⟩) hpos hlt hw
    counter).1
  have hnum : m₁.sys.numHarts = m.sys.numHarts := (SysFrame.smpDeliverIpi _ _ _).numHarts
  have hbell : ramRead32 m₁.sys (ipiPending w) ≠ 0 := by
    rw [ipiPending_eq, ramRead32_syncWord m₁ (by omega), hposted.load (w + 4) (by omega)]
    show Function.update _ w 1 w ≠ 0
    rw [Function.update_self]
    decide
  have hrange : ¬((w : Int) ≤ 0 ∨ (w : Int) ≥ m₁.sys.numHarts) := by omega
  have hrun : smpSyncWorkerShouldRun m₁.sys w := by
    rw [smpSyncWorkerShouldRun, if_neg hrange, Int.toNat_natCast]
    simp only
    split_ifs
    · rfl
    · exact decide_eq_true hbell
  rw [smpSyncRunWorkerJobs, if_neg hrange, hrun, Int.toNat_natCast]
  rfl

/-- The worker that `smp_worker_target` selects. -/
def selectedWorker (n : Nat) (counter : Word) : Nat := counter.toNat % (n - 1) + 1

theorem selectedWorker_lt {n : Nat} (hn : n = 2 ∨ n = 4 ∨ n = 8) (counter : Word) :
    selectedWorker n counter < n := by
  have hmod := Nat.mod_lt counter.toNat (show 0 < n - 1 by omega)
  unfold selectedWorker
  omega

theorem smpWorkerTarget_eq {n : Nat} (hn : n = 2 ∨ n = 4 ∨ n = 8) {s : Rv32System}
    (hnum : s.numHarts = n) (counter : Word) :
    smpWorkerTarget s counter = selectedWorker n counter := by
  rw [smpWorkerTarget, if_neg (by omega), hnum, selectedWorker]
  push_cast
  rfl

/-- The loop store of hart `0`: a delivery and the loop of the worker. -/
theorem smpSyncOnCounterStore_eq {n : Nat} (hn : n = 2 ∨ n = 4 ∨ n = 8)
    (hnum : m.sys.numHarts = n) : smpSyncOnCounterStore connected m 0 counter =
      workerJobLoop connected (selectedWorker n counter) 128
        (m.updSys fun s => smpDeliverIpi s (selectedWorker n counter) counter) := by
  have hlt := selectedWorker_lt hn counter
  have hpos : 0 < selectedWorker n counter := Nat.succ_pos _
  have htarget := smpWorkerTarget_eq hn hnum counter
  rw [smpSyncOnCounterStore, if_neg (by omega)]
  simp only [htarget]
  rw [if_neg (by omega), smpSyncRunWorkerJobs_smpDeliverIpi hpos (by omega) (by omega)]

/-- A job posted by hart `0` is done within the guard of the loop. -/
theorem jobDone_smpSyncOnCounterStore {n : Nat} (hn : n = 2 ∨ n = 4 ∨ n = 8)
    (hnum : m.sys.numHarts = n) (howner : ∀ h < n, m.sys.ramOwner h = 0)
    (hwait : WaitsForWork (selectedWorker n counter) (m.hart (selectedWorker n counter)))
    (hcode : CodeIntact m.sys) (hlock : ramRead32 m.sys (smpSyncBase + smpOffLock) = 0)
    (hno : ∀ m' ∈ jobTurns connected (selectedWorker n counter) 128
      (m.updSys fun s => smpDeliverIpi s (selectedWorker n counter) counter),
      NoHit connected m' (selectedWorker n counter)) :
    JobDone (selectedWorker n counter) counter m (smpSyncOnCounterStore connected m 0 counter) ∧
      (jobTurns connected (selectedWorker n counter) 128
        (m.updSys fun s => smpDeliverIpi s (selectedWorker n counter) counter)).length < 128 := by
  have hlt := selectedWorker_lt hn counter
  rw [smpSyncOnCounterStore_eq hn hnum]
  exact jobDone_workerJobLoop (Nat.succ_pos _) (by omega) (by omega)
    (fun h hh => howner h (by omega)) hwait hcode hlock hno

/-- Without watchpoints no worker hits one. -/
theorem noHit_of_mem_jobTurns {m' : Machine} {guard : Nat}
    (hnone : m.dbg.watchpoints = (DebugState.init .x32).watchpoints)
    (hm' : m' ∈ jobTurns connected w guard m) : NoHit connected m' w := by
  have hframe := (execFrame_workerJobLoop connected w guard m).2 m' hm'
  have hmiss : ∀ kind addr size, accessHit connected m'.dbg kind addr size = none := by
    intro kind addr size
    rw [hframe.dbg, accessHit, DebugState.watchpointFor, hnone]
    split_ifs <;> rfl
  exact ⟨hmiss _ _ _, fun _ _ _ _ => hmiss _ _ _⟩

end Job

/-- The first job of the demo with two harts. -/
theorem jobDone_smpSyncOnCounterStore_loadedSession :
    let m := (loadedSession 2 []).world.toTarget
    JobDone (selectedWorker 2 7) 7 m (smpSyncOnCounterStore true m 0 7) ∧
      (jobTurns true (selectedWorker 2 7) 128
        (m.updSys fun s => smpDeliverIpi s (selectedWorker 2 7) 7)).length < 128 := by
  refine jobDone_smpSyncOnCounterStore (Or.inl rfl) rfl ?_ ?_ ?_ ?_ ?_
  · decide +kernel
  · exact ⟨by decide +kernel, by decide +kernel, Or.inl (by decide +kernel), by decide +kernel,
      by decide +kernel⟩
  · unfold CodeIntact
    decide +kernel
  · decide +kernel
  · intro m' hm'
    exact noHit_of_mem_jobTurns rfl hm'

end Rv32Gdb
