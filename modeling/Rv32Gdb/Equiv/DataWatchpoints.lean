import Rv32Gdb.Equiv.Decode
import Rv32Gdb.Equiv.TablePackets
import Rv32Gdb.Equiv.WatchpointStops

/-!
# What halts a hart

`halted_rv32CpuStep_iff`: an instruction halts its hart if its fetch or its data access overlaps a
watchpoint, or if the decoder takes it for `EBREAK`.  `haltsExactly_iff` says when that is the same
as `EBREAK` or a data access that overlaps a watchpoint, and the fetch triggers none.
-/

namespace Rv32Gdb

open Rv32i

/-! ### Overlapping an enabled watchpoint -/

/-- One of the bytes of an access is one of those of an enabled watchpoint of a matching type. -/
def DebugState.Overlapped (d : DebugState .x32) (kind : AccessKind) (addr : Word) (size : Nat) :
    Prop :=
  ∃ slot ∈ d.watchpoints.slots, slot.enabled ∧
    (slot.key.type = kind.watchpointType ∨ slot.key.type = .access) ∧
    ∃ b, (addr.toNat ≤ b ∧ b < addr.toNat + size) ∧
      (slot.key.addr.toNat ≤ b ∧ b < slot.key.addr.toNat + slot.key.len.toNat)

theorem overlapped_congr {d d' : DebugState .x32} (h : d'.watchpoints = d.watchpoints)
    {kind : AccessKind} {addr : Word} {size : Nat} :
    d'.Overlapped kind addr size ↔ d.Overlapped kind addr size := by
  rw [DebugState.Overlapped, h, DebugState.Overlapped]

/-- The check of an access finds the watchpoints that it overlaps. -/
theorem isSome_accessHit_iff {d : DebugState .x32} {kind : AccessKind} {addr : Word} {size : Nat}
    (hsize : size < 2 ^ 32) :
    (accessHit true d kind addr size).isSome ↔ d.Overlapped kind addr size := by
  have hlen : (BitVec.ofNat 32 size).toNat = size := by
    rw [BitVec.toNat_ofNat, Nat.mod_eq_of_lt hsize]
  constructor
  · intro h
    obtain ⟨a, ha⟩ := Option.isSome_iff_exists.mp h
    obtain ⟨slot, hmem, henabled, htype, hoverlap, -⟩ := watches_of_accessHit ha
    have hbyte := (rangesOverlap_iff _ _ _ _).mp hoverlap
    rw [hlen] at hbyte
    exact ⟨slot, hmem, henabled, htype, hbyte⟩
  · rintro ⟨slot, hmem, henabled, htype, hbyte⟩
    rw [← hlen] at hbyte
    obtain ⟨a, ha⟩ := accessHit_of_watches
      ⟨slot, hmem, henabled, htype, (rangesOverlap_iff _ _ _ _).mpr hbyte, rfl⟩
    exact Option.isSome_iff_exists.mpr ⟨a, ha⟩

/-- The check in front of an access halts the hart on a hit. -/
theorem halted_checkAccess_iff {m : Machine} {kind : AccessKind} {h : Nat} {addr : Word}
    {size : Nat} (hsize : size < 2 ^ 32) :
    ((checkAccess kind true m h addr size).hart h).halted ↔
      (m.hart h).halted ∨ m.dbg.Overlapped kind addr size := by
  rw [← isSome_accessHit_iff hsize]
  cases hhit : accessHit true m.dbg kind addr size with
  | none =>
    rw [checkAccess_of_none hhit]
    exact (or_iff_left Bool.false_ne_true).symm
  | some a =>
    rw [checkAccess_of_some hhit, recordHit, Target.hart_updHart, if_pos rfl]
    exact iff_of_true rfl (Or.inr rfl)

/-! ### The instructions -/

/-- The words that the decoder takes for `EBREAK`: it does not look at the register fields. -/
def decodedAsEbreak (i : Word) : Bool := i &&& 0x7F = 0x73 ∧ funct3Field i = 0 ∧ immI i = 1

theorem halted_execHart_iff (currentPc i : Word) (c : Rv32Cpu) :
    (execHart currentPc i c).halted ↔ c.halted ∨ decodedAsEbreak i := by
  by_cases hop : i &&& 0x7F = 0x73
  · have hsystem : execHart currentPc i c = if funct3Field i = 0 ∧ immI i = 1 then c.halt else c := by
      unfold execHart
      simp only [hop]
      rfl
    rw [hsystem, decodedAsEbreak]
    split_ifs with hbreak
    · exact iff_of_true rfl (Or.inr (decide_eq_true ⟨hop, hbreak⟩))
    · refine (or_iff_left fun h => hbreak ?_).symm
      exact (of_decide_eq_true h).2
  · rw [halted_execHart _ _ _ hop]
    refine (or_iff_left fun h => hop ?_).symm
    exact (of_decide_eq_true h).1

theorem loadSize_lt {funct3 : Word} {size : Nat} (h : loadSize funct3 = some size) :
    size < 2 ^ 32 := by
  unfold loadSize at h
  split_ifs at h <;> cases h <;> decide

theorem storeSize_lt {funct3 : Word} {size : Nat} (h : storeSize funct3 = some size) :
    size < 2 ^ 32 := by
  unfold storeSize at h
  split_ifs at h <;> cases h <;> decide

/-- A load halts its hart if it overlaps a watchpoint. -/
theorem halted_execLoad_iff {m : Machine} {h : Nat} {i : Word} :
    ((execLoad true m h i).hart h).halted ↔ (m.hart h).halted ∨
      ∃ size, loadSize (funct3Field i) = some size ∧ m.dbg.Overlapped .load
        (rv32CpuReadReg (m.hart h) (rs1Field i) + signExtend (immI i) 12) size := by
  rw [execLoad]
  cases hsize : loadSize (funct3Field i) with
  | none =>
    simp only
    rw [Target.hart_updHart, if_pos rfl, (hartId_rv32CpuWriteReg _ _ _).2]
    refine (or_iff_left ?_).symm
    rintro ⟨size, hnone, -⟩
    cases hnone
  | some size =>
    simp only [snd_rv32CpuReadMem]
    rw [Target.hart_updHart, if_pos rfl, (hartId_rv32CpuWriteReg _ _ _).2,
      halted_checkAccess_iff (loadSize_lt hsize)]
    simp only [Option.some.injEq, exists_eq_left']
    rfl

theorem halted_ramStore (m : Machine) (h : Nat) (off : BitVec 16) (value : Word) (size : Nat) :
    ((m.updSys fun s => s.ramStore h off value size).hart h).halted = (m.hart h).halted := by
  obtain ⟨memory, hmemory⟩ := m.sys.harts_ramStore h off value size h
  show ((m.sys.ramStore h off value size).harts h).halted = _
  rw [hmemory]
  rfl

/-- A store halts its hart if it overlaps a watchpoint. -/
theorem halted_execStore_iff {m : Machine} {h : Nat} {i : Word} :
    ((execStore true m h i).hart h).halted ↔ (m.hart h).halted ∨
      ∃ size, storeSize (funct3Field i) = some size ∧ m.dbg.Overlapped .store
        (rv32CpuReadReg (m.hart h) (rs1Field i) + signExtend (immS i) 12) size := by
  rw [execStore]
  cases hsize : storeSize (funct3Field i) with
  | none =>
    refine (or_iff_left ?_).symm
    rintro ⟨size, hnone, -⟩
    cases hnone
  | some size =>
    simp only [rv32CpuWriteMem, Option.some.injEq, exists_eq_left']
    set addr := rv32CpuReadReg (m.hart h) (rs1Field i) + signExtend (immS i) 12
    have hcheck := @halted_checkAccess_iff (m.log (.access h .store addr size)) .store h addr _
      (storeSize_lt hsize)
    split_ifs
    · rw [halted_ramStore]
      exact hcheck
    · exact hcheck

/-- An access whose size is known or not. -/
theorem exists_access_iff {size : Option Nat} {kind : AccessKind} {addr : Word}
    {P : AccessKind → Word → Nat → Prop} :
    (∃ kind' addr' n, size.map (fun n => (kind, addr, n)) = some (kind', addr', n) ∧
        P kind' addr' n) ↔ ∃ n, size = some n ∧ P kind addr n := by
  constructor
  · rintro ⟨kind', addr', n, hmap, hP⟩
    obtain ⟨n', hsize, heq⟩ := Option.map_eq_some_iff.mp hmap
    cases heq
    exact ⟨n, hsize, hP⟩
  · rintro ⟨n, rfl, hP⟩
    exact ⟨kind, addr, n, rfl, hP⟩

/-- An instruction halts its hart if its fetch or its data access overlaps a watchpoint, or if the
decoder takes it for `EBREAK`. -/
theorem halted_rv32CpuStep_iff {m : Machine} {h : Nat} (hrun : (m.hart h).running) :
    ((rv32CpuStep true m h).hart h).halted ↔
      (m.hart h).halted ∨ m.dbg.Overlapped .load (m.hart h).pc 4 ∨ decodedAsEbreak (fetched m h) ∨
        ∃ kind addr size, pendingAccess m h = some (kind, addr, size) ∧
          m.dbg.Overlapped kind addr size := by
  have hfetch : ((afterFetch true m h).hart h).halted ↔
      (m.hart h).halted ∨ m.dbg.Overlapped .load (m.hart h).pc 4 := by
    rw [afterFetch, Target.hart_updHart, if_pos rfl]
    exact halted_checkAccess_iff (m := m.log _) (by decide)
  have hwatch : (afterFetch true m h).dbg.watchpoints = m.dbg.watchpoints := by
    have hframe := ExecFrame.checkAccess .load true (m.log (.exec h (m.hart h).pc)) h (m.hart h).pc 4
    show (checkAccess .load true (m.log (.exec h (m.hart h).pc)) h (m.hart h).pc 4).dbg.watchpoints
      = _
    rw [hframe.dbg]
    rfl
  have hregs : ∀ reg, rv32CpuReadReg ((afterFetch true m h).hart h) reg =
      rv32CpuReadReg (m.hart h) reg := by
    intro reg
    obtain ⟨b, hb⟩ := hart_afterFetch true m h
    rw [hb, if_pos rfl]
    rfl
  rw [rv32CpuStep_of_running true hrun, pendingAccess, ← or_assoc, ← hfetch]
  have hother : ∀ opcode : Word, fetched m h &&& 0x7F = opcode → opcode ≠ 0x73 →
      ¬decodedAsEbreak (fetched m h) := by
    intro opcode hop hne hbreak
    exact hne (hop.symm.trans (of_decide_eq_true hbreak).1)
  by_cases hload : fetched m h &&& 0x7F = 0x03
  · rw [if_pos hload, halted_execLoad_iff, hregs, or_iff_right (hother _ hload (by decide))]
    simp only [if_pos hload, exists_access_iff, overlapped_congr hwatch]
  · rw [if_neg hload]
    by_cases hstore : fetched m h &&& 0x7F = 0x23
    · rw [if_pos hstore, halted_execStore_iff, hregs, or_iff_right (hother _ hstore (by decide))]
      simp only [if_neg hload, if_pos hstore, exists_access_iff, overlapped_congr hwatch]
    · rw [if_neg hstore, Target.hart_updHart, if_pos rfl, halted_execHart_iff]
      simp only [if_neg hload, if_neg hstore]
      refine or_congr_right (or_iff_left ?_).symm
      rintro ⟨kind, addr, size, hnone, -⟩
      cases hnone

/-! ### Main result -/

/-- What is to halt a hart: `EBREAK`, or a data access that overlaps a watchpoint. -/
def ShouldHalt (m : Machine) (h : Nat) : Prop :=
  fetched m h = iType 1 0 0b000 0 0b1110011 ∨ ∃ kind addr size,
    pendingAccess m h = some (kind, addr, size) ∧ m.dbg.Overlapped kind addr size

/-- The fetch of the next instruction triggers no watchpoint: `rv32CpuStep` reads the word and that
changes nothing. -/
def FetchSilent (m : Machine) (h : Nat) : Prop :=
  let current := m.log (.exec h (m.hart h).pc)
  (rv32CpuReadMem true current h (m.hart h).pc 4).2 = current

/-- An instruction halts its hart when it should and only then, and its fetch triggers nothing. -/
def HaltsExactly (m : Machine) (h : Nat) : Prop :=
  (((rv32CpuStep true m h).hart h).halted ↔ ShouldHalt m h) ∧ FetchSilent m h

/-- The fetch triggers no watchpoint unless it overlaps one. -/
theorem fetchSilent_iff {m : Machine} {h : Nat} (hhalted : ¬(m.hart h).halted) :
    FetchSilent m h ↔ ¬m.dbg.Overlapped .load (m.hart h).pc 4 := by
  rw [FetchSilent, snd_rv32CpuReadMem]
  constructor
  · intro hsame hover
    have hhalt := (@halted_checkAccess_iff (m.log (.exec h (m.hart h).pc)) .load h (m.hart h).pc 4
      (by decide)).mpr (Or.inr hover)
    rw [hsame] at hhalt
    exact hhalted hhalt
  · intro hnone
    refine checkAccess_of_none (Option.not_isSome_iff_eq_none.mp fun hsome => hnone ?_)
    exact (isSome_accessHit_iff (by decide)).mp hsome

/-- `EBREAK` is decoded as such. -/
theorem decodedAsEbreak_ebreak : decodedAsEbreak (iType 1 0 0b000 0 0b1110011) := by decide

/-- A word that is decoded as `EBREAK` makes no data access. -/
theorem pendingAccess_of_decodedAsEbreak {m : Machine} {h : Nat}
    (hbreak : decodedAsEbreak (fetched m h)) : pendingAccess m h = none := by
  have hop : fetched m h &&& 0x7F = 0x73 := (of_decide_eq_true hbreak).1
  rw [pendingAccess]
  simp only [hop]
  rfl

/-- An instruction halts its hart when it should and only then, and its fetch triggers no
watchpoint, if and only if the fetch overlaps none and the decoder takes no other word for
`EBREAK`. -/
theorem haltsExactly_iff {m : Machine} {h : Nat} (hrun : (m.hart h).running)
    (hhalted : ¬(m.hart h).halted) :
    HaltsExactly m h ↔ ¬m.dbg.Overlapped .load (m.hart h).pc 4 ∧
      (decodedAsEbreak (fetched m h) → fetched m h = iType 1 0 0b000 0 0b1110011) := by
  rw [HaltsExactly, fetchSilent_iff hhalted, and_comm]
  refine and_congr_right fun hfetch => ?_
  rw [halted_rv32CpuStep_iff hrun, or_iff_right hhalted, or_iff_right hfetch]
  constructor
  · intro hiff hdecoded
    rcases hiff.mp (Or.inl hdecoded) with hword | ⟨kind, addr, size, hpending, -⟩
    · exact hword
    · rw [pendingAccess_of_decodedAsEbreak hdecoded] at hpending
      cases hpending
  · intro himp
    refine or_congr_left ⟨himp, fun hword => ?_⟩
    rw [hword]
    exact decodedAsEbreak_ebreak

/-- A hart whose next instruction is `w`, and a watchpoint on four bytes. -/
def watchedMachine (w addr : Word) (type : WatchpointType) : Machine :=
  { wordMachine w with dbg := (gdbStubAddWatchpoint (wordMachine w).dbg addr 4 type).2 }

/-- `SW x2, 0(x2)` with a watchpoint on the word that it stores. -/
theorem haltsExactly_watchedMachine :
    let m := watchedMachine 0x00212023 0x8000fffc .write
    ShouldHalt m 0 ∧ HaltsExactly m 0 := by
  intro m
  have hdata : ShouldHalt m 0 := by
    refine Or.inr ⟨.store, 0x8000fffc, 4, by decide +kernel,
      ⟨⟨0x8000fffc, 4, .write⟩, true⟩, ?_⟩
    exact ⟨by decide +kernel, rfl, Or.inl rfl, 0x8000fffc, by decide, by decide⟩
  refine ⟨hdata, ?_⟩
  refine (@haltsExactly_iff m 0 (by decide +kernel) (by decide +kernel)).mpr ⟨?_, ?_⟩
  · rw [← isSome_accessHit_iff (by decide)]
    decide +kernel
  · intro hdecoded
    have hother : ¬decodedAsEbreak (fetched m 0) := by decide +kernel
    exact absurd hdecoded hother

/-- `NOP` and `EBREAK` with a read watchpoint on their own word: the one halts its hart, the other
would do so anyway, and both fetches trigger the watchpoint. -/
theorem not_haltsExactly_watchedMachine :
    (let m := watchedMachine 0x00000013 0x80000000 .read;
      (m.hart 0).running ∧ ¬(m.hart 0).halted ∧ fetched m 0 = 0x00000013 ∧
        ((rv32CpuStep true m 0).hart 0).halted ∧ ¬ShouldHalt m 0) ∧
    (let m := watchedMachine 0x00100073 0x80000000 .read;
      (m.hart 0).running ∧ ¬(m.hart 0).halted ∧ ShouldHalt m 0 ∧ ¬FetchSilent m 0) ∧
    ¬∀ m : Machine, (m.hart 0).running → ¬(m.hart 0).halted → HaltsExactly m 0 := by
  have hnop : let m := watchedMachine 0x00000013 0x80000000 .read;
      (m.hart 0).running ∧ ¬(m.hart 0).halted ∧ fetched m 0 = 0x00000013 ∧
        ((rv32CpuStep true m 0).hart 0).halted ∧ ¬ShouldHalt m 0 := by
    intro m
    have hword : fetched m 0 = 0x00000013 := by decide +kernel
    refine ⟨by decide +kernel, by decide +kernel, hword, by decide +kernel, ?_⟩
    rintro (hbreak | ⟨kind, addr, size, hpending, -⟩)
    · rw [hword] at hbreak
      exact absurd hbreak (by decide)
    · have hnone : pendingAccess m 0 = none := by decide +kernel
      rw [hnone] at hpending
      cases hpending
  refine ⟨hnop, ?_, fun hall => ?_⟩
  · intro m
    have hhalted : ¬(m.hart 0).halted := by decide +kernel
    refine ⟨by decide +kernel, hhalted, Or.inl (by decide +kernel), ?_⟩
    rw [fetchSilent_iff hhalted, not_not, ← isSome_accessHit_iff (by decide)]
    decide +kernel
  · obtain ⟨hrun, hhalted, -, hhalt, hshould⟩ := hnop
    exact hshould ((hall _ hrun hhalted).1.mp hhalt)

end Rv32Gdb
