import Rv32Gdb.Equiv.Cpu

/-!
# The RAM

The bounds check of the CPU in numbers (`inRam_iff`), and what a store does to the bytes that the
harts see (`ram_ramStore`): harts that share the stored RAM see byte `k` of the value at `k` bytes
from the address, and everything else is as before.
-/

namespace Rv32Gdb

/-! ### Addresses -/

/-- The sizes of the accesses. -/
def AccessSize (size : Nat) : Prop := size = 1 ∨ size = 2 ∨ size = 4

/-- The addresses of the RAM. -/
def InRam (a : Word) : Prop := ramBase ≤ a ∧ a < ramBase + ramSize

instance (a : Word) : Decidable (InRam a) := instDecidableAnd

theorem inRamAddr_iff {a : Word} : InRam a ↔ 0x80000000 ≤ a.toNat ∧ a.toNat < 0x80010000 := by
  unfold InRam ramBase ramSize
  rw [BitVec.le_def, BitVec.lt_def]
  simp

/-- The bounds check of an access. -/
theorem inRam_iff {a : Word} {size : Nat} (hsize : AccessSize size) :
    inRam a size ↔ 0x80000000 ≤ a.toNat ∧ a.toNat + size ≤ 0x80010000 := by
  have hbase : ramBase.toNat = 0x80000000 := rfl
  have htop : (ramBase + ramSize - BitVec.ofNat 32 size + 1).toNat = 0x80010001 - size := by
    rcases hsize with rfl | rfl | rfl <;> rfl
  unfold inRam
  rw [Bool.and_eq_true, decide_eq_true_iff, decide_eq_true_iff, BitVec.le_def, BitVec.lt_def, hbase,
    htop]
  unfold AccessSize at hsize
  omega

theorem ramOffset_add (a k : Word) : ramOffset (a + k) = ramOffset a + k.setWidth 16 := by
  unfold ramOffset
  rw [← BitVec.setWidth_add _ _ (by decide)]
  congr 1
  rw [BitVec.sub_eq_add_neg, BitVec.sub_eq_add_neg, BitVec.add_assoc, BitVec.add_assoc,
    BitVec.add_comm k]

theorem toNat_ramOffset {a : Word} (ha : InRam a) : (ramOffset a).toNat = a.toNat - 0x80000000 := by
  have hlt := a.isLt
  have hbase : ramBase.toNat = 0x80000000 := rfl
  rw [inRamAddr_iff] at ha
  rw [ramOffset, BitVec.toNat_setWidth, BitVec.toNat_sub, hbase]
  omega

/-- The distance of an address from an access inside the RAM, in offsets. -/
theorem toNat_ramOffset_sub {a b : Word} {size : Nat} (hsize : AccessSize size)
    (hin : inRam a size) (hb : InRam b) :
    ((ramOffset b - ramOffset a).toNat < size ↔ (b - a).toNat < size) ∧
      ((b - a).toNat < size → (ramOffset b - ramOffset a).toNat = (b - a).toNat) := by
  have hsmall : 1 ≤ size ∧ size ≤ 4 := by
    unfold AccessSize at hsize
    omega
  have halt := a.isLt
  have hblt := b.isLt
  rw [inRam_iff hsize] at hin
  have hoffa : (ramOffset a).toNat = a.toNat - 0x80000000 :=
    toNat_ramOffset (inRamAddr_iff.mpr (by omega))
  have hoffb := toNat_ramOffset hb
  rw [inRamAddr_iff] at hb
  rw [BitVec.toNat_sub, BitVec.toNat_sub, hoffa, hoffb]
  omega

/-! ### Stores -/

namespace Rv32System

theorem harts_setRam (s : Rv32System) (h : Nat) (off : BitVec 16) (b : Byte) (k : Nat) :
    ∃ memory, (s.setRam h off b).harts k = { s.harts k with memory := memory } := by
  rw [setRam, harts_updHart]
  split_ifs with hk
  · rw [hk]
    exact ⟨_, rfl⟩
  · exact ⟨(s.harts k).memory, rfl⟩

/-- A store concerns the memory of the harts only. -/
theorem harts_ramStore (s : Rv32System) (h : Nat) (off : BitVec 16) (v : Word) (size k : Nat) :
    ∃ memory, (s.ramStore h off v size).harts k = { s.harts k with memory := memory } := by
  have htwice : ∀ (s : Rv32System) (off₁ off₂ : BitVec 16) (b₁ b₂ : Byte),
      ∃ memory, ((s.setRam h off₁ b₁).setRam h off₂ b₂).harts k =
        { s.harts k with memory := memory } := by
    intro s off₁ off₂ b₁ b₂
    obtain ⟨memory₁, h₁⟩ := harts_setRam s h off₁ b₁ k
    obtain ⟨memory₂, h₂⟩ := harts_setRam (s.setRam h off₁ b₁) h off₂ b₂ k
    exact ⟨memory₂, by rw [h₂, h₁]⟩
  unfold ramStore
  split
  · exact harts_setRam _ _ _ _ _
  · exact htwice _ _ _ _ _
  · obtain ⟨memory₁, h₁⟩ := htwice s off (off + 1) (v.setWidth 8) ((v >>> 8).setWidth 8)
    obtain ⟨memory₂, h₂⟩ := htwice _ (off + 2) (off + 3) ((v >>> 16).setWidth 8)
      ((v >>> 24).setWidth 8)
    exact ⟨memory₂, h₂.trans (by rw [h₁])⟩
  · exact ⟨(s.harts k).memory, rfl⟩

theorem ramOwner_setRam (s : Rv32System) (h : Nat) (off : BitVec 16) (b : Byte) (k : Nat) :
    (s.setRam h off b).ramOwner k = s.ramOwner k := by
  obtain ⟨memory, hk⟩ := harts_setRam s h off b k
  rw [ramOwner, hk]
  rfl

/-- A store goes to the memory that owns the RAM. -/
theorem memory_ramStore_of_ne (s : Rv32System) {h k : Nat} (hk : k ≠ s.ramOwner h)
    (off : BitVec 16) (v : Word) (size : Nat) :
    ((s.ramStore h off v size).harts k).memory = (s.harts k).memory := by
  have hset : ∀ {s : Rv32System} (off : BitVec 16) (b : Byte), k ≠ s.ramOwner h →
      k ≠ (s.setRam h off b).ramOwner h ∧
        ((s.setRam h off b).harts k).memory = (s.harts k).memory := by
    intro s off b hk
    rw [ramOwner_setRam, setRam, harts_updHart, if_neg hk]
    exact ⟨hk, rfl⟩
  unfold ramStore
  split
  · exact (hset _ _ hk).2
  · have h₁ := hset off (v.setWidth 8) hk
    exact (hset _ _ h₁.1).2.trans h₁.2
  · have h₁ := hset off (v.setWidth 8) hk
    have h₂ := hset (off + 1) ((v >>> 8).setWidth 8) h₁.1
    have h₃ := hset (off + 2) ((v >>> 16).setWidth 8) h₂.1
    exact (((hset _ _ h₃.1).2.trans h₃.2).trans h₂.2).trans h₁.2
  · rfl

theorem ram_setRam (s : Rv32System) (h : Nat) (off : BitVec 16) (b : Byte) (k : Nat)
    (off' : BitVec 16) : (s.setRam h off b).ram k off' =
      if s.ramOwner k = s.ramOwner h ∧ off' = off then b else s.ram k off' := by
  rw [ram, ramOwner_setRam, setRam, harts_updHart]
  by_cases hk : s.ramOwner k = s.ramOwner h
  · rw [if_pos hk]
    show Function.update (s.harts (s.ramOwner h)).memory off b off' = _
    rw [Function.update_apply, ram, hk]
    simp
  · rw [if_neg hk, if_neg fun h => hk h.1, ram]

/-- A store writes byte `k` of the value at `k` bytes from the offset. -/
theorem ram_ramStore (s : Rv32System) (h : Nat) (off : BitVec 16) (v : Word) {size : Nat}
    (hsize : AccessSize size) (k : Nat) (off' : BitVec 16) :
    (s.ramStore h off v size).ram k off' =
      if s.ramOwner k = s.ramOwner h ∧ (off' - off).toNat < size then
        (v >>> (8 * (off' - off).toNat)).setWidth 8
      else s.ram k off' := by
  obtain ⟨d, rfl⟩ : ∃ d, off' = off + d :=
    ⟨off' - off, by rw [BitVec.add_comm, BitVec.sub_add_cancel]⟩
  have hd : off + d - off = d := by rw [BitVec.add_comm, BitVec.add_sub_cancel]
  have heq : ∀ n : Nat, n < 4 → (off + d = off + BitVec.ofNat 16 n ↔ d.toNat = n) := by
    intro n hn
    rw [BitVec.add_right_inj, ← BitVec.toNat_inj, BitVec.toNat_ofNat, Nat.mod_eq_of_lt (by omega)]
  have heq0 : off + d = off ↔ d.toNat = 0 := by simpa using heq 0 (by decide)
  have heq1 : off + d = off + 1 ↔ d.toNat = 1 := heq 1 (by decide)
  have heq2 : off + d = off + 2 ↔ d.toNat = 2 := heq 2 (by decide)
  have heq3 : off + d = off + 3 ↔ d.toNat = 3 := heq 3 (by decide)
  -- the byte is one of those stored, or beyond them
  have hcases : d.toNat = 0 ∨ d.toNat = 1 ∨ d.toNat = 2 ∨ d.toNat = 3 ∨ 4 ≤ d.toNat := by omega
  rw [hd]
  by_cases hk : s.ramOwner k = s.ramOwner h
  · rcases hsize with rfl | rfl | rfl
    · simp only [ramStore, ram_setRam, hk, true_and, heq0, Nat.lt_one_iff]
      refine if_ctx_congr Iff.rfl (fun h0 => ?_) fun _ => rfl
      rw [h0]
      simp
    · simp only [ramStore, ram_setRam, ramOwner_setRam, hk, true_and, heq0, heq1]
      rcases hcases with h0 | h0 | h0 | h0 | h0
      · simp [h0]
      · simp [h0]
      · simp [h0]
      · simp [h0]
      · rw [if_neg (by omega), if_neg (by omega), if_neg (by omega)]
    · simp only [ramStore, ram_setRam, ramOwner_setRam, hk, true_and, heq0, heq1, heq2, heq3]
      rcases hcases with h0 | h0 | h0 | h0 | h0
      · simp [h0]
      · simp [h0]
      · simp [h0]
      · simp [h0]
      · rw [if_neg (by omega), if_neg (by omega), if_neg (by omega), if_neg (by omega),
          if_neg (by omega)]
  · -- the RAM of other harts stays
    rcases hsize with rfl | rfl | rfl <;>
      simp only [ramStore, ram_setRam, ramOwner_setRam, hk, false_and, if_false]

theorem ramLoad_congr {s s' : Rv32System} {h : Nat} (hram : ∀ off, s'.ram h off = s.ram h off)
    (off : BitVec 16) (size : Nat) : s'.ramLoad h off size = s.ramLoad h off size := by
  unfold ramLoad
  split <;> simp only [hram]

end Rv32System

/-! ### The debugger -/

/-- The byte that the debugger loads. -/
def debugByte (connected : Bool) (m : Machine) (a : Word) : Byte :=
  (sysReadMem connected m a 1).1.setWidth 8

/-- What the debugger reads depends on the RAM of hart `0` only. -/
theorem fst_sysReadMem_congr {m m' : Machine} (hram : ∀ off, m'.sys.ram 0 off = m.sys.ram 0 off)
    (c c' : Bool) (a : Word) (size : Nat) :
    (sysReadMem c' m' a size).1 = (sysReadMem c m a size).1 := by
  have hload := Rv32System.ramLoad_congr hram
  unfold sysReadMem
  split_ifs
  · unfold smpSyncReadRam
    simp only [hload]
  · unfold smpSyncReadMmio ramRead32
    simp only [hload]
  · rw [fst_rv32CpuReadMem, fst_rv32CpuReadMem]
    simp only [hload]

end Rv32Gdb
