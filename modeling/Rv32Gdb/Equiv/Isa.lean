import Rv32Gdb.Equiv.Execution
import Rv32Gdb.Equiv.Ram
import Rv32Gdb.Rv32i

/-!
# The CPU implements RV32I

`archState` is what the instruction set sees of a hart: its program counter, its registers and its
RAM.  `rv32CpuStep_encode`: when the RAM at the program counter of a running hart holds the encoding
of an instruction, a step of the hart executes that instruction.

The fields that `rv32CpuStep` cuts out of the instruction word by shifts and masks are slices of
the word (`ushiftRight_and`), so that the encodings determine them; `signExtend_setWidth` is the
sign extension of an immediate of any width.
-/

namespace Rv32Gdb

open Rv32i

/-! ### Fields of the instruction word -/

/-- A shift and a mask cut out a slice. -/
theorem ushiftRight_and (i : Word) (s n : Nat) :
    i >>> s &&& BitVec.ofNat 32 (2 ^ n - 1) = (i.extractLsb' s n).setWidth 32 := by
  apply BitVec.eq_of_getLsbD_eq
  intro j hj
  simp only [BitVec.getLsbD_and, BitVec.getLsbD_ushiftRight, BitVec.getLsbD_ofNat,
    Nat.testBit_two_pow_sub_one, BitVec.getLsbD_setWidth, BitVec.getLsbD_extractLsb', hj,
    decide_true, Bool.true_and]
  rw [Bool.and_comm]

theorem opcode_eq (i : Word) : i &&& 0x7F = (i.extractLsb' 0 7).setWidth 32 := by
  have h := ushiftRight_and i 0 7
  rwa [BitVec.ushiftRight_zero] at h

theorem rdField_eq (i : Word) : rdField i = (i.extractLsb' 7 5).toNat := by
  have h : i >>> 7 &&& 0x1F = (i.extractLsb' 7 5).setWidth 32 := ushiftRight_and i 7 5
  rw [rdField, h, BitVec.toNat_setWidth_of_le (by decide)]

theorem rs1Field_eq (i : Word) : rs1Field i = (i.extractLsb' 15 5).toNat := by
  have h : i >>> 15 &&& 0x1F = (i.extractLsb' 15 5).setWidth 32 := ushiftRight_and i 15 5
  rw [rs1Field, h, BitVec.toNat_setWidth_of_le (by decide)]

theorem rs2Field_eq (i : Word) : rs2Field i = (i.extractLsb' 20 5).toNat := by
  have h : i >>> 20 &&& 0x1F = (i.extractLsb' 20 5).setWidth 32 := ushiftRight_and i 20 5
  rw [rs2Field, h, BitVec.toNat_setWidth_of_le (by decide)]

theorem funct3Field_eq (i : Word) : funct3Field i = (i.extractLsb' 12 3).setWidth 32 :=
  ushiftRight_and i 12 3

theorem funct7Field_eq (i : Word) : funct7Field i = (i.extractLsb' 25 7).setWidth 32 :=
  ushiftRight_and i 25 7

theorem immI_eq (i : Word) : immI i = (i.extractLsb' 20 12).setWidth 32 :=
  ushiftRight_and i 20 12

theorem immS_eq (i : Word) :
    immS i = (i.extractLsb' 25 7 ++ i.extractLsb' 7 5).setWidth 32 := by
  have h : i >>> 7 &&& 0x1F = (i.extractLsb' 7 5).setWidth 32 := ushiftRight_and i 7 5
  rw [immS, h]
  apply BitVec.eq_of_getLsbD_eq
  intro j hj
  simp only [BitVec.getLsbD_append, BitVec.getLsbD_or, BitVec.getLsbD_shiftLeft,
    BitVec.getLsbD_ushiftRight, BitVec.getLsbD_setWidth, BitVec.getLsbD_extractLsb', hj]
  grind

theorem immB_eq (i : Word) :
    immB i = (i.extractLsb' 31 1 ++ i.extractLsb' 7 1 ++ i.extractLsb' 25 6 ++
      i.extractLsb' 8 4 ++ 0#1).setWidth 32 := by
  have h₁ : i >>> 7 &&& 0x1 = (i.extractLsb' 7 1).setWidth 32 := ushiftRight_and i 7 1
  have h₂ : i >>> 25 &&& 0x3F = (i.extractLsb' 25 6).setWidth 32 := ushiftRight_and i 25 6
  have h₃ : i >>> 8 &&& 0xF = (i.extractLsb' 8 4).setWidth 32 := ushiftRight_and i 8 4
  rw [immB, h₁, h₂, h₃]
  apply BitVec.eq_of_getLsbD_eq
  intro j hj
  simp only [BitVec.getLsbD_append, BitVec.getLsbD_or, BitVec.getLsbD_shiftLeft,
    BitVec.getLsbD_ushiftRight, BitVec.getLsbD_setWidth, BitVec.getLsbD_extractLsb',
    BitVec.getLsbD_zero, hj]
  grind

theorem immJ_eq (i : Word) :
    immJ i = (i.extractLsb' 31 1 ++ i.extractLsb' 12 8 ++ i.extractLsb' 20 1 ++
      i.extractLsb' 21 10 ++ 0#1).setWidth 32 := by
  have h₁ : i >>> 12 &&& 0xFF = (i.extractLsb' 12 8).setWidth 32 := ushiftRight_and i 12 8
  have h₂ : i >>> 20 &&& 0x1 = (i.extractLsb' 20 1).setWidth 32 := ushiftRight_and i 20 1
  have h₃ : i >>> 21 &&& 0x3FF = (i.extractLsb' 21 10).setWidth 32 := ushiftRight_and i 21 10
  rw [immJ, h₁, h₂, h₃]
  apply BitVec.eq_of_getLsbD_eq
  intro j hj
  simp only [BitVec.getLsbD_append, BitVec.getLsbD_or, BitVec.getLsbD_shiftLeft,
    BitVec.getLsbD_ushiftRight, BitVec.getLsbD_setWidth, BitVec.getLsbD_extractLsb',
    BitVec.getLsbD_zero, hj]
  grind

theorem immU_eq (i : Word) : i &&& 0xFFFFF000 = i.extractLsb' 12 20 ++ 0#12 := by
  have hmask : (0xFFFFF000 : Word) = BitVec.allOnes 32 <<< 12 := by decide
  rw [hmask]
  apply BitVec.eq_of_getLsbD_eq
  intro j hj
  simp only [BitVec.getLsbD_append, BitVec.getLsbD_and, BitVec.getLsbD_shiftLeft,
    BitVec.getLsbD_allOnes, BitVec.getLsbD_extractLsb', BitVec.getLsbD_zero, hj]
  grind

/-! ### Fields of the formats -/

theorem immS_sType (imm : BitVec 12) (rs2 rs1 : Reg) (funct3 : BitVec 3) (opcode : BitVec 7) :
    immS (sType imm rs2 rs1 funct3 opcode) = imm.setWidth 32 := by
  rw [immS_eq, sType, rType_funct7, rType_rd]
  congr 1
  ext j hj
  simp only [BitVec.getElem_append, BitVec.getElem_extractLsb']
  grind

theorem immB_bType (imm : BitVec 12) (rs2 rs1 : Reg) (funct3 : BitVec 3) (opcode : BitVec 7) :
    immB (bType imm rs2 rs1 funct3 opcode) = (imm ++ 0#1).setWidth 32 := by
  rw [immB_eq]
  congr 1
  apply BitVec.eq_of_getLsbD_eq
  intro j hj
  simp only [bType, rType, BitVec.getLsbD_append, BitVec.getLsbD_extractLsb', BitVec.getLsbD_zero]
  grind

theorem immJ_jType (imm : BitVec 20) (rd : Reg) (opcode : BitVec 7) :
    immJ (jType imm rd opcode) = (imm ++ 0#1).setWidth 32 := by
  rw [immJ_eq]
  congr 1
  apply BitVec.eq_of_getLsbD_eq
  intro j hj
  simp only [jType, uType, BitVec.getLsbD_append, BitVec.getLsbD_extractLsb', BitVec.getLsbD_zero]
  grind

/-- `sign_extend` of an immediate that has been cut out. -/
theorem signExtend_setWidth {n : Nat} (hpos : 0 < n) (hn : n < 32) (v : BitVec n) :
    signExtend (v.setWidth 32) n = v.signExtend 32 := by
  have hlast : n - 1 < 32 := by omega
  have hmask : (1#32 <<< n) - 1 = BitVec.ofNat 32 (2 ^ n - 1) := by
    have hlt := Nat.pow_lt_pow_right (show 1 < 2 by decide) hn
    have hone := Nat.two_pow_pos n
    apply BitVec.eq_of_toNat_eq
    simp [BitVec.toNat_sub, Nat.shiftLeft_eq]
    omega
  have hsign : (v.setWidth 32 &&& (1#32 <<< (n - 1)) ≠ 0) ↔ v.msb := by
    have htwo : BitVec.twoPow 32 (n - 1) ≠ 0 := by
      intro h
      have hbit := congrArg (fun v => v.getLsbD (n - 1)) h
      simp [hlast] at hbit
    rw [← BitVec.twoPow_eq, BitVec.and_twoPow, BitVec.msb_eq_getLsbD_last,
      BitVec.getLsbD_setWidth, decide_eq_true hlast, Bool.true_and]
    by_cases h : v.getLsbD (n - 1)
    · simpa [h] using htwo
    · simp [h]
  rw [signExtend, hmask]
  apply BitVec.eq_of_getLsbD_eq
  intro j hj
  rw [BitVec.getLsbD_signExtend]
  by_cases h : v.msb
  · rw [if_pos (hsign.mpr h)]
    simp only [BitVec.getLsbD_or, BitVec.getLsbD_not, BitVec.getLsbD_ofNat,
      Nat.testBit_two_pow_sub_one, BitVec.getLsbD_setWidth, hj, h]
    by_cases hjn : j < n
    · simp [hjn]
    · simp [hjn]
  · rw [if_neg (mt hsign.mp h)]
    simp only [BitVec.getLsbD_setWidth, hj, h]
    by_cases hjn : j < n
    · simp [hjn]
    · simp [hjn, BitVec.getLsbD_of_ge v j (not_lt.mp hjn)]

/-! ### The instructions without memory access -/

theorem rv32CpuReadReg_writeReg (c : Rv32Cpu) (r rd : Reg) (v : Word) :
    rv32CpuReadReg (rv32CpuWriteReg c rd.toNat v) r.toNat =
      if r = rd ∧ rd ≠ 0 then v else rv32CpuReadReg c r.toNat := by
  have hr := r.isLt
  have hrd := rd.isLt
  have hzero : ∀ q : Reg, q.toNat = 0 ↔ q = 0 := fun q => by
    rw [← BitVec.toNat_inj]
    rfl
  unfold rv32CpuReadReg rv32CpuWriteReg
  simp only [hzero, dif_pos hr, dif_pos hrd]
  by_cases hrd0 : rd = 0
  · have hno : ¬(r = rd ∧ rd ≠ 0) := fun h => h.2 hrd0
    rw [if_pos hrd0, if_neg hno]
  by_cases hr0 : r = 0
  · have hno : ¬(r = rd ∧ rd ≠ 0) := fun h => h.2 (h.1.symm.trans hr0)
    rw [if_pos hr0, if_pos hr0, if_neg hno]
  rw [if_neg hr0, if_neg hr0, if_neg hrd0]
  show Function.update c.regs ⟨rd.toNat, hrd⟩ v ⟨r.toNat, hr⟩ = _
  rw [Function.update_apply]
  simp only [Fin.mk.injEq, BitVec.toNat_inj, ne_eq, hrd0, not_false_iff, and_true]

/-- A hart with the memory `mem`, as the instruction set sees it. -/
def archHart (c : Rv32Cpu) (mem : Word → Option Byte) : State where
  pc := c.pc
  reg r := rv32CpuReadReg c r.toNat
  mem := mem
  reg_zero := rfl

theorem archHart_writeReg (c : Rv32Cpu) (mem : Word → Option Byte) (rd : Reg) (v : Word) :
    archHart (rv32CpuWriteReg c rd.toNat v) mem = (archHart c mem).setReg rd v := by
  have hpc : (rv32CpuWriteReg c rd.toNat v).pc = c.pc := by
    unfold rv32CpuWriteReg
    split_ifs <;> rfl
  exact State.ext hpc (funext fun r => rv32CpuReadReg_writeReg c r rd v) rfl

theorem archHart_advance (c : Rv32Cpu) (mem : Word → Option Byte) :
    archHart c.advance mem = (archHart c mem).next := rfl

/-- A write to a register and then the next instruction, or the other way round. -/
theorem archHart_advance_writeReg (c : Rv32Cpu) (mem : Word → Option Byte) (rd : Reg) (v : Word) :
    archHart (rv32CpuWriteReg c.advance rd.toNat v) mem = ((archHart c mem).setReg rd v).next :=
  archHart_writeReg _ _ _ _

/-- A jump that leaves a link. -/
theorem archHart_jump_writeReg (c : Rv32Cpu) (mem : Word → Option Byte) (rd : Reg) (v t : Word) :
    archHart { rv32CpuWriteReg c.advance rd.toNat v with pc := t } mem =
      ((archHart c mem).setReg rd v).jump t := by
  have h := congrArg (fun s => s.jump t) (archHart_writeReg c.advance mem rd v)
  exact h

theorem takeBranch_eq (op : BranchOp) (a b : Word) :
    takeBranch (op.funct3.setWidth 32) a b = op.taken a b := by
  cases op with
  | beq => exact (beq_eq_decide a b).symm
  | bne => simp [takeBranch, BranchOp.funct3, BranchOp.taken, bne, beq_eq_decide]
  | blt => rfl
  | bge => exact BitVec.sle_eq_not_slt.symm
  | bltu => exact BitVec.ult_eq_decide_lt.symm
  | bgeu => exact (BitVec.ule_eq_not_ult b a).symm

theorem ofBool_ult (a b : Word) : (if a < b then (1 : Word) else 0) = ofBool (a.ult b) := by
  unfold ofBool
  simp only [BitVec.ult_iff_lt]

theorem opImmResult_iType (op : ImmOp) (imm : BitVec 12) (rs1 rd : Reg) (opcode : BitVec 7)
    (a : Word) :
    opImmResult (iType imm rs1 op.funct3 rd opcode) a = op.eval a (imm.signExtend 32) := by
  have hfunct3 : funct3Field (iType imm rs1 op.funct3 rd opcode) = op.funct3.setWidth 32 := by
    rw [funct3Field_eq, iType_eq, rType_funct3]
  have himm : signExtend (immI (iType imm rs1 op.funct3 rd opcode)) 12 = imm.signExtend 32 := by
    rw [immI_eq, iType_imm, signExtend_setWidth (by decide) (by decide)]
  unfold opImmResult
  simp only [hfunct3, himm, ofBool_ult]
  cases op <;> rfl

/-- Bit 10 of the immediate tells `srai` from `srli`; its low five bits are the shift amount. -/
theorem opImmResult_rType (op : ShiftOp) (shamt rs1 rd : Reg) (opcode : BitVec 7) (a : Word) :
    opImmResult (rType op.funct7 shamt rs1 op.funct3 rd opcode) a = op.eval a shamt := by
  have hbits : ∀ shamt : Reg,
      ((op.funct7 ++ shamt).setWidth 32 &&& 0x1F : Word).toNat = shamt.toNat ∧
        ((op.funct7 ++ shamt).setWidth 32 &&& 0x400 ≠ (0 : Word) ↔ op = .srai) := by
    cases op <;> decide
  have hfunct3 : funct3Field (rType op.funct7 shamt rs1 op.funct3 rd opcode) =
      op.funct3.setWidth 32 := by
    rw [funct3Field_eq, rType_funct3]
  have himm : immI (rType op.funct7 shamt rs1 op.funct3 rd opcode) =
      (op.funct7 ++ shamt).setWidth 32 := by
    rw [immI_eq, rType_shamt]
  unfold opImmResult
  simp only [hfunct3, himm, (hbits shamt).1, (hbits shamt).2]
  cases op <;> rfl

theorem opResult_rType (op : RegOp) (rs2 rs1 rd : Reg) (opcode : BitVec 7) (a b : Word) :
    opResult (rType op.funct7 rs2 rs1 op.funct3 rd opcode) a b = op.eval a b := by
  have hfunct3 : funct3Field (rType op.funct7 rs2 rs1 op.funct3 rd opcode) =
      op.funct3.setWidth 32 := by
    rw [funct3Field_eq, rType_funct3]
  have hfunct7 : funct7Field (rType op.funct7 rs2 rs1 op.funct3 rd opcode) =
      op.funct7.setWidth 32 := by
    rw [funct7Field_eq, rType_funct7]
  have hlow : (b &&& 0x1F).toNat = (b.setWidth 5).toNat := by
    have h := ushiftRight_and b 0 5
    rw [BitVec.ushiftRight_zero] at h
    rw [show b &&& 0x1F = _ from h, BitVec.toNat_setWidth_of_le (by decide)]
    simp
  unfold opResult
  simp only [hfunct3, hfunct7, hlow, ofBool_ult]
  cases op <;> rfl

/-- The instruction accesses no memory. -/
def Rv32i.Instr.isLocal : Instr → Bool
  | .load .. | .store .. => false
  | _ => true

/-- The instructions without memory access, executed after the program counter is advanced. -/
theorem archHart_execHart (c : Rv32Cpu) (mem : Word → Option Byte) {i : Instr}
    (hlocal : i.isLocal) :
    archHart (execHart c.pc i.encode c.advance) mem = i.exec (archHart c mem) := by
  have hread : ∀ r : Reg, rv32CpuReadReg c.advance r.toNat = (archHart c mem).reg r :=
    fun r => rfl
  -- each case decodes the fields of its format, and both sides then do the same
  cases i with
  | lui rd imm =>
    have hop : uType imm rd 0b0110111 &&& 0x7F = 0x37 := by
      rw [opcode_eq, uType_opcode]
      rfl
    rw [Instr.encode, execHart]
    simp only [hop, if_true, rdField_eq, uType_rd, immU_eq, uType_imm]
    exact archHart_advance_writeReg _ _ _ _
  | auipc rd imm =>
    have hop : uType imm rd 0b0010111 &&& 0x7F = 0x17 := by
      rw [opcode_eq, uType_opcode]
      rfl
    rw [Instr.encode, execHart]
    simp only [hop, rdField_eq, uType_rd, immU_eq, uType_imm]
    exact archHart_advance_writeReg _ _ _ _
  | jal rd imm =>
    have hop : jType imm rd 0b1101111 &&& 0x7F = 0x6F := by
      rw [opcode_eq, jType, uType_opcode]
      rfl
    rw [Instr.encode, execHart]
    simp only [hop, rdField_eq, immJ_jType]
    rw [jType, uType_rd, signExtend_setWidth (by decide) (by decide)]
    exact archHart_jump_writeReg _ _ _ _ _
  | jalr rd rs1 imm =>
    have hop : iType imm rs1 0b000 rd 0b1100111 &&& 0x7F = 0x67 := by
      rw [opcode_eq, iType_eq, rType_opcode]
      rfl
    rw [Instr.encode, execHart]
    simp only [hop, rdField_eq, rs1Field_eq, immI_eq, iType_imm]
    rw [iType_eq, rType_rd, rType_rs1, signExtend_setWidth (by decide) (by decide)]
    exact archHart_jump_writeReg _ _ _ _ _
  | branch op rs1 rs2 imm =>
    have hop : bType imm rs2 rs1 op.funct3 0b1100011 &&& 0x7F = 0x63 := by
      rw [opcode_eq, bType, rType_opcode]
      rfl
    -- a branch that is not taken leaves the advanced pc
    have hexec : execHart c.pc (bType imm rs2 rs1 op.funct3 0b1100011) c.advance =
        if op.taken ((archHart c mem).reg rs1) ((archHart c mem).reg rs2) then
          { c.advance with pc := c.pc + (imm ++ 0#1).signExtend 32 }
        else c.advance := by
      rw [execHart]
      simp only [hop, rs1Field_eq, rs2Field_eq, funct3Field_eq, immB_bType]
      rw [bType, rType_rs1, rType_rs2, rType_funct3, takeBranch_eq,
        signExtend_setWidth (by decide) (by decide), hread, hread]
      rfl
    rw [Instr.encode, hexec, Instr.exec]
    split_ifs
    · rfl
    · rfl
  | opImm op rd rs1 imm =>
    have hop : iType imm rs1 op.funct3 rd 0b0010011 &&& 0x7F = 0x13 := by
      rw [opcode_eq, iType_eq, rType_opcode]
      rfl
    rw [Instr.encode, execHart]
    simp only [hop, opImmResult_iType, rdField_eq, rs1Field_eq]
    rw [iType_eq, rType_rd, rType_rs1]
    exact archHart_advance_writeReg _ _ _ _
  | shiftImm op rd rs1 shamt =>
    have hop : rType op.funct7 shamt rs1 op.funct3 rd 0b0010011 &&& 0x7F = 0x13 := by
      rw [opcode_eq, rType_opcode]
      rfl
    rw [Instr.encode, execHart]
    simp only [hop, opImmResult_rType, rdField_eq, rs1Field_eq]
    rw [rType_rd, rType_rs1]
    exact archHart_advance_writeReg _ _ _ _
  | opReg op rd rs1 rs2 =>
    have hop : rType op.funct7 rs2 rs1 op.funct3 rd 0b0110011 &&& 0x7F = 0x33 := by
      rw [opcode_eq, rType_opcode]
      rfl
    rw [Instr.encode, execHart]
    simp only [hop, opResult_rType, rdField_eq, rs1Field_eq, rs2Field_eq]
    rw [rType_rd, rType_rs1, rType_rs2]
    exact archHart_advance_writeReg _ _ _ _
  | ecall => rfl
  | load op rd rs1 imm => cases hlocal
  | store op rs1 rs2 imm => cases hlocal

/-! ### Loads and stores -/

/-- The RAM of a hart, at its addresses. -/
def ramAt (s : Rv32System) (h : Nat) (a : Word) : Option Byte :=
  if InRam a then some (s.ram h (ramOffset a)) else none

/-- A hart, as the instruction set sees it. -/
def archState (m : Machine) (h : Nat) : State := archHart (m.hart h) (ramAt m.sys h)

theorem ramAt_isSome_iff {s : Rv32System} {h : Nat} {a : Word} :
    (ramAt s h a).isSome ↔ InRam a := by
  unfold ramAt
  split_ifs with ha
  · simp [ha]
  · simp [ha]

/-- The byte `k` of an access inside the RAM. -/
theorem inRam_add {a : Word} {size k : Nat} (hsize : AccessSize size) (hin : inRam a size)
    (hk : k < size) : InRam (a + BitVec.ofNat 32 k) := by
  have hlt := a.isLt
  rw [inRam_iff hsize] at hin
  rw [inRamAddr_iff, BitVec.toNat_add, BitVec.toNat_ofNat]
  have hsmall : size ≤ 4 := by
    unfold AccessSize at hsize
    omega
  omega

/-- An access is inside the RAM if all its bytes are. -/
theorem mapped_iff {m : Machine} {h : Nat} {a : Word} {size : Nat} (hsize : AccessSize size) :
    (archState m h).Mapped a size ↔ inRam a size := by
  have hat : ∀ k, ((archState m h).mem (a + BitVec.ofNat 32 k)).isSome ↔
      InRam (a + BitVec.ofNat 32 k) := fun k => ramAt_isSome_iff
  constructor
  · intro hmapped
    have hlt := a.isLt
    have hsmall : 1 ≤ size ∧ size ≤ 4 := by
      unfold AccessSize at hsize
      omega
    have hfirst := (hat 0).mp (hmapped 0 (by omega))
    have hlast := (hat (size - 1)).mp (hmapped (size - 1) (by omega))
    rw [inRamAddr_iff, BitVec.toNat_add, BitVec.toNat_ofNat] at hfirst hlast
    rw [inRam_iff hsize]
    omega
  · intro hin k hk
    rw [hat]
    exact inRam_add hsize hin hk

theorem append_two (b₁ b₀ : Byte) :
    (0 <<< 8 ||| b₁.setWidth 32) <<< 8 ||| b₀.setWidth 32 = (b₁ ++ b₀).setWidth 32 := by
  apply BitVec.eq_of_getLsbD_eq
  intro j hj
  simp only [BitVec.getLsbD_append, BitVec.getLsbD_or, BitVec.getLsbD_shiftLeft,
    BitVec.getLsbD_setWidth, hj]
  grind

theorem append_four (b₃ b₂ b₁ b₀ : Byte) :
    (((0 <<< 8 ||| b₃.setWidth 32) <<< 8 ||| b₂.setWidth 32) <<< 8 ||| b₁.setWidth 32) <<< 8 |||
      b₀.setWidth 32 = b₃ ++ b₂ ++ b₁ ++ b₀ := by
  apply BitVec.eq_of_getLsbD_eq
  intro j hj
  simp only [BitVec.getLsbD_append, BitVec.getLsbD_or, BitVec.getLsbD_shiftLeft,
    BitVec.getLsbD_setWidth, hj]
  grind

/-- A load is little-endian, and `0` outside the RAM. -/
theorem load_archState (m : Machine) (h : Nat) (a : Word) {size : Nat} (hsize : AccessSize size) :
    (archState m h).load a size =
      if inRam a size then m.sys.ramLoad h (ramOffset a) size else 0 := by
  rw [State.load]
  by_cases hin : inRam a size
  swap
  · rw [if_neg (mt (mapped_iff hsize).mp hin), if_neg hin]
  rw [if_pos ((mapped_iff hsize).mpr hin), if_pos hin]
  have hbyte : ∀ k < size, ((archState m h).mem (a + BitVec.ofNat 32 k)).getD 0 =
      m.sys.ram h (ramOffset a + (BitVec.ofNat 32 k).setWidth 16) := by
    intro k hk
    show (ramAt m.sys h _).getD 0 = _
    rw [ramAt, if_pos (inRam_add hsize hin hk), ramOffset_add]
    rfl
  have hbyte0 : 0 < size → ((archState m h).mem a).getD 0 = m.sys.ram h (ramOffset a) := by
    intro hpos
    have hzero := hbyte 0 hpos
    simpa using hzero
  rcases hsize with rfl | rfl | rfl
  · simp only [State.bytesAt, hbyte0 (by decide), Rv32System.ramLoad]
    simp
  · have h₁ : ((archState m h).mem (a + 1)).getD 0 = m.sys.ram h (ramOffset a + 1) :=
      hbyte 1 (by decide)
    simp only [State.bytesAt, hbyte0 (by decide), h₁, Rv32System.ramLoad]
    exact append_two _ _
  · have h₁ : ((archState m h).mem (a + 1)).getD 0 = m.sys.ram h (ramOffset a + 1) :=
      hbyte 1 (by decide)
    have h₂ : ((archState m h).mem (a + 1 + 1)).getD 0 = m.sys.ram h (ramOffset a + 2) := by
      rw [BitVec.add_assoc]
      exact hbyte 2 (by decide)
    have h₃ : ((archState m h).mem (a + 1 + 1 + 1)).getD 0 = m.sys.ram h (ramOffset a + 3) := by
      rw [BitVec.add_assoc, BitVec.add_assoc]
      exact hbyte 3 (by decide)
    simp only [State.bytesAt, hbyte0 (by decide), h₁, h₂, h₃, Rv32System.ramLoad]
    exact append_four _ _ _ _

/-- A store changes the RAM as it should, and nothing outside the RAM. -/
theorem store_archState (m : Machine) (h : Nat) (a v : Word) {size : Nat}
    (hsize : AccessSize size) :
    (archState m h).store a v size =
      if inRam a size then archState (m.updSys fun s => s.ramStore h (ramOffset a) v size) h
      else archState m h := by
  rw [State.store]
  by_cases hin : inRam a size
  swap
  · rw [if_neg (mt (mapped_iff hsize).mp hin), if_neg hin]
  rw [if_pos ((mapped_iff hsize).mpr hin), if_pos hin]
  obtain ⟨memory, hhart⟩ := m.sys.harts_ramStore h (ramOffset a) v size h
  have hstate : archState (m.updSys fun s => s.ramStore h (ramOffset a) v size) h =
      archHart (m.hart h) (ramAt (m.sys.ramStore h (ramOffset a) v size) h) := by
    show archHart ((m.sys.ramStore h (ramOffset a) v size).harts h) _ = _
    rw [hhart]
    rfl
  rw [hstate]
  refine State.ext rfl rfl (funext fun b => ?_)
  show (if (b - a).toNat < size then some ((v >>> (8 * (b - a).toNat)).setWidth 8)
    else ramAt m.sys h b) = ramAt (m.sys.ramStore h (ramOffset a) v size) h b
  by_cases hb : InRam b
  · obtain ⟨hdiff, hsame⟩ := toNat_ramOffset_sub hsize hin hb
    rw [ramAt, ramAt, if_pos hb, if_pos hb, Rv32System.ram_ramStore _ _ _ _ hsize]
    by_cases hlt : (b - a).toNat < size
    · rw [if_pos hlt, if_pos ⟨rfl, hdiff.mpr hlt⟩, hsame hlt]
    · rw [if_neg hlt, if_neg fun h => hlt (hdiff.mp h.2)]
  · have hlt : ¬(b - a).toNat < size := by
      have halt := a.isLt
      have hblt := b.isLt
      rw [inRam_iff hsize] at hin
      rw [inRamAddr_iff] at hb
      have hsmall : size ≤ 4 := by
        unfold AccessSize at hsize
        omega
      rw [BitVec.toNat_sub]
      omega
    rw [if_neg hlt, ramAt, ramAt, if_neg hb, if_neg hb]

/-! ### Steps -/

/-- The instruction count and the register behind `x0` are as before. -/
structure SameCount (c c' : Rv32Cpu) : Prop where
  instructionCount : c'.instructionCount = c.instructionCount
  reg_zero : c'.regs 0 = c.regs 0

/-- What the execution of an instruction without memory access leaves alone in a hart. -/
structure SameCore (c c' : Rv32Cpu) : Prop extends SameCount c c' where
  memory : c'.memory = c.memory
  sharedRam : c'.sharedRam = c.sharedRam

theorem SameCount.trans {c₁ c₂ c₃ : Rv32Cpu} (h₁ : SameCount c₁ c₂) (h₂ : SameCount c₂ c₃) :
    SameCount c₁ c₃ :=
  ⟨h₂.instructionCount.trans h₁.instructionCount, h₂.reg_zero.trans h₁.reg_zero⟩

theorem sameCore_writeReg (c : Rv32Cpu) (reg : Nat) (value : Word) :
    SameCore c (rv32CpuWriteReg c reg value) := by
  unfold rv32CpuWriteReg
  split_ifs with hzero hreg
  · exact ⟨⟨rfl, rfl⟩, rfl, rfl⟩
  · refine ⟨⟨rfl, Function.update_of_ne ?_ _ _⟩, rfl, rfl⟩
    intro h
    exact hzero (congrArg Fin.val h).symm
  · exact ⟨⟨rfl, rfl⟩, rfl, rfl⟩

theorem sameCore_execHart (currentPc i : Word) (c : Rv32Cpu) :
    SameCore c (execHart currentPc i c) := by
  have hreg := fun reg value => sameCore_writeReg c reg value
  exact execHart_induction _ _ _ hreg
    (fun reg value _ => ⟨⟨(hreg reg value).instructionCount, (hreg reg value).reg_zero⟩,
      (hreg reg value).memory, (hreg reg value).sharedRam⟩)
    (fun _ => ⟨⟨rfl, rfl⟩, rfl, rfl⟩) ⟨⟨rfl, rfl⟩, rfl, rfl⟩ (fun _ => ⟨⟨rfl, rfl⟩, rfl, rfl⟩)
    ⟨⟨rfl, rfl⟩, rfl, rfl⟩

theorem sameCount_checkAccess (kind : AccessKind) (connected : Bool) (m : Machine) (h : Nat)
    (addr : Word) (size : Nat) :
    SameCount (m.hart h) ((checkAccess kind connected m h addr size).hart h) := by
  obtain ⟨b, hb⟩ := harts_checkAccess kind connected m h addr size h
  rw [hb]
  exact ⟨rfl, rfl⟩

theorem sameCount_updHart (m : Machine) (h : Nat) {f : Rv32Cpu → Rv32Cpu}
    (hf : SameCount (m.hart h) (f (m.hart h))) : SameCount (m.hart h) ((m.updHart h f).hart h) := by
  rw [Target.hart_updHart, if_pos rfl]
  exact hf

theorem sameCount_execLoad (connected : Bool) (m : Machine) (h : Nat) (i : Word) :
    SameCount (m.hart h) ((execLoad connected m h i).hart h) := by
  rw [execLoad]
  rcases loadSize (funct3Field i) with _ | size
  · exact sameCount_updHart _ _ (sameCore_writeReg _ _ _).toSameCount
  · exact (sameCount_checkAccess .load connected (m.log _) h _ size).trans
      (sameCount_updHart _ _ (sameCore_writeReg _ _ _).toSameCount)

theorem sameCount_rv32CpuWriteMem (connected : Bool) (m : Machine) (h : Nat) (addr value : Word)
    (size : Nat) : SameCount (m.hart h) ((rv32CpuWriteMem connected m h addr value size).hart h) := by
  have hcheck := sameCount_checkAccess .store connected m h addr size
  rw [rv32CpuWriteMem]
  split_ifs
  · obtain ⟨memory, hk⟩ := Rv32System.harts_ramStore (checkAccess .store connected m h addr size).sys
      h (ramOffset addr) value size h
    have hstore : SameCount ((checkAccess .store connected m h addr size).hart h)
        (((checkAccess .store connected m h addr size).sys.ramStore h (ramOffset addr) value
          size).harts h) := by
      rw [hk]
      exact ⟨rfl, rfl⟩
    exact hcheck.trans hstore
  · exact hcheck

theorem sameCount_execStore (connected : Bool) (m : Machine) (h : Nat) (i : Word) :
    SameCount (m.hart h) ((execStore connected m h i).hart h) := by
  rw [execStore]
  rcases storeSize (funct3Field i) with _ | size
  · exact ⟨rfl, rfl⟩
  · exact sameCount_rv32CpuWriteMem connected (m.log _) h _ _ size

theorem archState_checkAccess (kind : AccessKind) (connected : Bool) (m : Machine) (h : Nat)
    (addr : Word) (size : Nat) :
    archState (checkAccess kind connected m h addr size) h = archState m h := by
  obtain ⟨b, hb⟩ := harts_checkAccess kind connected m h addr size h
  have hmem : ramAt (checkAccess kind connected m h addr size).sys h = ramAt m.sys h := by
    funext a
    rw [ramAt, ramAt, ram_checkAccess]
  rw [archState, hb, hmem]
  rfl

/-- A change of a hart that does not concern its memory. -/
theorem archState_updHart (m : Machine) (h : Nat) {f : Rv32Cpu → Rv32Cpu}
    (hmemory : (f (m.hart h)).memory = (m.hart h).memory)
    (hshared : (f (m.hart h)).sharedRam = (m.hart h).sharedRam) :
    archState (m.updHart h f) h = archHart (f (m.hart h)) (archState m h).mem := by
  have hhart : (m.updHart h f).hart h = f (m.hart h) := by
    rw [Target.hart_updHart, if_pos rfl]
  have howner : (m.updHart h f).sys.ramOwner h = m.sys.ramOwner h := by
    show (((m.updHart h f).hart h).sharedRam).getD h = _
    rw [hhart, hshared]
    rfl
  have hram : ∀ off, (m.updHart h f).sys.ram h off = m.sys.ram h off := by
    intro off
    rw [Rv32System.ram, howner]
    show ((m.updHart h f).hart (m.sys.ramOwner h)).memory off = _
    rw [Target.hart_updHart]
    split_ifs with hk
    · rw [hmemory, Rv32System.ram, hk]
      rfl
    · rfl
  have hmem : ramAt (m.updHart h f).sys h = ramAt m.sys h := by
    funext a
    rw [ramAt, ramAt, hram]
  rw [archState, hhart, hmem]
  rfl

theorem loadSize_eq (op : LoadOp) : loadSize (op.funct3.setWidth 32) = some op.size := by
  cases op <;> rfl

theorem storeSize_eq (op : StoreOp) : storeSize (op.funct3.setWidth 32) = some op.size := by
  cases op <;> rfl

theorem accessSize_load (op : LoadOp) : AccessSize op.size := by
  cases op <;> simp [AccessSize, LoadOp.size]

theorem accessSize_store (op : StoreOp) : AccessSize op.size := by
  cases op <;> simp [AccessSize, StoreOp.size]

theorem loadValue_eq (op : LoadOp) {v : Word} (hv : v.toNat < 2 ^ (8 * op.size)) :
    loadValue (op.funct3.setWidth 32) v = op.extend v := by
  have hmask : ∀ n : Nat, v &&& BitVec.ofNat 32 (2 ^ n - 1) = (v.setWidth n).setWidth 32 := by
    intro n
    have hslice : v.extractLsb' 0 n = v.setWidth n := by
      ext j hj
      simp
    have h := ushiftRight_and v 0 n
    rwa [BitVec.ushiftRight_zero, hslice] at h
  have hsmall : (v.setWidth (8 * op.size)).setWidth 32 = v := by
    apply BitVec.eq_of_toNat_eq
    rw [BitVec.toNat_setWidth, BitVec.toNat_setWidth, Nat.mod_eq_of_lt hv,
      Nat.mod_eq_of_lt v.isLt]
  cases op with
  | lb =>
    have hext := signExtend_setWidth (by decide) (by decide) (v.setWidth 8)
    exact (congrArg (fun v => signExtend v 8) hsmall.symm).trans hext
  | lh =>
    have hext := signExtend_setWidth (n := 16) (by decide) (by decide) (v.setWidth 16)
    exact (congrArg (fun v => signExtend v 16) hsmall.symm).trans hext
  | lw => rfl
  | lbu => exact hmask 8
  | lhu => exact hmask 16

/-- A load reads no more bits than asked for. -/
theorem toNat_ramLoad_lt (s : Rv32System) (h : Nat) (off : BitVec 16) {size : Nat}
    (hsize : AccessSize size) : (s.ramLoad h off size).toNat < 2 ^ (8 * size) := by
  rcases hsize with rfl | rfl | rfl
  · rw [Rv32System.ramLoad, BitVec.toNat_setWidth_of_le (by decide)]
    exact (s.ram h off).isLt
  · rw [Rv32System.ramLoad, BitVec.toNat_setWidth_of_le (by decide)]
    exact (s.ram h (off + 1) ++ s.ram h off).isLt
  · exact (s.ramLoad h off 4).isLt

/-- The opcode of an instruction tells whether it loads or stores. -/
theorem opcode_encode (i : Instr) :
    (i.isLocal → i.encode &&& 0x7F ≠ 0x03 ∧ i.encode &&& 0x7F ≠ 0x23) ∧
      ((∃ op rd rs1 imm, i = .load op rd rs1 imm) → i.encode &&& 0x7F = 0x03) ∧
      ((∃ op rs1 rs2 imm, i = .store op rs1 rs2 imm) → i.encode &&& 0x7F = 0x23) := by
  rw [opcode_eq]
  cases i with
  | jal => simp [Instr.encode, Instr.isLocal, jType]
  | branch => simp [Instr.encode, Instr.isLocal, bType]
  | store => simp [Instr.encode, Instr.isLocal, sType]
  | _ => simp [Instr.encode, Instr.isLocal, iType_eq]

/-- A load of a hart that is not stopped in front of it. -/
theorem archState_execLoad (connected : Bool) (m : Machine) (h : Nat) (op : LoadOp) (rd rs1 : Reg)
    (imm : BitVec 12) :
    archState (execLoad connected m h (Instr.load op rd rs1 imm).encode) h =
      (archState m h).setReg rd (op.extend ((archState m h).load
        ((archState m h).reg rs1 + imm.signExtend 32) op.size)) := by
  have haddr : rv32CpuReadReg (m.hart h) (rs1Field (Instr.load op rd rs1 imm).encode) +
      signExtend (immI (Instr.load op rd rs1 imm).encode) 12 =
        (archState m h).reg rs1 + imm.signExtend 32 := by
    rw [Instr.encode, rs1Field_eq, immI_eq, iType_imm, iType_eq, rType_rs1,
      signExtend_setWidth (by decide) (by decide)]
    rfl
  have hfunct3 : funct3Field (Instr.load op rd rs1 imm).encode = op.funct3.setWidth 32 := by
    rw [Instr.encode, funct3Field_eq, iType_eq, rType_funct3]
  have hrd : rdField (Instr.load op rd rs1 imm).encode = rd.toNat := by
    rw [Instr.encode, rdField_eq, iType_eq, rType_rd]
  have hsize := accessSize_load op
  set a := (archState m h).reg rs1 + imm.signExtend 32
  set m₁ := m.log (.access h .load a op.size)
  have hvalue : (rv32CpuReadMem connected m₁ h a op.size).1 = (archState m h).load a op.size := by
    rw [fst_rv32CpuReadMem, load_archState m h a hsize]
    rfl
  have hlt : ((archState m h).load a op.size).toNat < 2 ^ (8 * op.size) := by
    rw [load_archState m h a hsize]
    split_ifs
    · exact toNat_ramLoad_lt _ _ _ hsize
    · exact Nat.two_pow_pos _
  have hexec : execLoad connected m h (Instr.load op rd rs1 imm).encode =
      (checkAccess .load connected m₁ h a op.size).updHart h fun c =>
        rv32CpuWriteReg c rd.toNat (op.extend ((archState m h).load a op.size)) := by
    rw [execLoad]
    simp only [haddr, hfunct3, loadSize_eq, hrd]
    rw [← loadValue_eq op hlt, ← hvalue]
    rfl
  have hsame := sameCore_writeReg ((checkAccess .load connected m₁ h a op.size).hart h) rd.toNat
    (op.extend ((archState m h).load a op.size))
  rw [hexec, archState_updHart _ _ hsame.memory hsame.sharedRam, archHart_writeReg]
  have hcheck := archState_checkAccess .load connected m₁ h a op.size
  exact congrArg (fun s => s.setReg rd (op.extend ((archState m h).load a op.size))) hcheck

/-- A store. -/
theorem archState_execStore (connected : Bool) (m : Machine) (h : Nat) (op : StoreOp)
    (rs1 rs2 : Reg) (imm : BitVec 12) :
    archState (execStore connected m h (Instr.store op rs1 rs2 imm).encode) h =
      (archState m h).store ((archState m h).reg rs1 + imm.signExtend 32)
        ((archState m h).reg rs2) op.size := by
  have haddr : rv32CpuReadReg (m.hart h) (rs1Field (Instr.store op rs1 rs2 imm).encode) +
      signExtend (immS (Instr.store op rs1 rs2 imm).encode) 12 =
        (archState m h).reg rs1 + imm.signExtend 32 := by
    rw [Instr.encode, immS_sType, rs1Field_eq, sType, rType_rs1,
      signExtend_setWidth (by decide) (by decide)]
    rfl
  have hvalue : rv32CpuReadReg (m.hart h) (rs2Field (Instr.store op rs1 rs2 imm).encode) =
      (archState m h).reg rs2 := by
    rw [Instr.encode, rs2Field_eq, sType, rType_rs2]
    rfl
  have hfunct3 : funct3Field (Instr.store op rs1 rs2 imm).encode = op.funct3.setWidth 32 := by
    rw [Instr.encode, funct3Field_eq, sType, rType_funct3]
  have hsize := accessSize_store op
  set a := (archState m h).reg rs1 + imm.signExtend 32
  set v := (archState m h).reg rs2
  set m₁ := m.log (.access h .store a op.size)
  have hcheck := archState_checkAccess .store connected m₁ h a op.size
  have hexec : execStore connected m h (Instr.store op rs1 rs2 imm).encode =
      rv32CpuWriteMem connected m₁ h a v op.size := by
    rw [execStore]
    simp only [haddr, hvalue, hfunct3, storeSize_eq]
    rfl
  have hstore := store_archState (checkAccess .store connected m₁ h a op.size) h a v hsize
  rw [hcheck] at hstore
  rw [hexec, rv32CpuWriteMem]
  refine Eq.trans ?_ hstore.symm
  split_ifs
  · rfl
  · exact hcheck

/-- What the instruction set fetches is what the CPU fetches. -/
theorem fetched_of_fetch {m : Machine} {h : Nat} {i : Word}
    (hfetch : (archState m h).fetch = some i) : fetched m h = i := by
  have hload := load_archState m h (m.hart h).pc (Or.inr (Or.inr rfl))
  have hfetch' : (if (archState m h).Mapped (m.hart h).pc 4 then
      some ((archState m h).bytesAt (m.hart h).pc 4) else none) = some i := hfetch
  by_cases hmapped : (archState m h).Mapped (m.hart h).pc 4
  · rw [State.load, if_pos hmapped] at hload
    rw [if_pos hmapped] at hfetch'
    exact hload.symm.trans (Option.some.inj hfetch')
  · rw [if_neg hmapped] at hfetch'
    cases hfetch'

/-- What a running hart does when its RAM holds an instruction at the program counter: it executes
the instruction and counts it; the register behind `x0` is never written. -/
theorem rv32CpuStep_encode {connected : Bool} {m : Machine} {h : Nat} {i : Instr}
    (hrun : (m.hart h).running) (hfetch : (archState m h).fetch = some i.encode) :
    archState (rv32CpuStep connected m h) h = i.exec (archState m h) ∧
      ((rv32CpuStep connected m h).hart h).instructionCount =
        (m.hart h).instructionCount + 1 ∧
      ((rv32CpuStep connected m h).hart h).regs 0 = (m.hart h).regs 0 := by
  -- the instruction word
  have hword : fetched m h = i.encode := fetched_of_fetch hfetch
  have hstep := rv32CpuStep_of_running connected hrun
  rw [hword] at hstep
  -- the state after the fetch
  set m₁ := afterFetch connected m h with hm₁
  obtain ⟨b, hb⟩ := hart_afterFetch connected m h
  have hhart₁ : m₁.hart h = Rv32Cpu.advance { m.hart h with halted := b } := by
    rw [hm₁, hb, if_pos rfl]
  have harch₁ : archState m₁ h = (archState m h).next := by
    rw [hm₁, afterFetch, archState_updHart _ h rfl rfl, archHart_advance]
    exact congrArg State.next (archState_checkAccess _ _ _ _ _ _)
  have hcount₁ : (m₁.hart h).instructionCount = (m.hart h).instructionCount + 1 ∧
      (m₁.hart h).regs 0 = (m.hart h).regs 0 := by
    rw [hhart₁]
    exact ⟨rfl, rfl⟩
  have hcount : ∀ {c' : Rv32Cpu}, SameCount (m₁.hart h) c' →
      c'.instructionCount = (m.hart h).instructionCount + 1 ∧ c'.regs 0 = (m.hart h).regs 0 :=
    fun hsame => ⟨hsame.instructionCount.trans hcount₁.1, hsame.reg_zero.trans hcount₁.2⟩
  obtain ⟨hlocal, hload, hstore⟩ := opcode_encode i
  rw [hstep]
  by_cases hi : i.isLocal
  · rw [if_neg (hlocal hi).1, if_neg (hlocal hi).2]
    have hsame := sameCore_execHart (m.hart h).pc i.encode (m₁.hart h)
    refine ⟨?_, hcount (sameCount_updHart _ _ hsame.toSameCount)⟩
    have hmem : (archState m₁ h).mem = ramAt m.sys h := congrArg State.mem harch₁
    rw [archState_updHart _ _ hsame.memory hsame.sharedRam, hmem, hhart₁]
    exact archHart_execHart { m.hart h with halted := b } (ramAt m.sys h) hi
  · cases i with
    | load op rd rs1 imm =>
      rw [if_pos (hload ⟨op, rd, rs1, imm, rfl⟩)]
      refine ⟨?_, hcount (sameCount_execLoad _ _ _ _)⟩
      rw [archState_execLoad, harch₁, State.next, State.load_jump]
      rfl
    | store op rs1 rs2 imm =>
      have hop := hstore ⟨op, rs1, rs2, imm, rfl⟩
      rw [if_neg (by rw [hop]; decide), if_pos hop]
      refine ⟨?_, hcount (sameCount_execStore _ _ _ _)⟩
      rw [archState_execStore, harch₁, State.next, State.store_jump, Instr.exec, State.next,
        State.pc_store]
      rfl
    | _ => exact absurd rfl hi

/-- The first instruction of the test program is `lui t0, 0x80000`. -/
theorem rv32CpuStep_encode_testProgram :
    let m := (loadedSession 1 []).world.toTarget
    archState (rv32CpuStep true m 0) 0 = (Instr.lui 5 0x80000).exec (archState m 0) ∧
      ((rv32CpuStep true m 0).hart 0).instructionCount = (m.hart 0).instructionCount + 1 ∧
      ((rv32CpuStep true m 0).hart 0).regs 0 = (m.hart 0).regs 0 :=
  rv32CpuStep_encode (by decide +kernel) (by decide +kernel)

end Rv32Gdb
