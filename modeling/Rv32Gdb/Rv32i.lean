import Mathlib.Data.BitVec
import Mathlib.Logic.Function.Basic
import Mathlib.Tactic.Common

/-!
# The RV32I base instruction set

The computational, control-transfer and load/store instructions of RV32I, and `ECALL`: their
encodings (`Instr.encode`) and their meaning (`Instr.exec`), after the unprivileged specification.
`IsEncoding` is said of their words and those of `FENCE` and `EBREAK`, and `isEncoding_iff` decides it.
Branch and jump targets and data addresses need not be aligned.  An address may have no memory
behind it: a load that touches such an address gives `0`, and a store that does changes nothing.

The formats `S` and `B` are the format `R` with the immediate in place of `funct7` and `rd`, and
`J` is `U` with the immediate permuted; so the fields are read off `R`, `I` and `U`.
-/

namespace Rv32Gdb

namespace Rv32i

/-- A register number. -/
abbrev Reg := BitVec 5

/-! ### Instructions -/

inductive BranchOp
  | beq | bne | blt | bge | bltu | bgeu
  deriving DecidableEq, Repr

inductive LoadOp
  | lb | lh | lw | lbu | lhu
  deriving DecidableEq, Repr

inductive StoreOp
  | sb | sh | sw
  deriving DecidableEq, Repr

inductive ImmOp
  | addi | slti | sltiu | xori | ori | andi
  deriving DecidableEq, Repr

inductive ShiftOp
  | slli | srli | srai
  deriving DecidableEq, Repr

inductive RegOp
  | add | sub | sll | slt | sltu | xor | srl | sra | or | and
  deriving DecidableEq, Repr

/-- The instructions.  The immediate of `lui` and `auipc` is bits `31:12` of the value, that of
`jal` bits `20:1` of the offset and that of a branch bits `12:1`. -/
inductive Instr
  | lui (rd : Reg) (imm : BitVec 20)
  | auipc (rd : Reg) (imm : BitVec 20)
  | jal (rd : Reg) (imm : BitVec 20)
  | jalr (rd rs1 : Reg) (imm : BitVec 12)
  | branch (op : BranchOp) (rs1 rs2 : Reg) (imm : BitVec 12)
  | load (op : LoadOp) (rd rs1 : Reg) (imm : BitVec 12)
  | store (op : StoreOp) (rs1 rs2 : Reg) (imm : BitVec 12)
  | opImm (op : ImmOp) (rd rs1 : Reg) (imm : BitVec 12)
  | shiftImm (op : ShiftOp) (rd rs1 : Reg) (shamt : BitVec 5)
  | opReg (op : RegOp) (rd rs1 rs2 : Reg)
  | ecall
  deriving DecidableEq, Repr

/-! ### Encodings -/

/-- The format `R`. -/
def rType (funct7 : BitVec 7) (rs2 rs1 : Reg) (funct3 : BitVec 3) (rd : Reg)
    (opcode : BitVec 7) : BitVec 32 :=
  funct7 ++ rs2 ++ rs1 ++ funct3 ++ rd ++ opcode

/-- The format `I`. -/
def iType (imm : BitVec 12) (rs1 : Reg) (funct3 : BitVec 3) (rd : Reg) (opcode : BitVec 7) :
    BitVec 32 :=
  imm ++ rs1 ++ funct3 ++ rd ++ opcode

/-- The format `U`. -/
def uType (imm : BitVec 20) (rd : Reg) (opcode : BitVec 7) : BitVec 32 := imm ++ rd ++ opcode

/-- The format `S`. -/
def sType (imm : BitVec 12) (rs2 rs1 : Reg) (funct3 : BitVec 3) (opcode : BitVec 7) :
    BitVec 32 :=
  rType (imm.extractLsb' 5 7) rs2 rs1 funct3 (imm.extractLsb' 0 5) opcode

/-- The format `B`, for the offset `imm[12:1]`: `imm[12|10:5]` and `imm[4:1|11]`. -/
def bType (imm : BitVec 12) (rs2 rs1 : Reg) (funct3 : BitVec 3) (opcode : BitVec 7) :
    BitVec 32 :=
  rType (imm.extractLsb' 11 1 ++ imm.extractLsb' 4 6) rs2 rs1 funct3
    (imm.extractLsb' 0 4 ++ imm.extractLsb' 10 1) opcode

/-- The format `J`, for the offset `imm[20:1]`: `imm[20|10:1|11|19:12]`. -/
def jType (imm : BitVec 20) (rd : Reg) (opcode : BitVec 7) : BitVec 32 :=
  uType (imm.extractLsb' 19 1 ++ imm.extractLsb' 0 10 ++ imm.extractLsb' 10 1 ++
    imm.extractLsb' 11 8) rd opcode

/-! ### Fields -/

section Fields

variable (funct7 : BitVec 7) (rs2 rs1 : Reg) (funct3 : BitVec 3) (rd : Reg) (opcode : BitVec 7)
  (imm : BitVec 12) (upper : BitVec 20)

@[simp]
theorem rType_opcode :
    (rType funct7 rs2 rs1 funct3 rd opcode).extractLsb' 0 7 = opcode := by
  ext i hi
  simp only [rType, BitVec.getElem_extractLsb', BitVec.getLsbD_append]
  grind

@[simp]
theorem rType_rd : (rType funct7 rs2 rs1 funct3 rd opcode).extractLsb' 7 5 = rd := by
  ext i hi
  simp only [rType, BitVec.getElem_extractLsb', BitVec.getLsbD_append]
  grind

@[simp]
theorem rType_funct3 : (rType funct7 rs2 rs1 funct3 rd opcode).extractLsb' 12 3 = funct3 := by
  ext i hi
  simp only [rType, BitVec.getElem_extractLsb', BitVec.getLsbD_append]
  grind

@[simp]
theorem rType_rs1 : (rType funct7 rs2 rs1 funct3 rd opcode).extractLsb' 15 5 = rs1 := by
  ext i hi
  simp only [rType, BitVec.getElem_extractLsb', BitVec.getLsbD_append]
  grind

@[simp]
theorem rType_rs2 : (rType funct7 rs2 rs1 funct3 rd opcode).extractLsb' 20 5 = rs2 := by
  ext i hi
  simp only [rType, BitVec.getElem_extractLsb', BitVec.getLsbD_append]
  grind

@[simp]
theorem rType_funct7 : (rType funct7 rs2 rs1 funct3 rd opcode).extractLsb' 25 7 = funct7 := by
  ext i hi
  simp only [rType, BitVec.getElem_extractLsb', BitVec.getLsbD_append]
  grind

/-- The shift amount and `funct7` as one immediate. -/
theorem rType_shamt :
    (rType funct7 rs2 rs1 funct3 rd opcode).extractLsb' 20 12 = funct7 ++ rs2 := by
  ext i hi
  simp only [rType, BitVec.getElem_extractLsb', BitVec.getLsbD_append]
  grind

/-- `I` is `R` with the immediate in place of `funct7` and `rs2`. -/
theorem iType_eq : iType imm rs1 funct3 rd opcode =
    rType (imm.extractLsb' 5 7) (imm.extractLsb' 0 5) rs1 funct3 rd opcode := by
  apply BitVec.eq_of_getLsbD_eq
  intro i hi
  simp only [iType, rType, BitVec.getLsbD_append, BitVec.getLsbD_extractLsb']
  grind

@[simp]
theorem iType_imm : (iType imm rs1 funct3 rd opcode).extractLsb' 20 12 = imm := by
  ext i hi
  simp only [iType, BitVec.getElem_extractLsb', BitVec.getLsbD_append]
  grind

@[simp]
theorem uType_opcode : (uType upper rd opcode).extractLsb' 0 7 = opcode := by
  ext i hi
  simp only [uType, BitVec.getElem_extractLsb', BitVec.getLsbD_append]
  grind

@[simp]
theorem uType_rd : (uType upper rd opcode).extractLsb' 7 5 = rd := by
  ext i hi
  simp only [uType, BitVec.getElem_extractLsb', BitVec.getLsbD_append]
  grind

@[simp]
theorem uType_imm : (uType upper rd opcode).extractLsb' 12 20 = upper := by
  ext i hi
  simp only [uType, BitVec.getElem_extractLsb', BitVec.getLsbD_append]
  grind

end Fields

/-! ### Opcodes -/

def BranchOp.funct3 : BranchOp → BitVec 3
  | .beq => 0b000
  | .bne => 0b001
  | .blt => 0b100
  | .bge => 0b101
  | .bltu => 0b110
  | .bgeu => 0b111

def LoadOp.funct3 : LoadOp → BitVec 3
  | .lb => 0b000
  | .lh => 0b001
  | .lw => 0b010
  | .lbu => 0b100
  | .lhu => 0b101

def StoreOp.funct3 : StoreOp → BitVec 3
  | .sb => 0b000
  | .sh => 0b001
  | .sw => 0b010

def ImmOp.funct3 : ImmOp → BitVec 3
  | .addi => 0b000
  | .slti => 0b010
  | .sltiu => 0b011
  | .xori => 0b100
  | .ori => 0b110
  | .andi => 0b111

def ShiftOp.funct3 : ShiftOp → BitVec 3
  | .slli => 0b001
  | .srli => 0b101
  | .srai => 0b101

def ShiftOp.funct7 : ShiftOp → BitVec 7
  | .slli => 0b0000000
  | .srli => 0b0000000
  | .srai => 0b0100000

def RegOp.funct3 : RegOp → BitVec 3
  | .add => 0b000
  | .sub => 0b000
  | .sll => 0b001
  | .slt => 0b010
  | .sltu => 0b011
  | .xor => 0b100
  | .srl => 0b101
  | .sra => 0b101
  | .or => 0b110
  | .and => 0b111

def RegOp.funct7 : RegOp → BitVec 7
  | .sub => 0b0100000
  | .sra => 0b0100000
  | _ => 0b0000000

/-- The encoding of an instruction. -/
def Instr.encode : Instr → BitVec 32
  | .lui rd imm => uType imm rd 0b0110111
  | .auipc rd imm => uType imm rd 0b0010111
  | .jal rd imm => jType imm rd 0b1101111
  | .jalr rd rs1 imm => iType imm rs1 0b000 rd 0b1100111
  | .branch op rs1 rs2 imm => bType imm rs2 rs1 op.funct3 0b1100011
  | .load op rd rs1 imm => iType imm rs1 op.funct3 rd 0b0000011
  | .store op rs1 rs2 imm => sType imm rs2 rs1 op.funct3 0b0100011
  | .opImm op rd rs1 imm => iType imm rs1 op.funct3 rd 0b0010011
  | .shiftImm op rd rs1 shamt => rType op.funct7 shamt rs1 op.funct3 rd 0b0010011
  | .opReg op rd rs1 rs2 => rType op.funct7 rs2 rs1 op.funct3 rd 0b0110011
  | .ecall => iType 0 0 0b000 0 0b1110011

/-! ### Valid words -/

/-- The words that encode an instruction: one of `Instr`, or `FENCE` or `EBREAK`, which compute
nothing. -/
inductive IsEncoding : BitVec 32 → Prop
  | instr (i : Instr) : IsEncoding i.encode
  | fence (imm : BitVec 12) (rs1 rd : Reg) : IsEncoding (iType imm rs1 0b000 rd 0b0001111)
  | ebreak : IsEncoding (iType 1 0 0b000 0 0b1110011)

/-- Whether the fields of a word are those of an instruction. -/
def validWord (w : BitVec 32) : Bool :=
  let opcode := w.extractLsb' 0 7
  let funct3 := w.extractLsb' 12 3
  let funct7 := w.extractLsb' 25 7
  if opcode = 0b0110111 ∨ opcode = 0b0010111 ∨ opcode = 0b1101111 then true
  else if opcode = 0b1100111 ∨ opcode = 0b0001111 then funct3 = 0b000
  else if opcode = 0b1100011 then funct3 ≠ 0b010 ∧ funct3 ≠ 0b011
  else if opcode = 0b0000011 then funct3 ≠ 0b011 ∧ funct3 ≠ 0b110 ∧ funct3 ≠ 0b111
  else if opcode = 0b0100011 then funct3 = 0b000 ∨ funct3 = 0b001 ∨ funct3 = 0b010
  else if opcode = 0b0010011 then
    (funct3 = 0b001 → funct7 = 0b0000000) ∧
      (funct3 = 0b101 → funct7 = 0b0000000 ∨ funct7 = 0b0100000)
  else if opcode = 0b0110011 then
    funct7 = 0b0000000 ∨ funct7 = 0b0100000 ∧ (funct3 = 0b000 ∨ funct3 = 0b101)
  else w = iType 0 0 0b000 0 0b1110011 ∨ w = iType 1 0 0b000 0 0b1110011

theorem rType_fields (w : BitVec 32) :
    rType (w.extractLsb' 25 7) (w.extractLsb' 20 5) (w.extractLsb' 15 5) (w.extractLsb' 12 3)
      (w.extractLsb' 7 5) (w.extractLsb' 0 7) = w := by
  apply BitVec.eq_of_getLsbD_eq
  intro j hj
  simp only [rType, BitVec.getLsbD_append, BitVec.getLsbD_extractLsb']
  grind

theorem iType_fields (w : BitVec 32) :
    iType (w.extractLsb' 20 12) (w.extractLsb' 15 5) (w.extractLsb' 12 3) (w.extractLsb' 7 5)
      (w.extractLsb' 0 7) = w := by
  apply BitVec.eq_of_getLsbD_eq
  intro j hj
  simp only [iType, BitVec.getLsbD_append, BitVec.getLsbD_extractLsb']
  grind

theorem uType_fields (w : BitVec 32) :
    uType (w.extractLsb' 12 20) (w.extractLsb' 7 5) (w.extractLsb' 0 7) = w := by
  apply BitVec.eq_of_getLsbD_eq
  intro j hj
  simp only [uType, BitVec.getLsbD_append, BitVec.getLsbD_extractLsb']
  grind

/-- Every word with the fields of `S` is of the format `S`, and so on. -/
theorem sType_surj (funct7 : BitVec 7) (rs2 rs1 : Reg) (funct3 : BitVec 3) (rd : Reg)
    (opcode : BitVec 7) :
    sType (funct7 ++ rd) rs2 rs1 funct3 opcode = rType funct7 rs2 rs1 funct3 rd opcode := by
  apply BitVec.eq_of_getLsbD_eq
  intro j hj
  simp only [sType, rType, BitVec.getLsbD_append, BitVec.getLsbD_extractLsb']
  grind

theorem bType_surj (funct7 : BitVec 7) (rs2 rs1 : Reg) (funct3 : BitVec 3) (rd : Reg)
    (opcode : BitVec 7) :
    bType (funct7.extractLsb' 6 1 ++ rd.extractLsb' 0 1 ++ funct7.extractLsb' 0 6 ++
      rd.extractLsb' 1 4) rs2 rs1 funct3 opcode = rType funct7 rs2 rs1 funct3 rd opcode := by
  apply BitVec.eq_of_getLsbD_eq
  intro j hj
  simp only [bType, rType, BitVec.getLsbD_append, BitVec.getLsbD_extractLsb']
  grind

theorem jType_surj (upper : BitVec 20) (rd : Reg) (opcode : BitVec 7) :
    jType (upper.extractLsb' 19 1 ++ upper.extractLsb' 0 8 ++ upper.extractLsb' 8 1 ++
      upper.extractLsb' 9 10) rd opcode = uType upper rd opcode := by
  apply BitVec.eq_of_getLsbD_eq
  intro j hj
  simp only [jType, uType, BitVec.getLsbD_append, BitVec.getLsbD_extractLsb']
  grind

theorem validWord_encode (i : Instr) : validWord i.encode := by
  unfold validWord
  cases i with
  | jal => simp [Instr.encode, jType]
  | branch op => cases op <;> simp [Instr.encode, bType, BranchOp.funct3]
  | store op => cases op <;> simp [Instr.encode, sType, StoreOp.funct3]
  | load op => cases op <;> simp [Instr.encode, iType_eq, LoadOp.funct3]
  | opImm op => cases op <;> simp [Instr.encode, iType_eq, ImmOp.funct3]
  | shiftImm op => cases op <;> simp [Instr.encode, ShiftOp.funct3, ShiftOp.funct7]
  | opReg op => cases op <;> simp [Instr.encode, RegOp.funct3, RegOp.funct7]
  | _ => simp [Instr.encode, iType_eq]

def BranchOp.ofFunct3 (f : BitVec 3) : BranchOp :=
  if f = 0b000 then .beq else if f = 0b001 then .bne else if f = 0b100 then .blt
  else if f = 0b101 then .bge else if f = 0b110 then .bltu else .bgeu

def LoadOp.ofFunct3 (f : BitVec 3) : LoadOp :=
  if f = 0b000 then .lb else if f = 0b001 then .lh else if f = 0b010 then .lw
  else if f = 0b100 then .lbu else .lhu

def StoreOp.ofFunct3 (f : BitVec 3) : StoreOp :=
  if f = 0b000 then .sb else if f = 0b001 then .sh else .sw

def ImmOp.ofFunct3 (f : BitVec 3) : ImmOp :=
  if f = 0b000 then .addi else if f = 0b010 then .slti else if f = 0b011 then .sltiu
  else if f = 0b100 then .xori else if f = 0b110 then .ori else .andi

def ShiftOp.ofFunct (funct7 : BitVec 7) (f : BitVec 3) : ShiftOp :=
  if f = 0b001 then .slli else if funct7 = 0b0000000 then .srli else .srai

def RegOp.ofFunct (funct7 : BitVec 7) (f : BitVec 3) : RegOp :=
  if f = 0b000 then if funct7 = 0b0000000 then .add else .sub
  else if f = 0b001 then .sll else if f = 0b010 then .slt else if f = 0b011 then .sltu
  else if f = 0b100 then .xor
  else if f = 0b101 then if funct7 = 0b0000000 then .srl else .sra
  else if f = 0b110 then .or else .and

theorem BranchOp.funct3_ofFunct3 : ∀ f : BitVec 3, f ≠ 0b010 ∧ f ≠ 0b011 →
    (BranchOp.ofFunct3 f).funct3 = f := by decide

theorem LoadOp.funct3_ofFunct3 : ∀ f : BitVec 3, f ≠ 0b011 ∧ f ≠ 0b110 ∧ f ≠ 0b111 →
    (LoadOp.ofFunct3 f).funct3 = f := by decide

theorem StoreOp.funct3_ofFunct3 : ∀ f : BitVec 3, f = 0b000 ∨ f = 0b001 ∨ f = 0b010 →
    (StoreOp.ofFunct3 f).funct3 = f := by decide

theorem ImmOp.funct3_ofFunct3 : ∀ f : BitVec 3, f ≠ 0b001 → f ≠ 0b101 →
    (ImmOp.ofFunct3 f).funct3 = f := by decide

theorem ShiftOp.funct_ofFunct : ∀ (g : BitVec 7) (f : BitVec 3),
    f = 0b001 ∧ g = 0b0000000 ∨ f = 0b101 ∧ (g = 0b0000000 ∨ g = 0b0100000) →
    (ShiftOp.ofFunct g f).funct3 = f ∧ (ShiftOp.ofFunct g f).funct7 = g := by decide +kernel

theorem RegOp.funct_ofFunct : ∀ (g : BitVec 7) (f : BitVec 3),
    g = 0b0000000 ∨ g = 0b0100000 ∧ (f = 0b000 ∨ f = 0b101) →
    (RegOp.ofFunct g f).funct3 = f ∧ (RegOp.ofFunct g f).funct7 = g := by decide +kernel

theorem isEncoding_of_validWord {w : BitVec 32} (h : validWord w) : IsEncoding w := by
  have hR := rType_fields w
  have hI := iType_fields w
  have hU := uType_fields w
  unfold validWord at h
  simp only at h
  split_ifs at h with hupper hzero hbranch hload hstore himm hreg
  · rcases hupper with hop | hop | hop
    · have hval := IsEncoding.instr (.lui (w.extractLsb' 7 5) (w.extractLsb' 12 20))
      rwa [Instr.encode, ← hop, hU] at hval
    · have hval := IsEncoding.instr (.auipc (w.extractLsb' 7 5) (w.extractLsb' 12 20))
      rwa [Instr.encode, ← hop, hU] at hval
    · -- the bits that are left are some immediate, as the format scrambles it
      have hval := fun imm => IsEncoding.instr (.jal (w.extractLsb' 7 5) imm)
      simp only [Instr.encode] at hval
      rw [← hU, hop, ← jType_surj]
      exact hval _
  · rw [decide_eq_true_iff] at h
    rcases hzero with hop | hop
    · have hval := IsEncoding.instr
        (.jalr (w.extractLsb' 7 5) (w.extractLsb' 15 5) (w.extractLsb' 20 12))
      rwa [Instr.encode, ← hop, ← h, hI] at hval
    · have hval := IsEncoding.fence (w.extractLsb' 20 12) (w.extractLsb' 15 5) (w.extractLsb' 7 5)
      rwa [← hop, ← h, hI] at hval
  · rw [decide_eq_true_iff] at h
    have hval := fun imm => IsEncoding.instr (.branch (.ofFunct3 (w.extractLsb' 12 3))
      (w.extractLsb' 15 5) (w.extractLsb' 20 5) imm)
    simp only [Instr.encode, BranchOp.funct3_ofFunct3 _ h] at hval
    rw [← hR, hbranch, ← bType_surj]
    exact hval _
  · rw [decide_eq_true_iff] at h
    have hval := IsEncoding.instr (.load (.ofFunct3 (w.extractLsb' 12 3)) (w.extractLsb' 7 5)
      (w.extractLsb' 15 5) (w.extractLsb' 20 12))
    rwa [Instr.encode, LoadOp.funct3_ofFunct3 _ h, ← hload, hI] at hval
  · rw [decide_eq_true_iff] at h
    have hval := fun imm => IsEncoding.instr (.store (.ofFunct3 (w.extractLsb' 12 3))
      (w.extractLsb' 15 5) (w.extractLsb' 20 5) imm)
    simp only [Instr.encode, StoreOp.funct3_ofFunct3 _ h] at hval
    rw [← hR, hstore, ← sType_surj]
    exact hval _
  · rw [decide_eq_true_iff] at h
    -- shifts have a funct7, the others an immediate in its place
    by_cases hshift : w.extractLsb' 12 3 = 0b001 ∨ w.extractLsb' 12 3 = 0b101
    · have hfunct := ShiftOp.funct_ofFunct (w.extractLsb' 25 7) (w.extractLsb' 12 3)
        (hshift.imp (fun hf => ⟨hf, h.1 hf⟩) fun hf => ⟨hf, h.2 hf⟩)
      have hval := IsEncoding.instr
        (.shiftImm (.ofFunct (w.extractLsb' 25 7) (w.extractLsb' 12 3)) (w.extractLsb' 7 5)
          (w.extractLsb' 15 5) (w.extractLsb' 20 5))
      rwa [Instr.encode, hfunct.1, hfunct.2, ← himm, hR] at hval
    · rw [not_or] at hshift
      have hval := IsEncoding.instr (.opImm (.ofFunct3 (w.extractLsb' 12 3)) (w.extractLsb' 7 5)
        (w.extractLsb' 15 5) (w.extractLsb' 20 12))
      rwa [Instr.encode, ImmOp.funct3_ofFunct3 _ hshift.1 hshift.2, ← himm, hI] at hval
  · rw [decide_eq_true_iff] at h
    have hfunct := RegOp.funct_ofFunct (w.extractLsb' 25 7) (w.extractLsb' 12 3) h
    have hval := IsEncoding.instr
      (.opReg (.ofFunct (w.extractLsb' 25 7) (w.extractLsb' 12 3)) (w.extractLsb' 7 5)
        (w.extractLsb' 15 5) (w.extractLsb' 20 5))
    rwa [Instr.encode, hfunct.1, hfunct.2, ← hreg, hR] at hval
  · rw [decide_eq_true_iff] at h
    rcases h with rfl | rfl
    · exact .instr .ecall
    · exact .ebreak

theorem isEncoding_iff (w : BitVec 32) : IsEncoding w ↔ validWord w := by
  constructor
  · rintro (i | ⟨imm, rs1, rd⟩ | _)
    · exact validWord_encode i
    · unfold validWord
      simp [iType_eq]
    · decide
  · exact isEncoding_of_validWord

instance (w : BitVec 32) : Decidable (IsEncoding w) := decidable_of_iff _ (isEncoding_iff w).symm

/-! ### The state -/

/-- The program counter, the registers and the memory, where there is any. -/
@[ext]
structure State where
  pc : BitVec 32
  reg : Reg → BitVec 32
  mem : BitVec 32 → Option (BitVec 8)
  reg_zero : reg 0 = 0

namespace State

/-- A write to a register; `x0` is hard-wired to zero. -/
def setReg (s : State) (rd : Reg) (v : BitVec 32) : State :=
  { s with
    reg := fun r => if r = rd ∧ rd ≠ 0 then v else s.reg r
    reg_zero := by
      rw [if_neg fun h => h.2 h.1.symm]
      exact s.reg_zero }

/-- A jump. -/
def jump (s : State) (target : BitVec 32) : State := { s with pc := target }

/-- To the next instruction. -/
def next (s : State) : State := s.jump (s.pc + 4)

/-- There is memory at the `n` addresses from `a` on. -/
def Mapped (s : State) (a : BitVec 32) (n : Nat) : Prop :=
  ∀ k < n, (s.mem (a + BitVec.ofNat 32 k)).isSome

instance (s : State) (a : BitVec 32) (n : Nat) : Decidable (s.Mapped a n) :=
  inferInstanceAs (Decidable (∀ k < n, _))

/-- The little-endian number at the `n` addresses from `a` on. -/
def bytesAt (s : State) (a : BitVec 32) : Nat → BitVec 32
  | 0 => 0
  | n + 1 => (s.bytesAt (a + 1) n) <<< 8 ||| ((s.mem a).getD 0).setWidth 32

/-- A load of `n` bytes. -/
def load (s : State) (a : BitVec 32) (n : Nat) : BitVec 32 :=
  if s.Mapped a n then s.bytesAt a n else 0

/-- A store of the low `n` bytes of `v`: the byte at `a + k` is byte `k` of `v`. -/
def store (s : State) (a v : BitVec 32) (n : Nat) : State :=
  if s.Mapped a n then
    { s with mem := fun b =>
        if (b - a).toNat < n then some ((v >>> (8 * (b - a).toNat)).setWidth 8) else s.mem b }
  else s

theorem reg_setReg (s : State) (rd r : Reg) (v : BitVec 32) :
    (s.setReg rd v).reg r = if r = rd ∧ rd ≠ 0 then v else s.reg r := rfl

@[simp]
theorem mem_setReg (s : State) (rd : Reg) (v : BitVec 32) :
    (s.setReg rd v).mem = s.mem := rfl
@[simp]
theorem pc_jump (s : State) (t : BitVec 32) : (s.jump t).pc = t := rfl
@[simp]
theorem reg_jump (s : State) (t : BitVec 32) : (s.jump t).reg = s.reg := rfl
@[simp]
theorem mem_jump (s : State) (t : BitVec 32) : (s.jump t).mem = s.mem := rfl

@[simp]
theorem pc_next (s : State) : s.next.pc = s.pc + 4 := rfl
@[simp]
theorem reg_next (s : State) : s.next.reg = s.reg := rfl
@[simp]
theorem mem_next (s : State) : s.next.mem = s.mem := rfl

theorem bytesAt_jump (s : State) (t a : BitVec 32) (n : Nat) :
    (s.jump t).bytesAt a n = s.bytesAt a n := by
  induction n generalizing a with
  | zero => rfl
  | succ n ih =>
    rw [bytesAt, ih]
    rfl

/-- A jump moves no data. -/
theorem load_jump (s : State) (t a : BitVec 32) (n : Nat) : (s.jump t).load a n = s.load a n := by
  unfold load
  rw [bytesAt_jump]
  rfl

theorem store_jump (s : State) (t a v : BitVec 32) (n : Nat) :
    (s.jump t).store a v n = (s.store a v n).jump t := by
  have hmapped : (s.jump t).Mapped a n ↔ s.Mapped a n := Iff.rfl
  unfold store
  by_cases h : s.Mapped a n
  · rw [if_pos h, if_pos (hmapped.mpr h)]
    rfl
  · rw [if_neg h, if_neg (mt hmapped.mp h)]

@[simp]
theorem pc_store (s : State) (a v : BitVec 32) (n : Nat) : (s.store a v n).pc = s.pc := by
  unfold store
  split_ifs <;> rfl

@[simp]
theorem reg_store (s : State) (a v : BitVec 32) (n : Nat) : (s.store a v n).reg = s.reg := by
  unfold store
  split_ifs <;> rfl

/-- The bytes of the number are those in memory. -/
theorem setWidth_bytesAt (s : State) {a : BitVec 32} {n k : Nat} (hn : n ≤ 4) (hk : k < n) :
    ((s.bytesAt a n) >>> (8 * k)).setWidth 8 = (s.mem (a + BitVec.ofNat 32 k)).getD 0 := by
  induction n generalizing a k with
  | zero => omega
  | succ n ih =>
    rw [bytesAt]
    cases k with
    | zero =>
      have haddr : a + BitVec.ofNat 32 0 = a := BitVec.add_zero a
      rw [haddr]
      ext i hi
      simp only [BitVec.getElem_setWidth, BitVec.getLsbD_ushiftRight, BitVec.getLsbD_or,
        BitVec.getLsbD_shiftLeft, BitVec.getLsbD_setWidth]
      grind
    | succ k =>
      have haddr : a + BitVec.ofNat 32 (k + 1) = a + 1 + BitVec.ofNat 32 k := by
        rw [BitVec.add_assoc, BitVec.add_comm 1, BitVec.ofNat_add]
        rfl
      rw [haddr, ← ih (by omega) (by omega)]
      ext i hi
      simp only [BitVec.getElem_setWidth, BitVec.getLsbD_ushiftRight, BitVec.getLsbD_or,
        BitVec.getLsbD_shiftLeft, BitVec.getLsbD_setWidth]
      grind

/-- What is loaded depends on the bytes there. -/
theorem bytesAt_congr {s s' : State} {a : BitVec 32} {n : Nat}
    (h : ∀ k < n, s'.mem (a + BitVec.ofNat 32 k) = s.mem (a + BitVec.ofNat 32 k)) :
    s'.bytesAt a n = s.bytesAt a n := by
  induction n generalizing a with
  | zero => rfl
  | succ n ih =>
    have hzero := h 0 (by omega)
    rw [BitVec.add_zero] at hzero
    rw [bytesAt, bytesAt, hzero, ih]
    intro k hk
    have hsucc := h (k + 1) (by omega)
    rwa [Nat.add_comm, BitVec.ofNat_add, ← BitVec.add_assoc] at hsucc

theorem load_congr {s s' : State} {a : BitVec 32} {n : Nat}
    (h : ∀ k < n, s'.mem (a + BitVec.ofNat 32 k) = s.mem (a + BitVec.ofNat 32 k)) :
    s'.load a n = s.load a n := by
  have hmapped : s'.Mapped a n ↔ s.Mapped a n :=
    forall₂_congr fun k hk => by rw [h k hk]
  unfold load
  rw [bytesAt_congr h]
  simp only [hmapped]

/-- A store does not concern the bytes elsewhere. -/
theorem load_store_of_disjoint (s : State) (a v : BitVec 32) (n : Nat) {b : BitVec 32} {j : Nat}
    (h : ∀ k < j, ¬(b + BitVec.ofNat 32 k - a).toNat < n) :
    (s.store a v n).load b j = s.load b j := by
  refine load_congr fun k hk => ?_
  unfold store
  split_ifs
  · exact if_neg (h k hk)
  · rfl

/-- Two words with the same bytes are the same. -/
theorem eq_of_bytes {v w : BitVec 32}
    (h : ∀ k < 4, (v >>> (8 * k)).setWidth 8 = (w >>> (8 * k)).setWidth 8) : v = w := by
  apply BitVec.eq_of_getLsbD_eq
  intro i hi
  have hbyte := congrArg (fun b => b.getLsbD (i % 8)) (h (i / 8) (by omega))
  simp only [BitVec.getLsbD_setWidth, BitVec.getLsbD_ushiftRight] at hbyte
  have hlt : i % 8 < 8 := Nat.mod_lt _ (by decide)
  have hsum : 8 * (i / 8) + i % 8 = i := Nat.div_add_mod i 8
  rwa [hsum, decide_eq_true hlt, Bool.true_and, Bool.true_and] at hbyte

/-- A word that is stored is loaded again. -/
theorem load_store_same (s : State) {a : BitVec 32} (v : BitVec 32) (hmapped : s.Mapped a 4) :
    (s.store a v 4).load a 4 = v := by
  have hbyte : ∀ k < 4, (s.store a v 4).mem (a + BitVec.ofNat 32 k) =
      some ((v >>> (8 * k)).setWidth 8) := by
    intro k hk
    have hdiff : (a + BitVec.ofNat 32 k - a).toNat = k := by
      rw [BitVec.add_comm, BitVec.add_sub_cancel, BitVec.toNat_ofNat, Nat.mod_eq_of_lt (by omega)]
    rw [store, if_pos hmapped]
    show (if (a + BitVec.ofNat 32 k - a).toNat < 4 then _ else _) = _
    rw [hdiff, if_pos hk]
  have hmapped' : (s.store a v 4).Mapped a 4 := fun k hk => by rw [hbyte k hk]; rfl
  rw [load, if_pos hmapped']
  refine eq_of_bytes fun k hk => ?_
  rw [setWidth_bytesAt _ (by decide) hk, hbyte k hk]
  rfl

theorem Mapped.store {s : State} {b : BitVec 32} {k : Nat} (hb : s.Mapped b k) (a v : BitVec 32)
    (n : Nat) : (s.store a v n).Mapped b k := by
  intro i hi
  unfold State.store
  split_ifs
  · show Option.isSome (if _ then _ else _)
    split_ifs
    · rfl
    · exact hb i hi
  · exact hb i hi

/-- The instruction word at the program counter. -/
def fetch (s : State) : Option (BitVec 32) :=
  if s.Mapped s.pc 4 then some (s.bytesAt s.pc 4) else none

end State

/-! ### Execution -/

/-- Whether a branch is taken. -/
def BranchOp.taken (op : BranchOp) (a b : BitVec 32) : Bool :=
  match op with
  | .beq => a == b
  | .bne => a != b
  | .blt => a.slt b
  | .bge => b.sle a
  | .bltu => a.ult b
  | .bgeu => b.ule a

/-- The number of bytes that are loaded. -/
def LoadOp.size : LoadOp → Nat
  | .lb | .lbu => 1
  | .lh | .lhu => 2
  | .lw => 4

/-- The value that is loaded: `lb` and `lh` extend the sign. -/
def LoadOp.extend (op : LoadOp) (v : BitVec 32) : BitVec 32 :=
  match op with
  | .lb => (v.setWidth 8).signExtend 32
  | .lh => (v.setWidth 16).signExtend 32
  | .lw => v
  | .lbu => (v.setWidth 8).setWidth 32
  | .lhu => (v.setWidth 16).setWidth 32

theorem LoadOp.size_le (op : LoadOp) : op.size ≤ 4 := by cases op <;> decide

/-- An extension keeps the bytes that are loaded. -/
theorem LoadOp.setWidth_extend (op : LoadOp) (v : BitVec 32) {k : Nat} (hk : k < op.size) :
    ((op.extend v) >>> (8 * k)).setWidth 8 = (v >>> (8 * k)).setWidth 8 := by
  ext i hi
  cases op <;>
    simp only [LoadOp.size] at hk <;>
    simp only [LoadOp.extend, BitVec.getElem_setWidth, BitVec.getLsbD_ushiftRight,
      BitVec.getLsbD_setWidth, BitVec.getLsbD_signExtend] <;>
    grind

/-- The number of bytes that are stored. -/
def StoreOp.size : StoreOp → Nat
  | .sb => 1
  | .sh => 2
  | .sw => 4

/-- A truth value as a register value. -/
def ofBool (b : Bool) : BitVec 32 := if b then 1 else 0

/-- The result of an operation with the sign-extended immediate. -/
def ImmOp.eval (op : ImmOp) (a imm : BitVec 32) : BitVec 32 :=
  match op with
  | .addi => a + imm
  | .slti => ofBool (a.slt imm)
  | .sltiu => ofBool (a.ult imm)
  | .xori => a ^^^ imm
  | .ori => a ||| imm
  | .andi => a &&& imm

/-- The result of a shift. -/
def ShiftOp.eval (op : ShiftOp) (a : BitVec 32) (shamt : BitVec 5) : BitVec 32 :=
  match op with
  | .slli => a <<< shamt
  | .srli => a >>> shamt
  | .srai => a.sshiftRight' shamt

/-- The result of an operation on registers; a shift amount is the low five bits. -/
def RegOp.eval (op : RegOp) (a b : BitVec 32) : BitVec 32 :=
  match op with
  | .add => a + b
  | .sub => a - b
  | .sll => a <<< b.setWidth 5
  | .slt => ofBool (a.slt b)
  | .sltu => ofBool (a.ult b)
  | .xor => a ^^^ b
  | .srl => a >>> b.setWidth 5
  | .sra => a.sshiftRight' (b.setWidth 5)
  | .or => a ||| b
  | .and => a &&& b

/-- The execution of an instruction. -/
def Instr.exec (s : State) : Instr → State
  | .lui rd imm => (s.setReg rd (imm ++ 0#12)).next
  | .auipc rd imm => (s.setReg rd (s.pc + (imm ++ 0#12))).next
  | .jal rd imm => (s.setReg rd (s.pc + 4)).jump (s.pc + (imm ++ 0#1).signExtend 32)
  | .jalr rd rs1 imm =>
    (s.setReg rd (s.pc + 4)).jump ((s.reg rs1 + imm.signExtend 32) &&& ~~~1)
  | .branch op rs1 rs2 imm =>
    if op.taken (s.reg rs1) (s.reg rs2) then s.jump (s.pc + (imm ++ 0#1).signExtend 32)
    else s.next
  | .load op rd rs1 imm =>
    (s.setReg rd (op.extend (s.load (s.reg rs1 + imm.signExtend 32) op.size))).next
  | .store op rs1 rs2 imm =>
    (s.store (s.reg rs1 + imm.signExtend 32) (s.reg rs2) op.size).next
  | .opImm op rd rs1 imm => (s.setReg rd (op.eval (s.reg rs1) (imm.signExtend 32))).next
  | .shiftImm op rd rs1 shamt => (s.setReg rd (op.eval (s.reg rs1) shamt)).next
  | .opReg op rd rs1 rs2 => (s.setReg rd (op.eval (s.reg rs1) (s.reg rs2))).next
  | .ecall => s.next

/-- The register that an instruction writes, `x0` if it writes none. -/
def Instr.dest : Instr → Reg
  | .lui rd _ | .auipc rd _ | .jal rd _ | .jalr rd _ _ => rd
  | .load _ rd _ _ | .opImm _ rd _ _ | .shiftImm _ rd _ _ | .opReg _ rd _ _ => rd
  | .branch _ _ _ _ | .store _ _ _ _ | .ecall => 0

/-- Whether an instruction writes to memory. -/
def Instr.isStore : Instr → Bool
  | .store _ _ _ _ => true
  | _ => false

theorem reg_exec_of_ne (i : Instr) (s : State) {r : Reg} (hr : r ≠ i.dest) :
    (i.exec s).reg r = s.reg r := by
  have hset : ∀ rd v, r ≠ rd → (s.setReg rd v).reg r = s.reg r := fun rd v hne => by
    rw [State.reg_setReg, if_neg fun h => hne h.1]
  cases i with
  | branch =>
    rw [Instr.exec]
    split_ifs <;> rfl
  | store => rw [Instr.exec, State.reg_next, State.reg_store]
  | ecall => rfl
  | _ => exact hset _ _ hr

theorem mem_exec_of_not_isStore (i : Instr) (s : State) (hi : ¬i.isStore) :
    (i.exec s).mem = s.mem := by
  cases i with
  | branch =>
    rw [Instr.exec]
    split_ifs <;> rfl
  | store => exact absurd rfl hi
  | _ => rfl

end Rv32i

end Rv32Gdb
