import Rv32Gdb.Assembly
import Rv32Gdb.Emu.Disassemble
import Rv32Gdb.Equiv.Decode

/-!
# The disassembler and the CPU

`reads_disassembly`: the text of a word is a line of assembly, or says that the word is unknown, as
`printed` has it.  `does_printed`: the CPU does what the line says.  The exceptions are the words
that are `Misread`: the disassembler looks at bit 30 where the CPU looks at the whole of `funct7`,
and takes any word of opcode `SYSTEM` with the immediate of `EBREAK` for one.  `disassembles_iff`:
with room for the text, the disassembler and the CPU agree exactly on the other words, at every
address where there is RAM.
-/

namespace Rv32Gdb

open Rv32i

/-! ### The printed lines -/

theorem decText_natCast (n : Nat) : decText n = numeral 10 n := by
  rw [decText, if_neg (by omega), Int.natAbs_natCast]

theorem upperText_eq (mnemonic : String) (w : Word) : upperText mnemonic w =
    line (ascii mnemonic) [chr 'x' :: numeral 10 (w.extractLsb' 7 5).toNat,
      ascii "0x" ++ hexPad 5 (w.extractLsb' 12 20).toNat] := by
  have himm : (w >>> 12).toNat = (w.extractLsb' 12 20).toNat := by
    rw [BitVec.toNat_ushiftRight, BitVec.extractLsb'_toNat, Nat.mod_eq_of_lt]
    rw [Nat.shiftRight_eq_div_pow]
    have := w.isLt
    omega
  have hreg : ascii " x" = [chr ' ', chr 'x'] := rfl
  have hhex : ascii ", 0x" = [chr ',', chr ' ', chr '0', chr 'x'] := rfl
  have hzero : ascii "0x" = [chr '0', chr 'x'] := rfl
  rw [upperText, rdField_eq, himm, decText_natCast, line, hreg, hhex, hzero]
  simp [List.intercalate_cons_cons]

theorem opImmText_eq (mnemonic : String) (w : Word) : opImmText mnemonic w =
    line (ascii mnemonic) [chr 'x' :: numeral 10 (w.extractLsb' 7 5).toNat,
      chr 'x' :: numeral 10 (w.extractLsb' 15 5).toNat,
      decText (w.extractLsb' 20 12).toInt] := by
  have himm : (signExtend (immI w) 12).toInt = (w.extractLsb' 20 12).toInt := by
    rw [immI_eq, signExtend_setWidth (by decide) (by decide),
      BitVec.toInt_signExtend_of_le (by decide)]
  have hreg : ascii " x" = [chr ' ', chr 'x'] := rfl
  have hcomma : ascii ", x" = [chr ',', chr ' ', chr 'x'] := rfl
  have hnum : ascii ", " = [chr ',', chr ' '] := rfl
  rw [opImmText, rdField_eq, rs1Field_eq, himm, decText_natCast, decText_natCast, line, hreg,
    hcomma, hnum]
  simp [List.intercalate_cons_cons]

theorem opText_eq (mnemonic : String) (w : Word) : opText mnemonic w =
    line (ascii mnemonic) [chr 'x' :: numeral 10 (w.extractLsb' 7 5).toNat,
      chr 'x' :: numeral 10 (w.extractLsb' 15 5).toNat,
      chr 'x' :: numeral 10 (w.extractLsb' 20 5).toNat] := by
  have hreg : ascii " x" = [chr ' ', chr 'x'] := rfl
  have hcomma : ascii ", x" = [chr ',', chr ' ', chr 'x'] := rfl
  rw [opText, rdField_eq, rs1Field_eq, rs2Field_eq, decText_natCast, decText_natCast,
    decText_natCast, line, hreg, hcomma]
  simp [List.intercalate_cons_cons]

/-! ### The lines that are read -/

theorem readAsm_lui (rd : Reg) (imm : BitVec 20) :
    readAsm (line (ascii "lui") [chr 'x' :: numeral 10 rd.toNat,
      ascii "0x" ++ hexPad 5 imm.toNat]) = some (.instr (.lui rd imm)) := by
  rw [readAsm_line (by decide) (.cons (readOperand_reg rd) (.cons (readOperand_hex 5 _) .nil)),
    Asm.ofLine, if_neg (by decide), if_pos ⟨by omega, by exact_mod_cast imm.isLt⟩, if_pos rfl,
    BitVec.ofInt_natCast, BitVec.ofNat_toNat, BitVec.setWidth_eq]

theorem readAsm_auipc (rd : Reg) (imm : BitVec 20) :
    readAsm (line (ascii "auipc") [chr 'x' :: numeral 10 rd.toNat,
      ascii "0x" ++ hexPad 5 imm.toNat]) = some (.instr (.auipc rd imm)) := by
  rw [readAsm_line (by decide) (.cons (readOperand_reg rd) (.cons (readOperand_hex 5 _) .nil)),
    Asm.ofLine, if_neg (by decide), if_pos ⟨by omega, by exact_mod_cast imm.isLt⟩,
    if_neg (by decide), if_pos rfl, BitVec.ofInt_natCast, BitVec.ofNat_toNat, BitVec.setWidth_eq]

theorem readAsm_jal (rd : Reg) (target : Word) :
    readAsm (line (ascii "jal") [chr 'x' :: numeral 10 rd.toNat,
      ascii "0x" ++ hexPad 8 target.toNat]) = some (.jal rd target) := by
  rw [readAsm_line (by decide) (.cons (readOperand_reg rd) (.cons (readOperand_hex 8 _) .nil)),
    Asm.ofLine, if_pos rfl, if_pos ⟨by omega, by exact_mod_cast target.isLt⟩,
    BitVec.ofInt_natCast, BitVec.ofNat_toNat, BitVec.setWidth_eq]

theorem readAsm_opImm (op : ImmOp) (rd rs1 : Reg) (imm : BitVec 12) :
    readAsm (line op.mnemonic [chr 'x' :: numeral 10 rd.toNat, chr 'x' :: numeral 10 rs1.toNat,
      decText imm.toInt]) = some (.instr (.opImm op rd rs1 imm)) := by
  have hblank : chr ' ' ∉ op.mnemonic := by cases op <;> decide
  have hfind : [ImmOp.addi, .slti, .sltiu, .xori, .ori, .andi].find?
      (fun op' => op.mnemonic = ImmOp.mnemonic op') = some op := by cases op <;> decide
  have hlow := BitVec.le_toInt imm
  have hhigh := BitVec.toInt_lt (x := imm)
  rw [readAsm_line hblank (.cons (readOperand_reg rd) (.cons (readOperand_reg rs1)
    (.cons (readOperand_dec _) .nil))), Asm.ofLine, if_pos ⟨hlow, hhigh⟩, hfind,
    BitVec.ofInt_toInt]
  rfl

theorem readAsm_opReg (op : RegOp) (rd rs1 rs2 : Reg) :
    readAsm (line op.mnemonic [chr 'x' :: numeral 10 rd.toNat, chr 'x' :: numeral 10 rs1.toNat,
      chr 'x' :: numeral 10 rs2.toNat]) = some (.instr (.opReg op rd rs1 rs2)) := by
  have hblank : chr ' ' ∉ op.mnemonic := by cases op <;> decide
  have hfind : [RegOp.add, .sub, .sll, .slt, .sltu, .xor, .srl, .sra, .or, .and].find?
      (fun op' => op.mnemonic = RegOp.mnemonic op') = some op := by cases op <;> decide
  rw [readAsm_line hblank (.cons (readOperand_reg rd) (.cons (readOperand_reg rs1)
    (.cons (readOperand_reg rs2) .nil))), Asm.ofLine, hfind]
  rfl

/-! ### What is printed -/

/-- What the text of a word says; `none` if it says that the word is unknown. -/
def printed (w pc : Word) : Option Asm :=
  let rd := w.extractLsb' 7 5
  let rs1 := w.extractLsb' 15 5
  let rs2 := w.extractLsb' 20 5
  let imm := w.extractLsb' 20 12
  let funct3 := funct3Field w
  if w &&& 0x7F = 0x37 then some (.instr (.lui rd (w.extractLsb' 12 20)))
  else if w &&& 0x7F = 0x17 then some (.instr (.auipc rd (w.extractLsb' 12 20)))
  else if w &&& 0x7F = 0x6F then some (.jal rd (pc + signExtend (immJ w) 21))
  else if w &&& 0x7F = 0x13 then
    if funct3 = 0x0 then some (.instr (.opImm .addi rd rs1 imm))
    else if funct3 = 0x4 then some (.instr (.opImm .xori rd rs1 imm))
    else if funct3 = 0x6 then some (.instr (.opImm .ori rd rs1 imm))
    else if funct3 = 0x7 then some (.instr (.opImm .andi rd rs1 imm))
    else none
  else if w &&& 0x7F = 0x33 then
    if funct3 = 0x0 then
      if (w >>> 30) &&& 1 ≠ 0 then some (.instr (.opReg .sub rd rs1 rs2))
      else some (.instr (.opReg .add rd rs1 rs2))
    else if funct3 = 0x4 then some (.instr (.opReg .xor rd rs1 rs2))
    else if funct3 = 0x6 then some (.instr (.opReg .or rd rs1 rs2))
    else if funct3 = 0x7 then some (.instr (.opReg .and rd rs1 rs2))
    else none
  else if w &&& 0x7F = 0x73 then
    if immI w = 0x0 then some (.instr .ecall)
    else if immI w = 0x1 then some .ebreak
    else none
  else none

/-- A text says that the word is unknown. -/
def SaysUnknown (text : List Byte) : Prop := (ascii "unknown").isPrefixOf text

theorem jalText_eq (w target : Word) :
    ascii "jal" ++ ascii " x" ++ decText (rdField w) ++ ascii ", 0x" ++ hexPad 8 target.toNat =
      line (ascii "jal") [chr 'x' :: numeral 10 (w.extractLsb' 7 5).toNat,
        ascii "0x" ++ hexPad 8 target.toNat] := by
  have hreg : ascii " x" = [chr ' ', chr 'x'] := rfl
  have hhex : ascii ", 0x" = [chr ',', chr ' ', chr '0', chr 'x'] := rfl
  have hzero : ascii "0x" = [chr '0', chr 'x'] := rfl
  rw [rdField_eq, decText_natCast, line, hreg, hhex, hzero]
  simp [List.intercalate_cons_cons]

/-- What reading a text gives. -/
structure Reads (text : List Byte) (o : Option Asm) : Prop where
  unknown : o = none → SaysUnknown text
  known : ∀ a, o = some a → readAsm text = some a

theorem Reads.none {text : List Byte} (h : SaysUnknown text) : Reads text none :=
  ⟨fun _ => h, fun _ ha => absurd ha (Option.some_ne_none _).symm⟩

theorem Reads.some {text : List Byte} {a : Asm} (h : readAsm text = some a) :
    Reads text (some a) :=
  ⟨fun ha => absurd ha (Option.some_ne_none _), fun _ ha => ha ▸ h⟩

theorem Reads.ite {c : Prop} [Decidable c] {s t : List Byte} {o p : Option Asm} (hs : Reads s o)
    (ht : Reads t p) : Reads (if c then s else t) (if c then o else p) := by
  split_ifs
  · exact hs
  · exact ht

/-- The text of an instruction that is known is read as it was meant. -/
theorem reads_disassembly (w pc : Word) : Reads (disassembly w pc) (printed w pc) := by
  unfold disassembly printed
  simp only [upperText_eq, opImmText_eq, opText_eq, jalText_eq]
  refine .ite (.some (readAsm_lui _ _)) (.ite (.some (readAsm_auipc _ _))
    (.ite (.some (readAsm_jal _ _)) (.ite ?_ (.ite ?_ (.ite ?_ (.none rfl))))))
  · exact .ite (.some (readAsm_opImm .addi _ _ _)) (.ite (.some (readAsm_opImm .xori _ _ _))
      (.ite (.some (readAsm_opImm .ori _ _ _)) (.ite (.some (readAsm_opImm .andi _ _ _))
        (.none rfl))))
  · exact .ite (.ite (.some (readAsm_opReg .sub _ _ _)) (.some (readAsm_opReg .add _ _ _)))
      (.ite (.some (readAsm_opReg .xor _ _ _)) (.ite (.some (readAsm_opReg .or _ _ _))
        (.ite (.some (readAsm_opReg .and _ _ _)) (.none rfl))))
  · exact .ite (.some rfl) (.ite (.some rfl) (.none rfl))

/-! ### The length of a text -/

theorem length_hexPad_le {k n : Nat} (hk : 0 < k) (hn : n < 16 ^ k) : (hexPad k n).length ≤ k := by
  have hlen := length_hexText_le hk hn
  rw [hexPad, List.length_append, List.length_replicate]
  omega

theorem length_decText_le (w : Word) (s : Nat) :
    (decText ((w.extractLsb' s 5).toNat : Nat)).length ≤ 2 := by
  have hlt := (w.extractLsb' s 5).isLt
  rw [decText_natCast]
  exact length_numeral_le (by decide) (by decide) (by omega)

theorem length_decText_imm_le (imm : BitVec 12) : (decText imm.toInt).length ≤ 5 := by
  have hlow := BitVec.le_toInt imm
  have hhigh := BitVec.toInt_lt (x := imm)
  have habs : (numeral 10 imm.toInt.natAbs).length ≤ 4 :=
    length_numeral_le (by decide) (by decide) (by omega)
  unfold decText
  split_ifs
  · rw [List.length_cons]
    omega
  · omega

theorem length_upperText_le (mnemonic : String) (w : Word) :
    (upperText mnemonic w).length ≤ (ascii mnemonic).length + 13 := by
  have hrd := length_decText_le w 7
  have himm : (hexPad 5 (w >>> 12).toNat).length ≤ 5 := by
    refine length_hexPad_le (by decide) ?_
    have := w.isLt
    rw [BitVec.toNat_ushiftRight, Nat.shiftRight_eq_div_pow]
    omega
  have hreg : (ascii " x").length = 2 := rfl
  have hhex : (ascii ", 0x").length = 4 := rfl
  simp only [upperText, rdField_eq, List.length_append, hreg, hhex]
  omega

theorem length_opImmText_le (mnemonic : String) (w : Word) :
    (opImmText mnemonic w).length ≤ (ascii mnemonic).length + 16 := by
  have hrd := length_decText_le w 7
  have hrs1 := length_decText_le w 15
  have himm : (decText (signExtend (immI w) 12).toInt).length ≤ 5 := by
    rw [immI_eq, signExtend_setWidth (by decide) (by decide),
      BitVec.toInt_signExtend_of_le (by decide)]
    exact length_decText_imm_le _
  have hreg : (ascii " x").length = 2 := rfl
  have hcomma : (ascii ", x").length = 3 := rfl
  have hnum : (ascii ", ").length = 2 := rfl
  simp only [opImmText, rdField_eq, rs1Field_eq, List.length_append, hreg, hcomma, hnum]
  omega

theorem length_opText_le (mnemonic : String) (w : Word) :
    (opText mnemonic w).length ≤ (ascii mnemonic).length + 14 := by
  have hrd := length_decText_le w 7
  have hrs1 := length_decText_le w 15
  have hrs2 := length_decText_le w 20
  have hreg : (ascii " x").length = 2 := rfl
  have hcomma : (ascii ", x").length = 3 := rfl
  simp only [opText, rdField_eq, rs1Field_eq, rs2Field_eq, List.length_append, hreg, hcomma]
  omega

theorem length_unknownText_le (name : String) (w : Word) :
    (unknownText name w).length ≤ (ascii name).length + 11 := by
  have hhex := length_hexPad_le (k := 8) (by decide) w.isLt
  have hzero : (ascii " 0x").length = 3 := rfl
  simp only [unknownText, List.length_append, hzero]
  omega

theorem length_jalText_le (w target : Word) :
    (ascii "jal" ++ ascii " x" ++ decText (rdField w) ++ ascii ", 0x" ++
      hexPad 8 target.toNat).length ≤ 19 := by
  have hrd := length_decText_le w 7
  have hhex := length_hexPad_le (k := 8) (by decide) target.isLt
  have hjal : (ascii "jal").length = 3 := rfl
  have hreg : (ascii " x").length = 2 := rfl
  have hzero : (ascii ", 0x").length = 4 := rfl
  simp only [rdField_eq, List.length_append, hjal, hreg, hzero]
  omega

theorem length_ite_lt {c : Prop} [Decidable c] {s t : List Byte} {n : Nat} (hs : s.length < n)
    (ht : t.length < n) : (if c then s else t).length < n := by
  split_ifs
  · exact hs
  · exact ht

/-- No text has more than 31 characters. -/
theorem length_disassembly_lt (w pc : Word) : (disassembly w pc).length < 32 := by
  have hupper := fun mnemonic => length_upperText_le mnemonic w
  have himm := fun mnemonic => length_opImmText_le mnemonic w
  have hop := fun mnemonic => length_opText_le mnemonic w
  have hunknown := fun name => length_unknownText_le name w
  unfold disassembly
  refine length_ite_lt ((hupper _).trans_lt (by decide)) (length_ite_lt
    ((hupper _).trans_lt (by decide)) (length_ite_lt ((length_jalText_le w _).trans_lt (by decide))
      (length_ite_lt ?_ (length_ite_lt ?_ (length_ite_lt ?_ ((hunknown _).trans_lt (by decide)))))))
  · exact length_ite_lt ((himm _).trans_lt (by decide)) (length_ite_lt
      ((himm _).trans_lt (by decide)) (length_ite_lt ((himm _).trans_lt (by decide))
        (length_ite_lt ((himm _).trans_lt (by decide)) ((hunknown _).trans_lt (by decide)))))
  · exact length_ite_lt (length_ite_lt ((hop _).trans_lt (by decide))
      ((hop _).trans_lt (by decide))) (length_ite_lt ((hop _).trans_lt (by decide))
        (length_ite_lt ((hop _).trans_lt (by decide)) (length_ite_lt ((hop _).trans_lt (by decide))
          ((hunknown _).trans_lt (by decide)))))
  · exact length_ite_lt (by decide) (length_ite_lt (by decide) ((hunknown _).trans_lt (by decide)))

theorem rv32CpuDisassemble_eq {bufSize : Nat} (hsize : 32 ≤ bufSize) (w pc : Word) :
    rv32CpuDisassemble w pc bufSize = disassembly w pc := by
  have hlen := length_disassembly_lt w pc
  rw [rv32CpuDisassemble, snprintf, List.take_of_length_le (by omega)]

/-! ### What is executed -/

/-- The words whose text says something else than what the CPU does: an operation on registers with
bit 30 set and not `SUB`, unless the result is lost or the second operand is `x0`, and the words of
opcode `SYSTEM` with the immediate of `EBREAK` that are none. -/
def Misread (w : Word) : Prop :=
  w &&& 0x7F = 0x33 ∧ funct3Field w = 0 ∧ (w >>> 30) &&& 1 ≠ 0 ∧ funct7Field w ≠ 0x20 ∧
      w.extractLsb' 7 5 ≠ 0 ∧ w.extractLsb' 20 5 ≠ 0 ∨
    w &&& 0x7F = 0x73 ∧ immI w = 1 ∧ funct3Field w ≠ 0

instance (w : Word) : Decidable (Misread w) := inferInstanceAs (Decidable (_ ∨ _))

section Opcodes

variable {currentPc w : Word} {c : Rv32Cpu}

theorem execHart_lui (h : w &&& 0x7F = 0x37) :
    execHart currentPc w c = rv32CpuWriteReg c (w.extractLsb' 7 5).toNat (w &&& 0xFFFFF000) := by
  rw [← rdField_eq]
  exact if_pos h

theorem execHart_auipc (h : w &&& 0x7F = 0x17) : execHart currentPc w c =
    rv32CpuWriteReg c (w.extractLsb' 7 5).toNat (currentPc + (w &&& 0xFFFFF000)) := by
  rw [← rdField_eq]
  unfold execHart
  simp only [h]
  rfl

theorem execHart_jal (h : w &&& 0x7F = 0x6F) : execHart currentPc w c =
    { rv32CpuWriteReg c (w.extractLsb' 7 5).toNat c.pc with
      pc := currentPc + signExtend (immJ w) 21 } := by
  rw [← rdField_eq]
  unfold execHart
  simp only [h]
  rfl

theorem execHart_opImm (h : w &&& 0x7F = 0x13) : execHart currentPc w c =
    rv32CpuWriteReg c (w.extractLsb' 7 5).toNat
      (opImmResult w (rv32CpuReadReg c (w.extractLsb' 15 5).toNat)) := by
  rw [← rdField_eq, ← rs1Field_eq]
  unfold execHart
  simp only [h]
  rfl

theorem execHart_op (h : w &&& 0x7F = 0x33) : execHart currentPc w c =
    rv32CpuWriteReg c (w.extractLsb' 7 5).toNat
      (opResult w (rv32CpuReadReg c (w.extractLsb' 15 5).toNat)
        (rv32CpuReadReg c (w.extractLsb' 20 5).toNat)) := by
  rw [← rdField_eq, ← rs1Field_eq, ← rs2Field_eq]
  unfold execHart
  simp only [h]
  rfl

theorem execHart_system (h : w &&& 0x7F = 0x73) : execHart currentPc w c =
    if funct3Field w = 0 ∧ immI w = 1 then c.halt else c := by
  unfold execHart
  simp only [h]
  rfl

end Opcodes

theorem opImmResult_printed {w : Word} (op : ImmOp) (hfunct3 : funct3Field w = op.funct3.setWidth 32)
    (a : Word) : opImmResult w a = op.eval a ((w.extractLsb' 20 12).signExtend 32) := by
  have himm : signExtend (immI w) 12 = (w.extractLsb' 20 12).signExtend 32 := by
    rw [immI_eq, signExtend_setWidth (by decide) (by decide)]
  unfold opImmResult
  simp only [hfunct3, himm, ofBool_ult]
  cases op <;> rfl

/-- Of `XOR`, `OR` and `AND`, `funct7` is not looked at. -/
theorem opResult_printed {w : Word} (op : RegOp) (hop : op ∈ [RegOp.xor, .or, .and])
    (hfunct3 : funct3Field w = op.funct3.setWidth 32) (a b : Word) :
    opResult w a b = op.eval a b := by
  unfold opResult
  simp only [hfunct3]
  simp only [List.mem_cons, List.not_mem_nil, or_false] at hop
  rcases hop with rfl | rfl | rfl <;> rfl

theorem opResult_zero {w : Word} (hfunct3 : funct3Field w = 0) (a b : Word) :
    opResult w a b = if funct7Field w = 0x20 then a - b else a + b := by
  unfold opResult
  simp only [hfunct3]
  rfl

/-- Bit 30 is one of `funct7`. -/
theorem bit_of_funct7 {w : Word} (h : funct7Field w = 0x20) : (w >>> 30) &&& 1 ≠ 0 := by
  have hset : w.getLsbD 30 = true := by
    have hbit := congrArg (fun v => v.getLsbD 5) (funct7Field_eq w ▸ h)
    rw [BitVec.getLsbD_setWidth, BitVec.getLsbD_extractLsb'] at hbit
    simpa using hbit
  intro hzero
  have hclear := congrArg (fun v => v.getLsbD 0) hzero
  rw [BitVec.getLsbD_and, BitVec.getLsbD_ushiftRight, hset] at hclear
  cases hclear

theorem setReg_zero (s : State) (v : Word) : s.setReg 0 v = s :=
  State.ext rfl (funext fun _ => if_neg fun h => h.2 rfl) rfl

/-- What the line `a` says is what a hart does that executes the word `w`. -/
def Does (c : Rv32Cpu) (mem : Word → Option Byte) (w : Word) (a : Asm) : Prop :=
  archHart (execHart c.pc w c.advance) mem = a.exec (archHart c mem) ∧
    (execHart c.pc w c.advance).halted = (c.halted || a.halts)

section Does

variable {c : Rv32Cpu} {mem : Word → Option Byte} {w : Word}

theorem does_of_archHart {a : Asm} (hop : w &&& 0x7F ≠ 0x73) (ha : a.halts = false)
    (h : archHart (execHart c.pc w c.advance) mem = a.exec (archHart c mem)) :
    Does c mem w a := by
  refine ⟨h, ?_⟩
  rw [halted_execHart _ _ _ hop, ha, Bool.or_false]
  rfl

theorem does_opImm (op : ImmOp) (h : w &&& 0x7F = 0x13)
    (hfunct3 : funct3Field w = op.funct3.setWidth 32) : Does c mem w
      (.instr (.opImm op (w.extractLsb' 7 5) (w.extractLsb' 15 5) (w.extractLsb' 20 12))) := by
  refine does_of_archHart (by rw [h]; decide) rfl ?_
  rw [execHart_opImm h, opImmResult_printed op hfunct3]
  exact archHart_advance_writeReg _ _ _ _

theorem does_opReg (op : RegOp) (h : w &&& 0x7F = 0x33)
    (hresult : ∀ a b, opResult w a b = op.eval a b) : Does c mem w
      (.instr (.opReg op (w.extractLsb' 7 5) (w.extractLsb' 15 5) (w.extractLsb' 20 5))) := by
  refine does_of_archHart (by rw [h]; decide) rfl ?_
  rw [execHart_op h, hresult]
  exact archHart_advance_writeReg _ _ _ _

/-- A sum in place of a difference, when it is lost, or is that of a register and `x0`. -/
theorem does_sub (h : w &&& 0x7F = 0x33) (hfunct3 : funct3Field w = 0)
    (hfunct7 : funct7Field w ≠ 0x20) (hzero : w.extractLsb' 7 5 = 0 ∨ w.extractLsb' 20 5 = 0) :
    Does c mem w
      (.instr (.opReg .sub (w.extractLsb' 7 5) (w.extractLsb' 15 5) (w.extractLsb' 20 5))) := by
  refine does_of_archHart (by rw [h]; decide) rfl ?_
  rw [execHart_op h, opResult_zero hfunct3, if_neg hfunct7, archHart_advance_writeReg]
  rcases hzero with hrd | hrs2
  · show State.next _ = State.next _
    rw [hrd, setReg_zero, setReg_zero]
  · have hzero : rv32CpuReadReg c.advance (w.extractLsb' 20 5).toNat = 0#32 := by
      rw [hrs2]
      rfl
    have hsame : (archHart c mem).reg (w.extractLsb' 20 5) = 0#32 := hzero
    show _ = State.next (State.setReg _ _ ((archHart c mem).reg (w.extractLsb' 15 5) -
      (archHart c mem).reg (w.extractLsb' 20 5)))
    rw [hzero, hsame, BitVec.add_zero, BitVec.sub_zero]
    rfl

end Does

theorem forall_ite {c : Prop} [Decidable c] {o p : Option Asm} {P : Asm → Prop}
    (hc : c → ∀ a, o = some a → P a) (hn : ¬c → ∀ a, p = some a → P a) :
    ∀ a, (if c then o else p) = some a → P a := by
  split_ifs with h
  · exact hc h
  · exact hn h

theorem forall_some {a : Asm} {P : Asm → Prop} (h : P a) : ∀ b, some a = some b → P b :=
  fun _ hb => Option.some.inj hb ▸ h

theorem forall_none {P : Asm → Prop} : ∀ a, (none : Option Asm) = some a → P a :=
  fun _ ha => absurd ha (Option.some_ne_none _).symm

/-- What is executed is what is printed, unless the word is misread. -/
theorem does_printed (c : Rv32Cpu) (mem : Word → Option Byte) {w : Word} (hread : ¬Misread w) :
    ∀ a, printed w c.pc = some a → Does c mem w a := by
  unfold printed
  -- one case for each test of the printer, in its order
  refine forall_ite (fun hlui => ?_) fun _ => forall_ite (fun hauipc => ?_) fun _ =>
    forall_ite (fun hjal => ?_) fun _ => forall_ite (fun himm => ?_) fun _ =>
      forall_ite (fun hop => ?_) fun _ => forall_ite (fun hsystem => ?_) fun _ => forall_none
  · refine forall_some (does_of_archHart (by rw [hlui]; decide) rfl ?_)
    rw [execHart_lui hlui, immU_eq]
    exact archHart_advance_writeReg _ _ _ _
  · refine forall_some (does_of_archHart (by rw [hauipc]; decide) rfl ?_)
    rw [execHart_auipc hauipc, immU_eq]
    exact archHart_advance_writeReg _ _ _ _
  · refine forall_some (does_of_archHart (by rw [hjal]; decide) rfl ?_)
    rw [execHart_jal hjal]
    exact archHart_jump_writeReg _ _ _ _ _
  · exact forall_ite (fun h => forall_some (does_opImm .addi himm h)) fun _ =>
      forall_ite (fun h => forall_some (does_opImm .xori himm h)) fun _ =>
        forall_ite (fun h => forall_some (does_opImm .ori himm h)) fun _ =>
          forall_ite (fun h => forall_some (does_opImm .andi himm h)) fun _ => forall_none
  · refine forall_ite (fun hzero => ?_) fun _ =>
      forall_ite (fun h => forall_some (does_opReg .xor hop (opResult_printed .xor (by decide) h)))
        fun _ => forall_ite (fun h => forall_some
          (does_opReg .or hop (opResult_printed .or (by decide) h))) fun _ =>
            forall_ite (fun h => forall_some
              (does_opReg .and hop (opResult_printed .and (by decide) h))) fun _ => forall_none
    -- `sub` is printed for one bit of funct7, and executed for all seven
    refine forall_ite (fun hbit => ?_) fun hbit => ?_
    · by_cases hfunct7 : funct7Field w = 0x20
      · refine forall_some (does_opReg .sub hop fun a b => ?_)
        rw [opResult_zero hzero, if_pos hfunct7]
        rfl
      · refine forall_some (does_sub hop hzero hfunct7 ?_)
        by_contra hno
        rw [not_or] at hno
        exact hread (Or.inl ⟨hop, hzero, hbit, hfunct7, hno⟩)
    · refine forall_some (does_opReg .add hop fun a b => ?_)
      rw [opResult_zero hzero, if_neg fun hfunct7 => hbit (bit_of_funct7 hfunct7)]
      rfl
  · refine forall_ite (fun hecall => ?_) fun _ => forall_ite (fun hebreak => ?_) fun _ =>
      forall_none
    · have hno : ¬(funct3Field w = 0 ∧ immI w = 1) := fun h =>
        absurd (hecall.symm.trans h.2) (by decide)
      refine forall_some ?_
      rw [Does, execHart_system hsystem, if_neg hno]
      exact ⟨rfl, (Bool.or_false _).symm⟩
    · -- `ebreak` is printed whatever funct3 is
      have hfunct3 : funct3Field w = 0 := by
        by_contra hfunct3
        exact hread (Or.inr ⟨hsystem, hebreak, hfunct3⟩)
      refine forall_some ?_
      rw [Does, execHart_system hsystem, if_pos ⟨hfunct3, hebreak⟩]
      exact ⟨rfl, (Bool.or_true _).symm⟩

/-- A step of hart `h` does what a line of assembly says: to its registers, its program counter and its
RAM, and to `halted`, which the watchpoint check of the fetch may have set; no other hart is
concerned. -/
structure Executes (a : Asm) (connected : Bool) (m : Machine) (h : Nat) : Prop where
  state : archState (rv32CpuStep connected m h) h = a.exec (archState m h)
  halted : ((rv32CpuStep connected m h).hart h).halted =
    (((afterFetch connected m h).hart h).halted || a.halts)
  running : ((rv32CpuStep connected m h).hart h).running
  others : ∀ k, k ≠ h → (rv32CpuStep connected m h).hart k = m.hart k

theorem opcode_of_printed {w pc : Word} {a : Asm} (h : printed w pc = some a) :
    w &&& 0x7F ∈ [0x37, 0x17, 0x6F, 0x13, 0x33, 0x73] := by
  by_contra hno
  simp only [List.mem_cons, List.not_mem_nil, or_false, not_or] at hno
  obtain ⟨hlui, hauipc, hjal, himm, hop, hsystem⟩ := hno
  unfold printed at h
  simp only at h
  rw [if_neg hlui, if_neg hauipc, if_neg hjal, if_neg himm, if_neg hop, if_neg hsystem] at h
  cases h

/-- A step at a word that has a text. -/
theorem rv32CpuStep_of_printed {connected : Bool} {m : Machine} {h : Nat} {a : Asm}
    (hrun : (m.hart h).running) (ha : printed (fetched m h) (m.hart h).pc = some a) :
    rv32CpuStep connected m h =
      (afterFetch connected m h).updHart h (execHart (m.hart h).pc (fetched m h)) := by
  have hop := opcode_of_printed ha
  have hload : fetched m h &&& 0x7F ≠ 0x03 := by
    intro he
    rw [he] at hop
    revert hop
    decide
  have hstore : fetched m h &&& 0x7F ≠ 0x23 := by
    intro he
    rw [he] at hop
    revert hop
    decide
  rw [rv32CpuStep_of_running connected hrun, if_neg hload, if_neg hstore]

/-- What a step at a word that has a text does to the state. -/
theorem archState_of_printed (connected : Bool) {m : Machine} {h : Nat} {a : Asm}
    (hrun : (m.hart h).running) (ha : printed (fetched m h) (m.hart h).pc = some a) :
    ∃ c, archHart c (ramAt m.sys h) = archState m h ∧ c.pc = (m.hart h).pc ∧
      (afterFetch connected m h).hart h = c.advance ∧
      archState (rv32CpuStep connected m h) h =
        archHart (execHart c.pc (fetched m h) c.advance) (ramAt m.sys h) ∧
      (rv32CpuStep connected m h).hart h = execHart c.pc (fetched m h) c.advance := by
  obtain ⟨b, hb⟩ := hart_afterFetch connected m h
  have hhart : (afterFetch connected m h).hart h = Rv32Cpu.advance { m.hart h with halted := b } := by
    rw [hb, if_pos rfl]
  have hmem : (archState (afterFetch connected m h) h).mem = ramAt m.sys h := by
    rw [afterFetch, archState_updHart _ h rfl rfl, archHart_advance]
    exact congrArg State.mem (archState_checkAccess _ _ _ _ _ _)
  have hsame := sameCore_execHart (m.hart h).pc (fetched m h) ((afterFetch connected m h).hart h)
  refine ⟨{ m.hart h with halted := b }, rfl, rfl, hhart, ?_, ?_⟩
  · rw [rv32CpuStep_of_printed hrun ha, archState_updHart _ _ hsame.memory hsame.sharedRam, hmem,
      hhart]
  · rw [rv32CpuStep_of_printed hrun ha, Target.hart_updHart, if_pos rfl, hhart]

theorem executes_of_printed {connected : Bool} {m : Machine} {h : Nat} {a : Asm}
    (hrun : (m.hart h).running) (ha : printed (fetched m h) (m.hart h).pc = some a)
    (hread : ¬Misread (fetched m h)) : Executes a connected m h := by
  obtain ⟨c, harch, hpc, hfetch, hstate, hhart⟩ :=
    archState_of_printed connected hrun ha
  obtain ⟨hexec, hhalted⟩ := does_printed c (ramAt m.sys h) hread a (hpc.symm ▸ ha)
  constructor
  · rw [hstate, hexec, harch]
  · rw [hhart, hhalted, hfetch]
    rfl
  · rw [running_rv32CpuStep connected hrun]
    have hop := opcode_of_printed ha
    simp only [List.mem_cons, List.not_mem_nil, or_false] at hop
    rcases hop with h | h | h | h | h | h <;> rw [knownOpcode, h] <;> decide
  · intro k hk
    obtain ⟨b, hb⟩ := hart_afterFetch connected m h
    rw [rv32CpuStep_of_printed hrun ha, Target.hart_updHart, if_neg hk, hb, if_neg hk]

/-! ### Agreement -/

/-- The text of a word at an address, if it does not say that the word is unknown, is a line of
assembly that a hart with the word there carries out. -/
def Disassembles (w pc : Word) (bufSize : Nat) : Prop :=
  ¬SaysUnknown (rv32CpuDisassemble w pc bufSize) →
    ∃ a, readAsm (rv32CpuDisassemble w pc bufSize) = some a ∧
      ∀ (connected : Bool) (m : Machine) (h : Nat), (m.hart h).running → (m.hart h).pc = pc →
        (archState m h).fetch = some w → Executes a connected m h

/-- Hart `0` is about to execute the word `w` at `pc`, with `1` in its registers. -/
structure ReadyAt (w pc : Word) (m : Machine) : Prop where
  running : (m.hart 0).running
  halted : (m.hart 0).halted = false
  pc : (m.hart 0).pc = pc
  regs : ∀ r, (m.hart 0).regs r = 1
  fetch : (archState m 0).fetch = some w

theorem exists_readyAt (w : Word) {pc : Word} (hpc : inRam pc 4) : ∃ m, ReadyAt w pc m := by
  obtain ⟨m, hrun, hhalt, hpcm, hregs⟩ : ∃ m : Machine, (m.hart 0).running = true ∧
      (m.hart 0).halted = false ∧ (m.hart 0).pc = pc ∧ ∀ r, (m.hart 0).regs r = 1 :=
    ⟨(loadedSession 1 []).world.toTarget.updHart 0 fun c =>
      { rv32CpuInit with pc := pc, regs := fun _ => 1 }, rfl, rfl, rfl, fun _ => rfl⟩
  have hsize : AccessSize 4 := Or.inr (Or.inr rfl)
  obtain ⟨memory, hmemory⟩ := m.sys.harts_ramStore 0 (ramOffset pc) w 4 0
  have hhart : (m.updSys fun s => s.ramStore 0 (ramOffset pc) w 4).hart 0 =
      { m.hart 0 with memory := memory } := hmemory
  refine ⟨m.updSys fun s => s.ramStore 0 (ramOffset pc) w 4, ?_, ?_, ?_, ?_, ?_⟩
  · rwa [hhart]
  · rwa [hhart]
  · rwa [hhart]
  · rwa [hhart]
  · have hmapped := (mapped_iff (m := m) (h := 0) hsize).mpr hpc
    have hstore := store_archState m 0 pc w hsize
    rw [if_pos hpc] at hstore
    have hload := State.load_store_same (archState m 0) w hmapped
    have hmapped' := hmapped.store pc w 4
    have hpc' : ((archState m 0).store pc w 4).pc = pc := (State.pc_store _ _ _ _).trans hpcm
    rw [State.load, if_pos hmapped'] at hload
    rw [← hstore, State.fetch, hpc', if_pos hmapped', hload]

namespace ReadyAt

variable {w pc : Word} {m : Machine}

/-- Without a client, the fetch does not halt the hart. -/
theorem halted_afterFetch (h : ReadyAt w pc m) :
    ((afterFetch false m 0).hart 0).halted = false := by
  have hcheck : checkAccess .load false (m.log (.exec 0 (m.hart 0).pc)) 0 (m.hart 0).pc 4 =
      m.log (.exec 0 (m.hart 0).pc) := checkAccess_of_none rfl
  rw [afterFetch, hcheck, Target.hart_updHart, if_pos rfl]
  exact h.halted

theorem reg (h : ReadyAt w pc m) {r : Reg} (hr : r ≠ 0) : (archState m 0).reg r = 1 := by
  have hzero : r.toNat ≠ 0 := fun hr0 => hr (BitVec.eq_of_toNat_eq hr0)
  show rv32CpuReadReg (m.hart 0) r.toNat = 1
  rw [rv32CpuReadReg, if_neg hzero, dif_pos r.isLt, h.regs]

end ReadyAt

/-- A misread word has a text, and a hart that executes it with `1` in its registers does something
else than its text says. -/
theorem not_executes_of_misread {w pc : Word} {m : Machine} (hm : ReadyAt w pc m)
    (hread : Misread w) : ¬SaysUnknown (disassembly w pc) ∧
      ∃ a, printed w pc = some a ∧ ¬Executes a false m 0 := by
  have hword := fetched_of_fetch hm.fetch
  rcases hread with ⟨hop, hfunct3, hbit, hfunct7, hrd, hrs2⟩ | ⟨hsystem, himm, hfunct3⟩
  · have htext : disassembly w pc = opText "sub" w := by
      unfold disassembly
      simp only [hop, hfunct3]
      exact if_pos hbit
    have hprinted : printed w pc = some (.instr (.opReg .sub (w.extractLsb' 7 5)
        (w.extractLsb' 15 5) (w.extractLsb' 20 5))) := by
      unfold printed
      simp only [hop, hfunct3]
      exact if_pos hbit
    refine ⟨fun h => ?_, _, hprinted, fun hexec => ?_⟩
    · rw [htext] at h
      exact Bool.false_ne_true h
    · have hprinted' := hprinted
      rw [← hword, ← hm.pc] at hprinted'
      obtain ⟨c, harch, -, -, hstate, -⟩ :=
        archState_of_printed false hm.running hprinted'
      have hstates := hstate.symm.trans hexec.state
      have hread : ∀ r : Reg, rv32CpuReadReg c.advance r.toNat = (archState m 0).reg r :=
        fun r => congrArg (fun s => s.reg r) harch
      rw [hword, execHart_op hop, opResult_zero hfunct3, if_neg hfunct7,
        archHart_advance_writeReg, harch, hread, hread] at hstates
      -- the sum against the difference
      have hreg := congrArg (fun s => s.reg (w.extractLsb' 7 5)) hstates
      simp only [Asm.exec, Instr.exec, State.reg_next, State.reg_setReg, hrd, ne_eq,
        not_false_iff, and_self, if_true, hm.reg hrs2] at hreg
      have hresult : (archState m 0).reg (w.extractLsb' 15 5) + 1#32 =
          (archState m 0).reg (w.extractLsb' 15 5) - 1#32 := hreg
      bv_omega
  · have htext : disassembly w pc = ascii "ebreak" := by
      unfold disassembly
      simp only [hsystem, himm]
      rfl
    have hprinted : printed w pc = some .ebreak := by
      unfold printed
      simp only [hsystem, himm]
      rfl
    refine ⟨fun h => ?_, _, hprinted, fun hexec => ?_⟩
    · rw [htext] at h
      exact Bool.false_ne_true h
    · rw [← hword, ← hm.pc] at hprinted
      obtain ⟨c, -, -, hfetch, -, hhart⟩ :=
        archState_of_printed false hm.running hprinted
      have hhalted := hexec.halted
      rw [hm.halted_afterFetch, hhart, hword, execHart_system hsystem, if_neg fun h => hfunct3 h.1,
        ← hfetch, hm.halted_afterFetch] at hhalted
      cases hhalted

theorem not_disassembles_of_misread {bufSize : Nat} (hsize : 32 ≤ bufSize) {w pc : Word}
    (hpc : inRam pc 4) (hread : Misread w) : ¬Disassembles w pc bufSize := by
  intro hagree
  rw [Disassembles, rv32CpuDisassemble_eq hsize] at hagree
  obtain ⟨m, hm⟩ := exists_readyAt w hpc
  obtain ⟨hknown, a, ha, hno⟩ := not_executes_of_misread hm hread
  obtain ⟨a', ha', hexec⟩ := hagree hknown
  obtain rfl : a = a' := Option.some.inj (((reads_disassembly w pc).known a ha).symm.trans ha')
  exact hno (hexec false m 0 hm.running hm.pc hm.fetch)

/-- The text of a word and what the CPU does there agree, unless the word is misread. -/
theorem disassembles_iff {bufSize : Nat} (hsize : 32 ≤ bufSize) (w pc : Word) :
    Disassembles w pc bufSize ↔ ¬(inRam pc 4 ∧ Misread w) := by
  constructor
  · exact fun hagree h => not_disassembles_of_misread hsize h.1 h.2 hagree
  · have hreads := reads_disassembly w pc
    rw [Disassembles, rv32CpuDisassemble_eq hsize]
    intro hread hknown
    cases ha : printed w pc with
    | none => exact absurd (hreads.unknown ha) hknown
    | some a =>
      refine ⟨a, hreads.known a ha, fun connected m h hrun hpc hfetch => ?_⟩
      have hword := fetched_of_fetch hfetch
      have hmapped : (archState m h).Mapped (archState m h).pc 4 := by
        by_contra hno
        rw [State.fetch, if_neg hno] at hfetch
        cases hfetch
      have hin : inRam (m.hart h).pc 4 := (mapped_iff (Or.inr (Or.inr rfl))).mp hmapped
      rw [hpc] at hin
      refine executes_of_printed hrun ?_ ?_
      · rw [hword, hpc]
        exact ha
      · rw [hword]
        exact fun hmis => hread ⟨hin, hmis⟩

/-- `sub x4, x5, x6`, in the buffer of the debug mode. -/
theorem disassembles_sub : Disassembles 0x40628233 0x80000000 128 :=
  (disassembles_iff (by decide) _ _).mpr (by decide)

/-- A word with bit 30 set and bit 31 too is no `SUB` for the CPU. -/
theorem not_disassembles_sub :
    rv32CpuDisassemble 0xC0628233 0x80000000 128 = ascii "sub x4, x5, x6" ∧
      ¬Disassembles 0xC0628233 0x80000000 128 :=
  ⟨by decide +kernel, not_disassembles_of_misread (by decide) (by decide) (by decide)⟩

end Rv32Gdb
