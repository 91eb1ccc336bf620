import Rv32Gdb.Emu.Cpu
import Rv32Gdb.Numerals

/-!
# The disassembler

`rv32CpuDisassemble` is the text that the debug mode prints of an instruction.  It decodes the word
on its own: fewer instructions than `rv32CpuStep` knows, and not by the same fields.
-/

namespace Rv32Gdb

/-- `"<mnemonic> x%d, 0x%05x"`, of `LUI` and `AUIPC`. -/
def upperText (mnemonic : String) (i : Word) : List Byte :=
  ascii mnemonic ++ ascii " x" ++ decText (rdField i) ++ ascii ", 0x" ++ hexPad 5 (i >>> 12).toNat

/-- `"<mnemonic> x%d, x%d, %d"`, of the immediate operations. -/
def opImmText (mnemonic : String) (i : Word) : List Byte :=
  ascii mnemonic ++ ascii " x" ++ decText (rdField i) ++ ascii ", x" ++ decText (rs1Field i) ++
    ascii ", " ++ decText (signExtend (immI i) 12).toInt

/-- `"<mnemonic> x%d, x%d, x%d"`, of the operations on registers. -/
def opText (mnemonic : String) (i : Word) : List Byte :=
  ascii mnemonic ++ ascii " x" ++ decText (rdField i) ++ ascii ", x" ++ decText (rs1Field i) ++
    ascii ", x" ++ decText (rs2Field i)

/-- `"<name> 0x%08x"`, of a word that has no text. -/
def unknownText (name : String) (i : Word) : List Byte :=
  ascii name ++ ascii " 0x" ++ hexPad 8 i.toNat

/-- The text of an instruction. -/
def disassembly (instruction pc : Word) : List Byte :=
  let opcode := instruction &&& 0x7F
  let funct3 := funct3Field instruction
  if opcode = 0x37 then upperText "lui" instruction
  else if opcode = 0x17 then upperText "auipc" instruction
  else if opcode = 0x6F then
    ascii "jal" ++ ascii " x" ++ decText (rdField instruction) ++ ascii ", 0x" ++
      hexPad 8 (pc + signExtend (immJ instruction) 21).toNat
  else if opcode = 0x13 then
    if funct3 = 0x0 then opImmText "addi" instruction
    else if funct3 = 0x4 then opImmText "xori" instruction
    else if funct3 = 0x6 then opImmText "ori" instruction
    else if funct3 = 0x7 then opImmText "andi" instruction
    else unknownText "unknown_op_imm" instruction
  else if opcode = 0x33 then
    if funct3 = 0x0 then
      -- bit 30 alone, not the whole of `funct7`
      if (instruction >>> 30) &&& 1 ≠ 0 then opText "sub" instruction
      else opText "add" instruction
    else if funct3 = 0x4 then opText "xor" instruction
    else if funct3 = 0x6 then opText "or" instruction
    else if funct3 = 0x7 then opText "and" instruction
    else unknownText "unknown_op" instruction
  else if opcode = 0x73 then
    -- whatever `funct3` is
    if immI instruction = 0x0 then ascii "ecall"
    else if immI instruction = 0x1 then ascii "ebreak"
    else unknownText "unknown_system" instruction
  else unknownText "unknown" instruction

/-- `rv32_cpu_disassemble`: the string that it leaves in a buffer of `bufSize` bytes. -/
def rv32CpuDisassemble (instruction pc : Word) (bufSize : Nat) : List Byte :=
  snprintf bufSize (disassembly instruction pc)

end Rv32Gdb
