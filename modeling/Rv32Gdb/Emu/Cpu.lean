import Rv32Gdb.Emu.System

/-!
# The RV32I CPU

`rv32CpuStep` executes one instruction of a hart.  A memory access, the instruction fetch
included, first asks the watchpoint hook of `main.c`, which records the hart as the stop hart; a
hit halts the hart but the access is still carried out.
-/

namespace Rv32Gdb

/-! ### Memory and registers -/

/-- `gdb_watchpoint_read` and `gdb_watchpoint_write`: the check of the stub, and the stop hart on
a hit. -/
def gdbWatchpoint (check : DebugState .x32 → GdbAddr .x32 → GdbAddr .x32 → Bool × DebugState .x32)
    (connected : Bool) (m : Machine) (h : Nat) (addr len : Word) : Bool × Machine :=
  if !connected then (false, m)
  else
    let (hit, d) := check m.dbg addr len
    let m : Machine := { m with dbg := d }
    if hit then (true, m.updSys fun s => { s with stopHart := (s.harts h).hartId })
    else (false, m)

/-- `cpu->halted = true`. -/
def Rv32Cpu.halt (c : Rv32Cpu) : Rv32Cpu := { c with halted := true }

/-- The hook in front of an access: a hit halts the hart. -/
def checkAccess (kind : AccessKind) (connected : Bool) (m : Machine) (h : Nat) (addr : Word)
    (size : Nat) : Machine :=
  let check := match kind with
    | .load => gdbStubCheckWatchpointRead
    | .store => gdbStubCheckWatchpointWrite
  let (hit, m) := gdbWatchpoint check connected m h addr (BitVec.ofNat 32 size)
  if hit then m.updHart h Rv32Cpu.halt else m

/-- `rv32_cpu_read_mem`; the UART, the low addresses and all others outside RAM read as `0`. -/
def rv32CpuReadMem (connected : Bool) (m : Machine) (h : Nat) (addr : Word) (size : Nat) :
    Word × Machine :=
  let m := checkAccess .load connected m h addr size
  (if inRam addr size then m.sys.ramLoad h (ramOffset addr) size else 0, m)

/-- `rv32_cpu_write_mem`; a store outside RAM has no effect on the state. -/
def rv32CpuWriteMem (connected : Bool) (m : Machine) (h : Nat) (addr value : Word) (size : Nat) :
    Machine :=
  let m := checkAccess .store connected m h addr size
  if inRam addr size then m.updSys fun s => s.ramStore h (ramOffset addr) value size else m

/-- `rv32_cpu_read_reg`. -/
def rv32CpuReadReg (c : Rv32Cpu) (reg : Nat) : Word :=
  if reg = 0 then 0 else if h : reg < 32 then c.regs ⟨reg, h⟩ else 0

/-- `rv32_cpu_write_reg`. -/
def rv32CpuWriteReg (c : Rv32Cpu) (reg : Nat) (value : Word) : Rv32Cpu :=
  if reg = 0 then c
  else if h : reg < 32 then { c with regs := Function.update c.regs ⟨reg, h⟩ value } else c

/-! ### Instruction fields -/

/-- `sign_extend`. -/
def signExtend (value : Word) (bits : Nat) : Word :=
  if value &&& (1#32 <<< (bits - 1)) ≠ 0 then value ||| ~~~((1#32 <<< bits) - 1) else value

/-- `rd`. -/
def rdField (i : Word) : Nat := ((i >>> 7) &&& 0x1F).toNat

/-- `rs1`. -/
def rs1Field (i : Word) : Nat := ((i >>> 15) &&& 0x1F).toNat

/-- `rs2`. -/
def rs2Field (i : Word) : Nat := ((i >>> 20) &&& 0x1F).toNat

/-- `funct3`. -/
def funct3Field (i : Word) : Word := (i >>> 12) &&& 0x7

/-- `funct7`. -/
def funct7Field (i : Word) : Word := (i >>> 25) &&& 0x7F

/-- The 12-bit immediate of loads, `JALR` and the immediate operations, before sign extension. -/
def immI (i : Word) : Word := (i >>> 20) &&& 0xFFF

/-- The immediate of the stores. -/
def immS (i : Word) : Word := ((i >>> 25) <<< 5) ||| ((i >>> 7) &&& 0x1F)

/-- The immediate of the branches. -/
def immB (i : Word) : Word :=
  ((i >>> 31) <<< 12) ||| (((i >>> 7) &&& 0x1) <<< 11) ||| (((i >>> 25) &&& 0x3F) <<< 5) |||
    (((i >>> 8) &&& 0xF) <<< 1)

/-- The immediate of `JAL`. -/
def immJ (i : Word) : Word :=
  ((i >>> 31) <<< 20) ||| (((i >>> 12) &&& 0xFF) <<< 12) ||| (((i >>> 20) &&& 0x1) <<< 11) |||
    (((i >>> 21) &&& 0x3FF) <<< 1)

/-! ### The instructions without memory access -/

/-- `OPCODE_BRANCH`: whether the branch is taken. -/
def takeBranch (funct3 val1 val2 : Word) : Bool :=
  -- BEQ, BNE, BLT, BGE, BLTU and BGEU
  if funct3 = 0x0 then val1 = val2
  else if funct3 = 0x1 then val1 ≠ val2
  else if funct3 = 0x4 then val1.slt val2
  else if funct3 = 0x5 then !val1.slt val2
  else if funct3 = 0x6 then val1 < val2
  else if funct3 = 0x7 then !decide (val1 < val2)
  else false

/-- `OPCODE_OP_IMM`: the result. -/
def opImmResult (i val1 : Word) : Word :=
  let imm := immI i
  let immVal := signExtend imm 12
  let funct3 := funct3Field i
  -- ADDI, SLTI, SLTIU, XORI, ORI, ANDI, SLLI, and SRAI or SRLI by bit 10 of the immediate
  if funct3 = 0x0 then val1 + immVal
  else if funct3 = 0x2 then if val1.slt immVal then 1 else 0
  else if funct3 = 0x3 then if val1 < immVal then 1 else 0
  else if funct3 = 0x4 then val1 ^^^ immVal
  else if funct3 = 0x6 then val1 ||| immVal
  else if funct3 = 0x7 then val1 &&& immVal
  else if funct3 = 0x1 then val1 <<< (imm &&& 0x1F).toNat
  else if imm &&& 0x400 ≠ 0 then val1.sshiftRight (imm &&& 0x1F).toNat
  else val1 >>> (imm &&& 0x1F).toNat

/-- `OPCODE_OP`: the result. -/
def opResult (i val1 val2 : Word) : Word :=
  let funct3 := funct3Field i
  let funct7 := funct7Field i
  -- ADD or SUB, SLL, SLT, SLTU, XOR, SRL or SRA, OR, AND
  if funct3 = 0x0 then if funct7 = 0x20 then val1 - val2 else val1 + val2
  else if funct3 = 0x1 then val1 <<< (val2 &&& 0x1F).toNat
  else if funct3 = 0x2 then if val1.slt val2 then 1 else 0
  else if funct3 = 0x3 then if val1 < val2 then 1 else 0
  else if funct3 = 0x4 then val1 ^^^ val2
  else if funct3 = 0x5 then
    if funct7 = 0x20 then val1.sshiftRight (val2 &&& 0x1F).toNat
    else val1 >>> (val2 &&& 0x1F).toNat
  else if funct3 = 0x6 then val1 ||| val2
  else val1 &&& val2

/-- The cases of the `switch` that do not access memory; `currentPc` is the address of the
instruction and `c.pc` already the next one. -/
def execHart (currentPc i : Word) (c : Rv32Cpu) : Rv32Cpu :=
  let opcode := i &&& 0x7F
  -- LUI and AUIPC
  if opcode = 0x37 then rv32CpuWriteReg c (rdField i) (i &&& 0xFFFFF000)
  else if opcode = 0x17 then rv32CpuWriteReg c (rdField i) (currentPc + (i &&& 0xFFFFF000))
  -- JAL and JALR: the link is the pc that is already advanced
  else if opcode = 0x6F then
    { rv32CpuWriteReg c (rdField i) c.pc with pc := currentPc + signExtend (immJ i) 21 }
  else if opcode = 0x67 then
    let target := (rv32CpuReadReg c (rs1Field i) + signExtend (immI i) 12) &&& ~~~1
    { rv32CpuWriteReg c (rdField i) c.pc with pc := target }
  else if opcode = 0x63 then
    if takeBranch (funct3Field i) (rv32CpuReadReg c (rs1Field i)) (rv32CpuReadReg c (rs2Field i))
    then { c with pc := currentPc + signExtend (immB i) 13 } else c
  -- the immediate and the register operations
  else if opcode = 0x13 then
    rv32CpuWriteReg c (rdField i) (opImmResult i (rv32CpuReadReg c (rs1Field i)))
  else if opcode = 0x33 then
    rv32CpuWriteReg c (rdField i)
      (opResult i (rv32CpuReadReg c (rs1Field i)) (rv32CpuReadReg c (rs2Field i)))
  else if opcode = 0x73 then
    -- EBREAK traps to the debugger, ECALL and all others continue
    if funct3Field i = 0 ∧ immI i = 1 then c.halt else c
  -- an unknown opcode stops the hart
  else { c with running := false }

/-- An instruction without data access writes a register, sets the program counter or does both, or
it halts or stops its hart, or does nothing. -/
theorem execHart_induction {P : Rv32Cpu → Prop} (currentPc i : Word) (c : Rv32Cpu)
    (hreg : ∀ reg value, P (rv32CpuWriteReg c reg value))
    (hjump : ∀ reg value pc, P { rv32CpuWriteReg c reg value with pc := pc })
    (hpc : ∀ pc, P { c with pc := pc }) (hnone : P c) (hhalt : i &&& 0x7F = 0x73 → P c.halt)
    (hstop : P { c with running := false }) : P (execHart currentPc i c) := by
  unfold execHart
  extract_lets opcode
  refine iteInduction (fun _ => hreg _ _) fun _ => ?_
  refine iteInduction (fun _ => hreg _ _) fun _ => ?_
  refine iteInduction (fun _ => hjump _ _ _) fun _ => ?_
  refine iteInduction (fun _ => hjump _ _ _) fun _ => ?_
  refine iteInduction (fun _ => iteInduction (fun _ => hpc _) fun _ => hnone) fun _ => ?_
  refine iteInduction (fun _ => hreg _ _) fun _ => ?_
  refine iteInduction (fun _ => hreg _ _) fun _ => ?_
  exact iteInduction (fun hop => iteInduction (fun _ => hhalt hop) fun _ => hnone) fun _ => hstop

/-! ### Loads and stores -/

/-- The size in bytes of a load. -/
def loadSize (funct3 : Word) : Option Nat :=
  if funct3 = 0x0 ∨ funct3 = 0x4 then some 1
  else if funct3 = 0x1 ∨ funct3 = 0x5 then some 2
  else if funct3 = 0x2 then some 4
  else none

/-- The size in bytes of a store. -/
def storeSize (funct3 : Word) : Option Nat :=
  if funct3 = 0x0 then some 1
  else if funct3 = 0x1 then some 2
  else if funct3 = 0x2 then some 4
  else none

/-- The register value of a load from the value read. -/
def loadValue (funct3 value : Word) : Word :=
  -- LB, LH, LBU and LHU; LW takes the value as it is
  if funct3 = 0x0 then signExtend value 8
  else if funct3 = 0x1 then signExtend value 16
  else if funct3 = 0x4 then value &&& 0xFF
  else if funct3 = 0x5 then value &&& 0xFFFF
  else value

/-- `OPCODE_LOAD`; an unknown `funct3` accesses no memory and loads `0`. -/
def execLoad (connected : Bool) (m : Machine) (h : Nat) (i : Word) : Machine :=
  let addr := rv32CpuReadReg (m.hart h) (rs1Field i) + signExtend (immI i) 12
  match loadSize (funct3Field i) with
  | none => m.updHart h fun c => rv32CpuWriteReg c (rdField i) 0
  | some size =>
    let (value, m) := rv32CpuReadMem connected (m.log (.access h .load addr size)) h addr size
    m.updHart h fun c => rv32CpuWriteReg c (rdField i) (loadValue (funct3Field i) value)

/-- `OPCODE_STORE`; an unknown `funct3` does nothing. -/
def execStore (connected : Bool) (m : Machine) (h : Nat) (i : Word) : Machine :=
  let addr := rv32CpuReadReg (m.hart h) (rs1Field i) + signExtend (immS i) 12
  let value := rv32CpuReadReg (m.hart h) (rs2Field i)
  match storeSize (funct3Field i) with
  | none => m
  | some size => rv32CpuWriteMem connected (m.log (.access h .store addr size)) h addr value size

/-- `cpu->pc += 4; cpu->instruction_count++`. -/
def Rv32Cpu.advance (c : Rv32Cpu) : Rv32Cpu :=
  { c with pc := c.pc + 4, instructionCount := c.instructionCount + 1 }

/-- `rv32_cpu_step`. -/
def rv32CpuStep (connected : Bool) (m : Machine) (h : Nat) : Machine :=
  if !(m.hart h).running then m
  else
    let currentPc := (m.hart h).pc
    let (instruction, m) := rv32CpuReadMem connected (m.log (.exec h currentPc)) h currentPc 4
    let m := m.updHart h Rv32Cpu.advance
    let opcode := instruction &&& 0x7F
    if opcode = 0x03 then execLoad connected m h instruction
    else if opcode = 0x23 then execStore connected m h instruction
    else m.updHart h (execHart currentPc instruction)

/-- `rv32_cpu_init`. -/
def rv32CpuInit : Rv32Cpu where
  regs := Function.update (fun _ => 0) regSp (ramBase + ramSize - 4)
  pc := ramBase
  memory := fun _ => 0
  sharedRam := none
  hartId := 0
  running := true
  halted := false
  instructionCount := 0

/-- `rv32_cpu_reset`; the memory is kept. -/
def rv32CpuReset (c : Rv32Cpu) : Rv32Cpu :=
  { c with
    regs := Function.update (Function.update (fun _ => 0) regSp (ramBase + ramSize - 4)) regTp
      (BitVec.ofNat 32 c.hartId)
    pc := ramBase
    running := true
    halted := false
    instructionCount := 0 }

end Rv32Gdb
