import Rv32Gdb.Stub.Process

/-!
# The state of the emulator

`Rv32System` is `rv32_system_t`; the harts are a function on hart numbers, of which the first
`numHarts` are in use.  A pointer to a hart is its number.  `shared_ram` is the number of the hart
whose `memory` it points to, or `none` for `NULL`.

`Emu` holds the globals of `main.c`, together with a trace of what the harts did
(`HartEvent`), which no modeled function reads.  The emulator acts on a `Machine`: its own state
and the debug state of the stub, which the watchpoint hooks of the CPU change.
-/

namespace Rv32Gdb

/-- `uint32_t`. -/
abbrev Word := BitVec 32

/-- `RAM_BASE`. -/
def ramBase : Word := 0x80000000

/-- `RAM_SIZE`. -/
def ramSize : Word := 0x10000

/-- `RV32_REG_SP`, `RV32_REG_TP`, `RV32_REG_T1`, `RV32_REG_T2` and `RV32_REG_S0`. -/
def regSp : Fin 32 := 2
def regTp : Fin 32 := 4
def regT1 : Fin 32 := 6
def regT2 : Fin 32 := 7
def regS0 : Fin 32 := 8

/-- `rv32_cpu_t`. -/
structure Rv32Cpu where
  regs : Fin 32 → Word
  pc : Word
  memory : BitVec 16 → Byte
  sharedRam : Option Nat
  hartId : Nat
  running : Bool
  halted : Bool
  instructionCount : BitVec 64

/-- `rv32_system_t`. -/
structure Rv32System where
  harts : Nat → Rv32Cpu
  numHarts : Nat
  focusHart : Nat
  stopHart : Int

/-- The direction of a data access. -/
inductive AccessKind
  | load
  | store
  deriving DecidableEq, Repr

/-- What a hart does: it gets its turn to execute the instruction at `pc`, it executes it, and the
instruction loads or stores `size` bytes at `addr`. -/
inductive HartEvent
  | turn (hart : Nat) (pc : Word)
  | exec (hart : Nat) (pc : Word)
  | access (hart : Nat) (kind : AccessKind) (addr : Word) (size : Nat)
  deriving DecidableEq, Repr

/-- The globals of `main.c`: `g_sys` and `g_interrupt_received`, and the trace. -/
structure Emu where
  sys : Rv32System
  interruptReceived : Bool
  trace : List HartEvent

/-- The emulator with the debug state of the stub. -/
abbrev Machine := Target .x32 Emu

/-- The whole program: the emulator with the stub. -/
abbrev EmuWorld := World .x32 Emu

namespace Rv32System

/-- A change of one hart. -/
def updHart (s : Rv32System) (h : Nat) (f : Rv32Cpu → Rv32Cpu) : Rv32System :=
  { s with harts := Function.update s.harts h (f (s.harts h)) }

theorem harts_updHart (s : Rv32System) (h : Nat) (f : Rv32Cpu → Rv32Cpu) (k : Nat) :
    (s.updHart h f).harts k = if k = h then f (s.harts h) else s.harts k :=
  Function.update_apply _ _ _ _

/-- The hart whose `memory` is the RAM of hart `h`: `rv32_cpu_ram`. -/
def ramOwner (s : Rv32System) (h : Nat) : Nat := ((s.harts h).sharedRam).getD h

/-- `rv32_cpu_ram(cpu)[off]`. -/
def ram (s : Rv32System) (h : Nat) (off : BitVec 16) : Byte := (s.harts (s.ramOwner h)).memory off

/-- `rv32_cpu_ram(cpu)[off] = b`. -/
def setRam (s : Rv32System) (h : Nat) (off : BitVec 16) (b : Byte) : Rv32System :=
  s.updHart (s.ramOwner h) fun c => { c with memory := Function.update c.memory off b }

/-- A little-endian load of `size` bytes from the RAM of hart `h`. -/
def ramLoad (s : Rv32System) (h : Nat) (off : BitVec 16) : Nat → Word
  | 1 => (s.ram h off).setWidth 32
  | 2 => (s.ram h (off + 1) ++ s.ram h off).setWidth 32
  | 4 => s.ram h (off + 3) ++ s.ram h (off + 2) ++ s.ram h (off + 1) ++ s.ram h off
  | _ => 0

/-- A little-endian store of `size` bytes to the RAM of hart `h`. -/
def ramStore (s : Rv32System) (h : Nat) (off : BitVec 16) (value : Word) : Nat → Rv32System
  | 1 => s.setRam h off (value.setWidth 8)
  | 2 => (s.setRam h off (value.setWidth 8)).setRam h (off + 1) ((value >>> 8).setWidth 8)
  | 4 => (((s.setRam h off (value.setWidth 8)).setRam h (off + 1)
      ((value >>> 8).setWidth 8)).setRam h (off + 2) ((value >>> 16).setWidth 8)).setRam h (off + 3)
      ((value >>> 24).setWidth 8)
  | _ => s

end Rv32System

/-- `addr - RAM_BASE` as an index into the RAM. -/
def ramOffset (addr : Word) : BitVec 16 := (addr - ramBase).setWidth 16

/-- The bounds check of the CPU's memory accesses. -/
def inRam (addr : Word) (size : Nat) : Bool :=
  ramBase ≤ addr && addr < ramBase + ramSize - BitVec.ofNat 32 size + 1

namespace Target

/-- The system. -/
def sys (m : Machine) : Rv32System := m.sim.sys

/-- A hart. -/
def hart (m : Machine) (h : Nat) : Rv32Cpu := m.sys.harts h

/-- A change of the system. -/
def updSys (m : Machine) (f : Rv32System → Rv32System) : Machine :=
  { m with sim := { m.sim with sys := f m.sim.sys } }

/-- A change of one hart. -/
def updHart (m : Machine) (h : Nat) (f : Rv32Cpu → Rv32Cpu) : Machine :=
  m.updSys fun s => s.updHart h f

theorem hart_updHart (m : Machine) (h : Nat) (f : Rv32Cpu → Rv32Cpu) (k : Nat) :
    (m.updHart h f).hart k = if k = h then f (m.hart h) else m.hart k :=
  Rv32System.harts_updHart _ _ _ _

/-- One more event in the trace. -/
def log (m : Machine) (e : HartEvent) : Machine :=
  { m with sim := { m.sim with trace := m.sim.trace ++ [e] } }

end Target

end Rv32Gdb
