import Rv32Gdb.Bytes
import Rv32Gdb.SlotTable

/-!
# The state of the stub

`gdb_context_t` is split in two: `GdbStub` is its field `stub` (connection, packet buffer), which
only the stub itself touches, and `DebugState` is the rest (tables, flags, thread selection),
which the simulator reaches through the stub's public functions: its memory accesses check the
watchpoints, its run loop records the stop thread.  A callback therefore takes the `connected`
flag and a `Target` (the `DebugState` with the simulator's own state) and may change the latter.

The socket is a list of bytes still to be read, after which reading fails, and the list of the
buffers written to it; a write is always accepted in full.
-/

namespace Rv32Gdb

/-- `GDB_STUB_XLEN`, the build of the stub. -/
inductive Xlen
  | x32
  | x64
  deriving DecidableEq, Repr

/-- The width of `gdb_reg_t` and `gdb_addr_t`. -/
@[reducible] def Xlen.bits : Xlen → Nat
  | .x32 => 32
  | .x64 => 64

/-- `GDB_REG_HEX_BYTES`. -/
def Xlen.regHexBytes (x : Xlen) : Nat := x.bits / 8

/-- `GDB_REG_HEX_CHARS`. -/
def Xlen.regHexChars (x : Xlen) : Nat := x.bits / 4

/-- `GDB_TARGET_ARCH`. -/
def Xlen.targetArch : Xlen → List Byte
  | .x32 => ascii "riscv:rv32"
  | .x64 => ascii "riscv:rv64"

/-- `gdb_addr_t`. -/
abbrev GdbAddr (x : Xlen) := BitVec x.bits

/-- `gdb_reg_t`. -/
abbrev GdbReg (x : Xlen) := BitVec x.bits

/-- `GDB_BUFFER_SIZE`. -/
abbrev gdbBufferSize : Nat := 4096

/-- `GDB_STUB_PID`. -/
def gdbStubPid : Int := 1

/-- `MAX_BREAKPOINTS`. -/
abbrev maxBreakpoints : Nat := 64

/-- `MAX_WATCHPOINTS`. -/
abbrev maxWatchpoints : Nat := 32

/-- `gdb_stub_t`, with the two directions of the client socket in place of `client_fd`. -/
structure GdbStub where
  connected : Bool
  noAckMode : Bool
  consecutiveFailures : Nat
  packetBuffer : Fin gdbBufferSize → Byte
  packetSize : Nat
  /-- The bytes the client has sent or will send, in order; reading past them fails. -/
  input : List Byte
  /-- The buffers written to the client, in order. -/
  output : List (List Byte)

/-- `watchpoint_type_t`. -/
inductive WatchpointType
  | write
  | read
  | access
  deriving DecidableEq, Repr

/-- What identifies a watchpoint: address, length and type. -/
structure WatchpointKey (x : Xlen) where
  addr : GdbAddr x
  len : GdbAddr x
  type : WatchpointType
  deriving DecidableEq

/-- The fields of `gdb_context_t` other than `stub`. -/
structure DebugState (x : Xlen) where
  breakpoints : SlotTable (GdbAddr x) maxBreakpoints
  watchpoints : SlotTable (WatchpointKey x) maxWatchpoints
  singleStep : Bool
  shouldStop : Bool
  lastWatchpointAddr : GdbAddr x
  lastStopSignal : Int
  breakpointHit : Bool
  /-- Selected thread for register operations, 1-based. -/
  currentThread : Int
  /-- `-1` for all harts, else a 1-based thread id. -/
  continueThread : Int
  /-- Thread that caused the last stop, 1-based; `0` for none. -/
  stopThread : Int
  multiprocessActive : Bool

/-- What a callback may change: the debug state and the simulator's own state. -/
structure Target (x : Xlen) (σ : Type) where
  dbg : DebugState x
  sim : σ

/-- `gdb_context_t` together with the simulator behind `void *simulator`. -/
structure World (x : Xlen) (σ : Type) extends Target x σ where
  stub : GdbStub

/-- `gdb_callbacks_t`.  The callbacks the stub tests for `NULL` are optional; `single_step` and
`is_running` are never called by the stub.  The first argument is `stub.connected`. -/
structure GdbCallbacks (x : Xlen) (σ : Type) where
  readReg : Bool → Target x σ → Nat → GdbReg x × Target x σ
  writeReg : Bool → Target x σ → Nat → GdbReg x → Target x σ
  readMem : Bool → Target x σ → GdbAddr x → Nat → GdbReg x × Target x σ
  writeMem : Bool → Target x σ → GdbAddr x → GdbReg x → Nat → Target x σ
  getPc : Bool → Target x σ → GdbAddr x × Target x σ
  setPc : Bool → Target x σ → GdbAddr x → Target x σ
  reset : Option (Bool → Target x σ → Target x σ)
  resume : Option (Bool → Target x σ → Target x σ)
  getNumHarts : Option (Bool → Target x σ → Int × Target x σ)
  setFocusHart : Option (Bool → Target x σ → Int → Target x σ)
  getFocusHart : Option (Bool → Target x σ → Int × Target x σ)
  getStopHart : Option (Bool → Target x σ → Int × Target x σ)
  haltCpus : Option (Bool → Target x σ → Target x σ)

namespace World

variable {x : Xlen} {σ : Type}

/-- The state after a callback. -/
def withTarget (w : World x σ) (t : Target x σ) : World x σ := { w with toTarget := t }

/-- A change of the debug state. -/
def updDbg (w : World x σ) (f : DebugState x → DebugState x) : World x σ :=
  { w with dbg := f w.dbg }

/-- The state with other bytes to be read. -/
def withInput (w : World x σ) (input : List Byte) : World x σ :=
  { w with stub := { w.stub with input := input } }

@[simp] theorem stub_withTarget (w : World x σ) (t : Target x σ) : (w.withTarget t).stub = w.stub :=
  rfl

@[simp] theorem toTarget_withTarget (w : World x σ) (t : Target x σ) :
    (w.withTarget t).toTarget = t := rfl

@[simp] theorem stub_updDbg (w : World x σ) (f : DebugState x → DebugState x) :
    (w.updDbg f).stub = w.stub := rfl

@[simp] theorem dbg_updDbg (w : World x σ) (f : DebugState x → DebugState x) :
    (w.updDbg f).dbg = f w.dbg := rfl

@[simp] theorem sim_updDbg (w : World x σ) (f : DebugState x → DebugState x) :
    (w.updDbg f).sim = w.sim := rfl

end World

/-- `gdb_stub_init` as far as the fields above are concerned. -/
def DebugState.init (x : Xlen) : DebugState x where
  breakpoints := SlotTable.empty _ _
  watchpoints := SlotTable.empty _ _
  singleStep := false
  shouldStop := false
  lastWatchpointAddr := 0
  lastStopSignal := 0
  breakpointHit := false
  currentThread := 1
  continueThread := -1
  stopThread := 0
  multiprocessActive := false

/-- `gdb_stub_t` after `gdb_stub_init`. -/
def GdbStub.init : GdbStub where
  connected := false
  noAckMode := false
  consecutiveFailures := 0
  packetBuffer := fun _ => 0
  packetSize := 0
  input := []
  output := []

/-- `gdb_stub_accept`: a client that will send `input` has connected. -/
def gdbStubAccept (s : GdbStub) (input : List Byte) : GdbStub :=
  { s with connected := true, input := input, output := [] }

end Rv32Gdb
