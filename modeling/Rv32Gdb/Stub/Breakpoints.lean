import Rv32Gdb.Stub.Packet

/-!
# Breakpoint and watchpoint management

Both tables are `SlotTable`s: the breakpoints keyed by address, the watchpoints by address, length
and type.  The return value `0` of the C functions is `true` here.
-/

namespace Rv32Gdb

variable {x : Xlen}

/-- The outcome of an operation that may refuse: the return value and the new table. -/
def outcome {α : Type} (old : α) (new : Option α) : Bool × α := (new.isSome, new.getD old)

/-- `gdb_stub_add_breakpoint`. -/
def gdbStubAddBreakpoint (d : DebugState x) (addr : GdbAddr x) : Bool × DebugState x :=
  outcome d ((d.breakpoints.insert addr).map fun t => { d with breakpoints := t })

/-- `gdb_stub_remove_breakpoint`. -/
def gdbStubRemoveBreakpoint (d : DebugState x) (addr : GdbAddr x) : Bool × DebugState x :=
  outcome d ((d.breakpoints.remove addr).map fun t => { d with breakpoints := t })

/-- `gdb_stub_clear_breakpoints`. -/
def gdbStubClearBreakpoints (d : DebugState x) : DebugState x :=
  { d with breakpoints := SlotTable.empty _ _ }

/-- Whether an enabled breakpoint is set at `pc`. -/
def DebugState.breakpointAt (d : DebugState x) (pc : GdbAddr x) : Bool :=
  d.breakpoints.slots.any fun s => s.enabled && s.key = pc

/-- `gdb_stub_check_breakpoint`. -/
def gdbStubCheckBreakpoint (d : DebugState x) (pc : GdbAddr x) : Bool × DebugState x :=
  if d.breakpointAt pc then (true, { d with breakpointHit := true }) else (false, d)

/-- The key under which `gdb_stub_add_watchpoint` files a watchpoint: length `0` means `4`. -/
def addedKey (addr len : GdbAddr x) (type : WatchpointType) : WatchpointKey x :=
  ⟨addr, if len = 0 then 4 else len, type⟩

/-- `gdb_stub_add_watchpoint`. -/
def gdbStubAddWatchpoint (d : DebugState x) (addr len : GdbAddr x) (type : WatchpointType) :
    Bool × DebugState x :=
  outcome d ((d.watchpoints.insert (addedKey addr len type)).map fun t =>
    { d with watchpoints := t })

/-- `gdb_stub_remove_watchpoint`; the length is compared as it is given. -/
def gdbStubRemoveWatchpoint (d : DebugState x) (addr len : GdbAddr x) (type : WatchpointType) :
    Bool × DebugState x :=
  outcome d ((d.watchpoints.remove ⟨addr, len, type⟩).map fun t => { d with watchpoints := t })

/-- `gdb_stub_clear_watchpoints`. -/
def gdbStubClearWatchpoints (d : DebugState x) : DebugState x :=
  { d with watchpoints := SlotTable.empty _ _ }

/-- The address of the first enabled watchpoint of one of two types that an access overlaps. -/
def DebugState.watchpointFor (d : DebugState x) (type : WatchpointType) (addr len : GdbAddr x) :
    Option (GdbAddr x) :=
  (d.watchpoints.slots.find? fun s =>
    s.enabled && (s.key.type = type || s.key.type = .access) &&
      rangesOverlap addr len s.key.addr s.key.len).map fun s => s.key.addr

/-- The common body of the two watchpoint checks. -/
def checkWatchpoint (d : DebugState x) (type : WatchpointType) (addr len : GdbAddr x) :
    Bool × DebugState x :=
  match d.watchpointFor type addr len with
  | some a => (true, { d with lastWatchpointAddr := a })
  | none => (false, d)

/-- `gdb_stub_check_watchpoint_read`. -/
def gdbStubCheckWatchpointRead (d : DebugState x) (addr len : GdbAddr x) : Bool × DebugState x :=
  checkWatchpoint d .read addr len

/-- `gdb_stub_check_watchpoint_write`. -/
def gdbStubCheckWatchpointWrite (d : DebugState x) (addr len : GdbAddr x) :
    Bool × DebugState x :=
  checkWatchpoint d .write addr len

end Rv32Gdb
