import Rv32Gdb.Equiv.Failures
import Rv32Gdb.Equiv.BreakpointStops
import Rv32Gdb.Equiv.StopCauses
import Rv32Gdb.Equiv.FocusThread
import Rv32Gdb.Equiv.DebugAccess
import Rv32Gdb.Equiv.Memory
import Rv32Gdb.Equiv.Reset
import Rv32Gdb.Equiv.BinaryPayload
import Rv32Gdb.Equiv.ByteOrder
import Rv32Gdb.Equiv.Connections
import Rv32Gdb.Equiv.DataWatchpoints
import Rv32Gdb.Equiv.Disassembler
import Rv32Gdb.Equiv.HartIsolation
import Rv32Gdb.Equiv.IllegalWords
import Rv32Gdb.Equiv.IpiDevice
import Rv32Gdb.Equiv.Leakage
import Rv32Gdb.Equiv.Lockstep
import Rv32Gdb.Equiv.MemorySearch
import Rv32Gdb.Equiv.NumericFields
import Rv32Gdb.Equiv.TestProgram
import Rv32Gdb.Equiv.ThreadListing
import Rv32Gdb.Equiv.WorkerRuns
import Rv32Gdb.Equiv.Conversation
import Rv32Gdb.Equiv.Delivery
import Rv32Gdb.Equiv.DebugTrace
import Rv32Gdb.Equiv.InstructionCount
