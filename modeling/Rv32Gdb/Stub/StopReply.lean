import Rv32Gdb.Stub.Breakpoints

/-!
# Thread selection and stop replies

`formatStopReply` is the text of a `T` packet; `gdbStubSendStopReason` picks its cause from the
flags of the debug state and clears the flag it used.
-/

namespace Rv32Gdb

variable {x : Xlen} {σ : Type}

/-! ### Thread ids -/

/-- `thread_pid_valid`. -/
def threadPidValid (pid : Int) : Bool := pid = 0 || pid = gdbStubPid

/-- `parse_thread_spec`: process id and thread id. -/
def parseThreadSpec (str : List Byte) : Int × Int :=
  if str = [] then (0, -1)
  else if str = ascii "-1" then (0, -1)
  else
    -- the `p` in front is optional
    let str := match str with
      | c :: rest => if c = chr 'p' ∨ c = chr 'P' then rest else str
      | [] => str
    if chr '.' ∈ str then
      (toInt32 (strtol16 str), toInt32 (strtol16 ((str.dropWhile (· ≠ chr '.')).drop 1)))
    else (0, toInt32 (strtol16 str))

/-- `resolve_continue_thread`. -/
def resolveContinueThread (pid tid : Int) : Int :=
  if !threadPidValid pid then -2 else if tid ≤ 0 then -1 else tid

/-- `resolve_step_thread`. -/
def resolveStepThread (d : DebugState x) (pid tid : Int) : Int :=
  let ct := resolveContinueThread pid tid
  if ct = -2 then -2 else if ct > 0 then ct else d.currentThread

/-- `gdb_stub_set_stop_thread`. -/
def gdbStubSetStopThread (d : DebugState x) (threadId : Int) : DebugState x :=
  if threadId ≥ 1 then { d with stopThread := threadId }
  else if d.currentThread ≥ 1 then { d with stopThread := d.currentThread }
  else { d with stopThread := 1 }

/-- `gdb_stub_should_run_thread`. -/
def gdbStubShouldRunThread (d : DebugState x) (threadId : Int) : Bool :=
  if d.continueThread < 0 then true else d.continueThread = threadId

/-- The thread a reply names: the one that stopped, else the selected one. -/
def DebugState.replyThread (d : DebugState x) : Int :=
  if d.stopThread ≠ 0 then d.stopThread else d.currentThread

/-! ### Stop replies -/

/-- `Txxthread:` with the thread id, up to and including the `;`. -/
def stopReplyPrefix (multiprocess : Bool) (signal tid : Int) : List Byte :=
  ascii "T" ++ hexByte (BitVec.ofInt 8 signal) ++ ascii "thread:" ++
    (if multiprocess then ascii "p" ++ hexTextInt gdbStubPid ++ ascii "." else []) ++
    hexTextInt tid ++ ascii ";"

/-- `GDB_ADDR_HEX_FMT`. -/
def addrText (a : GdbAddr x) : List Byte := hexPad x.regHexChars a.toNat

/-- The cause that a stop reply carries after the thread. -/
def stopReplyCause (swbreak : Bool) (watchAddr pcAddr : GdbAddr x) : List Byte :=
  if swbreak then ascii "swbreak:;"
  else if watchAddr ≠ 0 then ascii "watch:" ++ addrText watchAddr ++ ascii ";"
  else if pcAddr ≠ 0 then ascii "20:" ++ addrText pcAddr ++ ascii ";"
  else []

/-- `format_stop_reply` into a buffer of `len` bytes. -/
def formatStopReply (d : DebugState x) (len : Nat) (signal tid : Int) (swbreak : Bool)
    (watchAddr pcAddr : GdbAddr x) : List Byte :=
  snprintf len (stopReplyPrefix d.multiprocessActive signal tid ++
    stopReplyCause swbreak watchAddr pcAddr)

/-- `gdb_stub_send_stop_reason`. -/
def gdbStubSendStopReason (w : World x σ) (signal : Int) (addr : GdbAddr x) : World x σ :=
  let d := w.dbg
  let tid := d.replyThread
  -- the flag that gives the cause is cleared, the other one stays
  if d.breakpointHit then
    (w.updDbg fun d => { d with breakpointHit := false }).send
      (formatStopReply d 128 signal tid true 0 0)
  else if d.lastWatchpointAddr ≠ 0 then
    (w.updDbg fun d => { d with lastWatchpointAddr := 0 }).send
      (formatStopReply d 128 signal tid false d.lastWatchpointAddr 0)
  else if addr ≠ 0 then w.send (formatStopReply d 128 signal tid false 0 addr)
  else w.send (formatStopReply d 128 signal tid false 0 0)

end Rv32Gdb
