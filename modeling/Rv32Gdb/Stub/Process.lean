import Rv32Gdb.Stub.Handlers

/-!
# `vCont` and the command dispatcher

`gdbStubProcess` receives one packet and dispatches on its first character.  Its result is the
return value of the C function (`-1` to disconnect, `1` to run the target, `0` otherwise) with the
state afterwards.  `fuel` bounds the address loop of `qSearch:memory`, the only loop of the stub
that need not end.
-/

namespace Rv32Gdb

variable {x : Xlen} {σ : Type}

/-! ### `vCont` -/

/-- What the action loop of `handle_vcont` has gathered so far. -/
structure VcontState where
  anyStep : Bool
  stepTid : Int
  continueTid : Int
  haveAction : Bool

/-- How the action loop of `handle_vcont` ends: with a reply, or with the gathered actions. -/
inductive VcontOutcome
  | reply (payload : List Byte)
  | actions (s : VcontState)

/-- The `switch` on one action. -/
def vcontAction (d : DebugState x) (action : Byte) (pid tid : Int) (s : VcontState) :
    VcontOutcome :=
  if action = chr 'c' ∨ action = chr 'C' then
    let ct := resolveContinueThread pid tid
    if ct = -2 then .reply (ascii "E01")
    else .actions { s with continueTid := ct, haveAction := true }
  -- `t` steps as `s` does
  else if action = chr 's' ∨ action = chr 'S' ∨ action = chr 't' ∨ action = chr 'T' then
    let st := resolveStepThread d pid tid
    if st = -2 then .reply (ascii "E01")
    else .actions { s with anyStep := true, stepTid := st, haveAction := true }
  else .reply []

/-- The signal digits after `C`, `S` and `T` are skipped. -/
def skipSignal (action : Byte) (actions : List Byte) : List Byte :=
  if action = chr 'C' ∨ action = chr 'S' ∨ action = chr 'T' then
    match actions with
    | a :: b :: rest => if isxdigit a && isxdigit b then rest else actions
    | _ => actions
  else actions

/-- The thread id after a colon, copied to `spec_buf[32]`: process id, thread id and what follows;
`none` when it does not fit. -/
def vcontSpec (actions : List Byte) : Result (Option ((Int × Int) × List Byte)) :=
  match actions with
  | [] => .ok (some ((0, -1), []))
  | c :: spec =>
    if c = chr ':' then do
      let next := spec.dropWhile (· ≠ chr ';')
      let spec := spec.takeWhile (· ≠ chr ';')
      if spec.length ≥ 32 then .ok none
      else
        let specBuf ← (CharArray.empty 32).pushAll spec
        let spec ← specBuf.terminate
        .ok (some (parseThreadSpec spec, next))
    else .ok (some ((0, -1), c :: spec))

/-- A `;` in front is skipped. -/
def skipSemicolon : List Byte → List Byte
  | [] => []
  | c :: rest => if c = chr ';' then rest else c :: rest

/-- The action loop of `handle_vcont`; every iteration takes at least one character. -/
def vcontLoop (d : DebugState x) : Nat → List Byte → VcontState → Result VcontOutcome
  | _, [], s => .ok (.actions s)
  -- not reached with the fuel that `handleVcont` gives
  | 0, _ :: _, _ => .error .outOfFuel
  | fuel + 1, action :: actions, s => do
    match ← vcontSpec (skipSignal action actions) with
    | none => .ok (.reply (ascii "E01"))
    | some ((pid, tid), actions) =>
      if !threadPidValid pid then .ok (.reply (ascii "E01"))
      else match vcontAction d action pid tid s with
        | .reply payload => .ok (.reply payload)
        | .actions s => vcontLoop d fuel (skipSemicolon actions) s

/-- `handle_vcont`; the flag is `*run_cpu`. -/
def handleVcont (cb : GdbCallbacks x σ) (w : World x σ) : Result (Bool × World x σ) :=
  let packet := w.packetText
  if packet = ascii "vCont?" then .ok (false, w.send (ascii "vCont;c;C; s;S"))
  else if !strncmpEq packet (ascii "vCont") then .ok (false, w.send [])
  else
    let actions := skipSemicolon (packet.drop 5)
    if actions = [] then .ok (false, w.send (ascii "E01"))
    else do
      match ← vcontLoop w.dbg actions.length actions ⟨false, -1, -1, false⟩ with
      | .reply payload => .ok (false, w.send payload)
      | .actions s =>
        if !s.haveAction then .ok (false, w.send (ascii "E01"))
        else
          -- a step goes before a continue, whose thread is then dropped
          let w := w.updDbg fun d => { d with
            singleStep := s.anyStep
            continueThread := if s.anyStep then s.stepTid else s.continueTid
            shouldStop := false
            stopThread := 0 }
          .ok (true, w.actOpt cb.resume)

/-! ### The dispatcher -/

/-- The `c` command. -/
def handleContinue (cb : GdbCallbacks x σ) (w : World x σ) : World x σ :=
  (w.updDbg fun d => { d with
    shouldStop := false
    singleStep := false
    stopThread := 0
    continueThread := -1 }).actOpt cb.resume

/-- The `s` command. -/
def handleStep (cb : GdbCallbacks x σ) (w : World x σ) : World x σ :=
  (w.updDbg fun d => { d with
    shouldStop := false
    singleStep := true
    stopThread := 0
    continueThread := if d.continueThread < 0 then d.currentThread else d.continueThread }).actOpt
      cb.resume

/-- The Ctrl-C byte. -/
def handleInterrupt (cb : GdbCallbacks x σ) (w : World x σ) : World x σ :=
  let w := w.updDbg fun d => { d with shouldStop := true }
  let w := w.actOpt cb.haltCpus
  let w := if w.dbg.stopThread = 0 then w.updDbg fun d => gdbStubSetStopThread d 0 else w
  gdbStubSendStopReason w 2 0

/-- A handler after which `gdb_stub_process` returns `0`. -/
def andReturnZero (w : Result (World x σ)) : Result (Int × World x σ) := do .ok (0, ← w)

/-- The `switch` of `gdb_stub_process` on the first character of the packet. -/
def dispatch (fuel : Nat) (cb : GdbCallbacks x σ) (w : World x σ) : Result (Int × World x σ) :=
  let cmd := byteAt w.stub.packetBuffer 0
  if cmd = 0x03 then andReturnZero (.ok (handleInterrupt cb w))
  else if cmd = chr '?' then andReturnZero (.ok (handleHaltReason cb w))
  else if cmd = chr 'q' then andReturnZero (handleQuery fuel cb w)
  else if cmd = chr 'Q' then andReturnZero (.ok (handleGeneralSet w))
  else if cmd = chr 'g' then andReturnZero (handleReadRegisters cb w)
  else if cmd = chr 'G' then andReturnZero (handleWriteRegisters cb w)
  else if cmd = chr 'm' then andReturnZero (handleReadMemory cb w)
  else if cmd = chr 'M' then andReturnZero (handleWriteMemory cb w)
  else if cmd = chr 'p' then andReturnZero (handleReadSingleRegister cb w)
  else if cmd = chr 'P' then andReturnZero (handleWriteSingleRegister cb w)
  else if cmd = chr 'X' then andReturnZero (handleWriteMemoryBinary cb w)
  else if cmd = chr 'R' then andReturnZero (.ok (handleReset cb w))
  else if cmd = chr 'H' then andReturnZero (.ok (handleSetThread cb w))
  else if cmd = chr 'T' then andReturnZero (.ok (handleThreadAlive cb w))
  else if cmd = chr 'v' then
    if strncmpEq w.packetText (ascii "vCont") then do
      let (runCpu, w) ← handleVcont cb w
      .ok (if runCpu then 1 else 0, w)
    else .ok (0, w.send [])
  else if cmd = chr 'c' then .ok (1, handleContinue cb w)
  else if cmd = chr 's' then .ok (1, handleStep cb w)
  else if cmd = chr 'Z' then andReturnZero (.ok (handleBreakpoint w true))
  else if cmd = chr 'z' then andReturnZero (.ok (handleBreakpoint w false))
  -- kill and detach end the session, the latter with an answer
  else if cmd = chr 'k' then .ok (-1, w)
  else if cmd = chr 'D' then
    let w := w.send (ascii "OK")
    .ok (-1, { w with stub := { w.stub with connected := false } })
  else .ok (0, w.send [])

/-- `gdb_stub_process`. -/
def gdbStubProcess (fuel : Nat) (cb : GdbCallbacks x σ) (w : World x σ) :
    Result (Int × World x σ) :=
  if !w.stub.connected then .ok (-1, w)
  -- too many failures in a row: the client is given up
  else if w.stub.consecutiveFailures ≥ 50 then .ok (-1, w)
  else do
    let (received, stub) ← receivePacket w.stub
    let w := { w with stub := stub }
    if !received then .ok (-1, w) else dispatch fuel cb w

end Rv32Gdb
