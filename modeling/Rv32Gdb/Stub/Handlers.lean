import Rv32Gdb.Stub.StopReply

/-!
# The command handlers

One definition for each `handle_…` of the stub except `handle_vcont`.  `packet` is the position
`1` of the packet buffer (`0` in `handle_query`); a handler that cuts the packet at a separator
stores NULs in the buffer as the source does, since a later packet may read them.
-/

namespace Rv32Gdb

variable {x : Xlen} {σ : Type}

namespace World

/-- A callback that returns a value. -/
def call {α : Type} (w : World x σ) (f : Bool → Target x σ → α × Target x σ) : α × World x σ :=
  let r := f w.stub.connected w.toTarget
  (r.1, w.withTarget r.2)

/-- A callback that returns nothing. -/
def act (w : World x σ) (f : Bool → Target x σ → Target x σ) : World x σ :=
  w.withTarget (f w.stub.connected w.toTarget)

/-- An optional callback that returns nothing. -/
def actOpt (w : World x σ) (f : Option (Bool → Target x σ → Target x σ)) : World x σ :=
  match f with
  | some f => w.act f
  | none => w

/-- An optional callback, with the value used when it is `NULL`. -/
def callOpt {α : Type} (w : World x σ) (f : Option (Bool → Target x σ → α × Target x σ))
    (default : α) : α × World x σ :=
  match f with
  | some f => w.call f
  | none => (default, w)

@[simp] theorem stub_call {α : Type} (w : World x σ) (f : Bool → Target x σ → α × Target x σ) :
    (w.call f).2.stub = w.stub := rfl

@[simp] theorem stub_act (w : World x σ) (f : Bool → Target x σ → Target x σ) :
    (w.act f).stub = w.stub := rfl

@[simp] theorem stub_actOpt (w : World x σ) (f : Option (Bool → Target x σ → Target x σ)) :
    (w.actOpt f).stub = w.stub := by
  cases f <;> rfl

@[simp] theorem stub_callOpt {α : Type} (w : World x σ)
    (f : Option (Bool → Target x σ → α × Target x σ)) (default : α) :
    (w.callOpt f default).2.stub = w.stub := by
  cases f <;> rfl

/-- `packet_buffer` as a C string. -/
def packetText (w : World x σ) : List Byte := cstr w.stub.packetBuffer 0

end World

/-! ### Queries -/

/-- A thread id in a reply: `%x`, with the process id in front when multiprocess is on. -/
def threadIdText (multiprocess : Bool) (tid : Int) : List Byte :=
  (if multiprocess then ascii "p" ++ hexTextInt gdbStubPid ++ ascii "." else []) ++ hexTextInt tid

/-- The loop of `qfThreadInfo`: `n` harts to go from `h` on, with the would-be length `pos`. -/
def threadInfoLoop (multiprocess : Bool) : Nat → Nat → CharArray gdbBufferSize → Nat →
    Result (CharArray gdbBufferSize × Nat)
  | 0, _, response, pos => .ok (response, pos)
  | n + 1, h, response, pos =>
    -- `pos` counts the text that did not fit as well
    if 0 < pos ∧ pos < gdbBufferSize then do
      let text := ascii "," ++ threadIdText multiprocess h
      let response ← response.snprintfAt (gdbBufferSize - pos) text
      threadInfoLoop multiprocess n (h + 1) response (pos + text.length)
    else .ok (response, pos)

/-- The reply to `qfThreadInfo` for a number of harts. -/
def threadInfo (multiprocess : Bool) (numHarts : Int) : Result (List Byte) := do
  let first := ascii "m" ++ threadIdText multiprocess 1
  let response ← (CharArray.empty gdbBufferSize).snprintfAt gdbBufferSize first
  let (response, pos) ← threadInfoLoop multiprocess (numHarts - 1).toNat 2 response first.length
  .ok (if 0 < pos then response.data else ascii "l")

/-- The bytes that `handle_search_memory` compares with the pattern at `addr + i`, pair by pair
of hex digits; `true` when all of them are equal. -/
def matchPattern (cb : GdbCallbacks x σ) (addr : GdbAddr x) (i : Nat) : List Byte → World x σ →
    Bool × World x σ
  | hi :: lo :: rest, w =>
    let (v, w) := w.call fun c t => cb.readMem c t (addr + BitVec.ofNat x.bits i) 1
    if hexPair hi lo ≠ v.setWidth 8 then (false, w) else matchPattern cb addr (i + 1) rest w
  | _, w => (true, w)

/-- The address loop of `handle_search_memory`, with at most `fuel` iterations. -/
def searchLoop (cb : GdbCallbacks x σ) (last : GdbAddr x) (pattern : List Byte) :
    Nat → GdbAddr x → World x σ → Result (World x σ)
  | 0, _, _ => .error .outOfFuel
  | fuel + 1, addr, w =>
    if addr ≤ last then
      let (found, w) := matchPattern cb addr 0 pattern w
      if found then .ok (w.send (snprintf 48 (ascii "1," ++ addrText addr)))
      else searchLoop cb last pattern fuel (addr + 1) w
    else .ok (w.send (ascii "0"))

/-- `handle_search_memory`. -/
def handleSearchMemory (fuel : Nat) (cb : GdbCallbacks x σ) (w : World x σ) :
    Result (World x σ) :=
  let buf := w.stub.packetBuffer
  match strchr buf 15 (chr ':') with
  | none => .ok (w.send (ascii "E01"))
  | some colon1 =>
    match strchr buf (colon1 + 1) (chr ':') with
    | none => .ok (w.send (ascii "E01"))
    | some colon2 =>
      let buf := setByte (setByte buf colon1 0) colon2 0
      let w := w.setBuffer buf
      let startAddr := parseHex x (cstr buf 15) (colon1 - 15)
      let searchLen := parseHex x (cstr buf (colon1 + 1)) (colon2 - colon1 - 1)
      let pattern := cstr buf (colon2 + 1)
      let patternLen := pattern.length / 2
      if patternLen = 0 ∨ searchLen.toNat < patternLen then .ok (w.send (ascii "0"))
      -- up to the last address at which the pattern fits
      else searchLoop cb (startAddr + searchLen - BitVec.ofNat x.bits patternLen) pattern fuel
        startAddr w

/-- `qSupported`: the capabilities after the colon and any blanks. -/
def handleQSupported (w : World x σ) : World x σ :=
  let clientCaps := w.packetText.drop 10
  let clientCaps := if clientCaps.head? = some (chr ':') then clientCaps.tail else clientCaps
  let clientCaps := clientCaps.dropWhile (· = chr ' ')
  (w.updDbg fun d => { d with multiprocessActive := strstr clientCaps (ascii "multiprocess+") }).send
    (ascii "PacketSize=4096;swbreak+;multiprocess+;vContSupported+;" ++
      ascii "qXfer:features:read+;QStartNoAckMode+")

/-- The target description sent for `qXfer:features:read:target.xml`. -/
def targetXml (x : Xlen) : List Byte :=
  ascii "l<?xml version=\"1.0\"?>" ++
    ascii "<!DOCTYPE target SYSTEM \"gdb-target.dtd\">" ++
    ascii "<target version=\"1.0\">" ++
    ascii "<architecture>" ++ x.targetArch ++ ascii "</architecture>" ++
    ascii "</target>"

/-- `handle_query`. -/
def handleQuery (fuel : Nat) (cb : GdbCallbacks x σ) (w : World x σ) : Result (World x σ) :=
  let packet := w.packetText
  if strncmpEq packet (ascii "qSupported") then .ok (handleQSupported w)
  else if strncmpEq packet (ascii "qAttached") then .ok (w.send (ascii "1"))
  else if strncmpEq packet (ascii "qC") then
    .ok (w.send (snprintf 32
      (ascii "QC" ++ threadIdText w.dbg.multiprocessActive w.dbg.replyThread)))
  else if strncmpEq packet (ascii "qfThreadInfo") then do
    let (numHarts, w) := w.callOpt cb.getNumHarts 1
    let response ← threadInfo w.dbg.multiprocessActive numHarts
    .ok (w.send response)
  else if strncmpEq packet (ascii "qsThreadInfo") then .ok (w.send (ascii "l"))
  else if strncmpEq packet (ascii "qXfer:features:read:target.xml") then .ok (w.send (targetXml x))
  else if strncmpEq packet (ascii "qOffsets") then .ok (w.send (ascii "Text=0;Data=0;Bss=0"))
  else if strncmpEq packet (ascii "qTStatus") then .ok (w.send (ascii "T0;tnotrun:0"))
  else if strncmpEq packet (ascii "qSearch:memory:") then handleSearchMemory fuel cb w
  else .ok (w.send [])

/-- `handle_general_set`. -/
def handleGeneralSet (w : World x σ) : World x σ :=
  if strncmpEq w.packetText (ascii "QStartNoAckMode") then
    { w with stub := { w.stub with noAckMode := true } }.send (ascii "OK")
  else w.send []

/-! ### Registers -/

/-- The register loop of `handle_read_registers`. -/
def readRegistersLoop (cb : GdbCallbacks x σ) : List Nat → World x σ → CharArray gdbBufferSize →
    Result (World x σ × CharArray gdbBufferSize)
  | [], w, p => .ok (w, p)
  | i :: is, w, p => do
    let (value, w) := w.call fun c t => cb.readReg c t i
    let p ← p.pushAll (encodeHex value x.regHexBytes)
    readRegistersLoop cb is w p

/-- `handle_read_registers`. -/
def handleReadRegisters (cb : GdbCallbacks x σ) (w : World x σ) : Result (World x σ) := do
  let (w, p) ← readRegistersLoop cb (List.range 32) w (CharArray.empty gdbBufferSize)
  let (pc, w) := w.call cb.getPc
  let p ← p.pushAll (encodeHex pc x.regHexBytes)
  let response ← p.terminate
  .ok (w.send response)

/-- The register loop of `handle_write_registers`. -/
def writeRegistersLoop (cb : GdbCallbacks x σ) : List Nat → World x σ → Result (World x σ)
  | [], w => .ok w
  | i :: is, w => do
    let value ← parseHexLe x (cstr w.stub.packetBuffer (1 + i * x.regHexChars)) x.regHexChars
    writeRegistersLoop cb is (w.act fun c t => cb.writeReg c t i value)

/-- `handle_write_registers`. -/
def handleWriteRegisters (cb : GdbCallbacks x σ) (w : World x σ) : Result (World x σ) := do
  let w ← writeRegistersLoop cb (List.range 32) w
  let pc ← parseHexLe x (cstr w.stub.packetBuffer (1 + 32 * x.regHexChars)) x.regHexChars
  let w := w.act fun c t => cb.setPc c t pc
  .ok (w.send (ascii "OK"))

/-- An unsigned field as an `int`. -/
def addrToInt (a : GdbAddr x) : Int := (a.setWidth 32).toInt

/-- `handle_read_single_register`. -/
def handleReadSingleRegister (cb : GdbCallbacks x σ) (w : World x σ) : Result (World x σ) :=
  let packet := cstr w.stub.packetBuffer 1
  let regNum := addrToInt (parseHex x packet packet.length)
  if regNum < 0 ∨ regNum > 32 then .ok (w.send (ascii "E01"))
  else do
    -- register 32 is the pc
    let (value, w) := if regNum < 32 then w.call fun c t => cb.readReg c t regNum.toNat
      else w.call cb.getPc
    let response ← (CharArray.empty 32).pushAll (encodeHex value x.regHexBytes)
    let response ← response.terminate
    .ok (w.send response)

/-- `handle_write_single_register`. -/
def handleWriteSingleRegister (cb : GdbCallbacks x σ) (w : World x σ) : Result (World x σ) :=
  match strchr w.stub.packetBuffer 1 (chr '=') with
  | none => .ok (w.send (ascii "E01"))
  | some equals => do
    let buf := setByte w.stub.packetBuffer equals 0
    let w := w.setBuffer buf
    let regNum := addrToInt (parseHex x (cstr buf 1) (equals - 1))
    let value ← parseHexLe x (cstr buf (equals + 1)) (cstr buf (equals + 1)).length
    if regNum < 0 ∨ regNum > 32 then .ok (w.send (ascii "E01"))
    else
      let w := if regNum < 32 then w.act fun c t => cb.writeReg c t regNum.toNat value
        else w.act fun c t => cb.setPc c t value
      .ok (w.send (ascii "OK"))

/-! ### Memory -/

/-- The loop of `handle_read_memory`, with `n` bytes to go from offset `i` on. -/
def readMemoryLoop (cb : GdbCallbacks x σ) (addr : GdbAddr x) : Nat → Nat → World x σ →
    CharArray gdbBufferSize → Result (World x σ × CharArray gdbBufferSize)
  | 0, _, w, p => .ok (w, p)
  | n + 1, i, w, p => do
    let (value, w) := w.call fun c t => cb.readMem c t (addr + BitVec.ofNat x.bits i) 1
    let p ← p.pushAll (hexByte (value.setWidth 8))
    readMemoryLoop cb addr n (i + 1) w p

/-- `handle_read_memory`. -/
def handleReadMemory (cb : GdbCallbacks x σ) (w : World x σ) : Result (World x σ) :=
  match strchr w.stub.packetBuffer 1 (chr ',') with
  | none => .ok (w.send (ascii "E01"))
  | some comma =>
    let buf := setByte w.stub.packetBuffer comma 0
    let w := w.setBuffer buf
    let addr := parseHex x (cstr buf 1) (comma - 1)
    let len := parseHex x (cstr buf (comma + 1)) (cstr buf (comma + 1)).length
    if len.toNat > gdbBufferSize / 2 then .ok (w.send (ascii "E02"))
    else do
      let (w, p) ← readMemoryLoop cb addr len.toNat 0 w (CharArray.empty gdbBufferSize)
      let response ← p.terminate
      .ok (w.send response)

/-- The position of `data[i * 2]` in the packet buffer, with `i` a `gdb_addr_t`. -/
def dataIndex (x : Xlen) (data i : Nat) : Nat := data + (BitVec.ofNat x.bits i * 2).toNat

/-- The position of `data[i * 2 + 1]`. -/
def dataIndexLow (x : Xlen) (data i : Nat) : Nat := data + (BitVec.ofNat x.bits i * 2 + 1).toNat

/-- The loop of `handle_write_memory`, with `n` bytes to go from offset `i` on; `data` is the
position of the data in the packet buffer. -/
def writeMemoryLoop (cb : GdbCallbacks x σ) (addr : GdbAddr x) (data : Nat) : Nat → Nat →
    World x σ → Result (World x σ)
  | 0, _, w => .ok w
  | n + 1, i, w => do
    let hi ← w.stub.peek (dataIndex x data i)
    let lo ← w.stub.peek (dataIndexLow x data i)
    writeMemoryLoop cb addr data n (i + 1) (w.act fun c t =>
      cb.writeMem c t (addr + BitVec.ofNat x.bits i) ((hexPair hi lo).setWidth x.bits) 1)

/-- `handle_write_memory`. -/
def handleWriteMemory (cb : GdbCallbacks x σ) (w : World x σ) : Result (World x σ) :=
  match strchr w.stub.packetBuffer 1 (chr ','), strchr w.stub.packetBuffer 1 (chr ':') with
  | some comma, some colon => do
    let buf := setByte (setByte w.stub.packetBuffer comma 0) colon 0
    let w := w.setBuffer buf
    let addr := parseHex x (cstr buf 1) (comma - 1)
    let len := parseHex x (cstr buf (comma + 1)) (colon - comma - 1)
    let w ← writeMemoryLoop cb addr (colon + 1) len.toNat 0 w
    .ok (w.send (ascii "OK"))
  | _, _ => .ok (w.send (ascii "E01"))

/-- `decode_rsp_binary` from the rest of the source on; `none` is the return value `-1`. -/
def decodeRspBinary {cap : Nat} (dstLen : Nat) : List Byte → CharArray cap →
    Result (Option (CharArray cap))
  | [], dst => .ok (if dst.data.length = dstLen then some dst else none)
  | c :: rest, dst =>
    if dstLen ≤ dst.data.length then .ok (if dst.data.length = dstLen then some dst else none)
    else if c = chr '*' then
      match dst.data.getLast?, rest with
      | some prev, count :: rest => do
        -- the count is not reduced by 29
        let n := min count.toNat (dstLen - dst.data.length)
        let dst ← dst.pushAll (List.replicate n prev)
        decodeRspBinary dstLen rest dst
      -- no byte to repeat, or no count
      | _, _ => .ok none
    else if c = chr '}' then
      match rest with
      | [] => .ok none
      | e :: rest => do
        let dst ← dst.push (e ^^^ 0x20)
        decodeRspBinary dstLen rest dst
    else do
      let dst ← dst.push c
      decodeRspBinary dstLen rest dst

/-- Writing bytes to consecutive addresses through `write_mem`, from offset `i` on. -/
def writeBytes (cb : GdbCallbacks x σ) (connected : Bool) (addr : GdbAddr x) (i : Nat) :
    List Byte → Target x σ → Target x σ
  | [], t => t
  | b :: bs, t => writeBytes cb connected addr (i + 1) bs
      (cb.writeMem connected t (addr + BitVec.ofNat x.bits i) (b.setWidth x.bits) 1)

/-- `handle_write_memory_binary`. -/
def handleWriteMemoryBinary (cb : GdbCallbacks x σ) (w : World x σ) : Result (World x σ) :=
  match strchr w.stub.packetBuffer 1 (chr ','), strchr w.stub.packetBuffer 1 (chr ':') with
  | some comma, some colon => do
    let buf := setByte (setByte w.stub.packetBuffer comma 0) colon 0
    let w := w.setBuffer buf
    let addr := parseHex x (cstr buf 1) (comma - 1)
    let len := ((parseHex x (cstr buf (comma + 1)) (colon - comma - 1)).setWidth 32).toNat
    if len = 0 ∨ len > gdbBufferSize then .ok (w.send (ascii "E02"))
    else
      match ← decodeRspBinary len (cstr buf (colon + 1)) (CharArray.empty gdbBufferSize) with
      | none => .ok (w.send (ascii "E03"))
      | some bytes =>
        let w := w.act fun c t => writeBytes cb c addr 0 bytes.data t
        .ok (w.send (ascii "OK"))
  | _, _ => .ok (w.send (ascii "E01"))

/-! ### Breakpoints, reset and threads -/

/-- The watchpoint type of the packet types `2`, `3` and `4`. -/
def watchpointType (type : Int) : WatchpointType :=
  if type = 2 then .write else if type = 3 then .read else .access

/-- `handle_breakpoint`. -/
def handleBreakpoint (w : World x σ) (insert : Bool) : World x σ :=
  let buf := w.stub.packetBuffer
  match strchr buf 1 (chr ',') with
  | none => w.send (ascii "E01")
  | some comma1 =>
    match strchr buf (comma1 + 1) (chr ',') with
    | none => w.send (ascii "E01")
    | some comma2 =>
      let buf := setByte (setByte buf comma1 0) comma2 0
      let w := w.setBuffer buf
      let type := addrToInt (parseHex x (cstr buf 1) (comma1 - 1))
      let addr := parseHex x (cstr buf (comma1 + 1)) (comma2 - comma1 - 1)
      let len := parseHex x (cstr buf (comma2 + 1)) (cstr buf (comma2 + 1)).length
      -- a watchpoint without a length covers a word
      let len := if 2 ≤ type ∧ type ≤ 4 ∧ len = 0 then 4 else len
      let reply (r : Bool × DebugState x) : World x σ :=
        (w.updDbg fun _ => r.2).send (if r.1 then ascii "OK" else ascii "E01")
      if type = 0 ∨ type = 1 then
        reply (if insert then gdbStubAddBreakpoint w.dbg addr
          else gdbStubRemoveBreakpoint w.dbg addr)
      else if 2 ≤ type ∧ type ≤ 4 then
        reply (if insert then gdbStubAddWatchpoint w.dbg addr len (watchpointType type)
          else gdbStubRemoveWatchpoint w.dbg addr len (watchpointType type))
      else w.send []

/-- Writing `0` to the registers of a list. -/
def clearRegisters (cb : GdbCallbacks x σ) : List Nat → World x σ → World x σ
  | [], w => w
  | i :: is, w => clearRegisters cb is (w.act fun c t => cb.writeReg c t i 0)

/-- `handle_reset`. -/
def handleReset (cb : GdbCallbacks x σ) (w : World x σ) : World x σ :=
  let w := match cb.reset with
    | some reset => w.act reset
    -- the default reset: the pc, then x1 to x31
    | none => clearRegisters cb (List.range' 1 31) (w.act fun c t => cb.setPc c t 0)
  let w := w.updDbg fun d => gdbStubClearWatchpoints (gdbStubClearBreakpoints d)
  (w.updDbg fun d => { d with
    shouldStop := true
    singleStep := false
    lastStopSignal := 5
    breakpointHit := false
    currentThread := 1
    continueThread := -1
    stopThread := 0 }).send (ascii "OK")

/-- The thread `Hg` selects: the named one, or for `0` and `-1` the one that stopped, else the
focus hart. -/
def selectedThread (cb : GdbCallbacks x σ) (w : World x σ) (tid : Int) : Int × World x σ :=
  if tid ≤ 0 then
    let (stopHart, w) := w.callOpt cb.getStopHart 0
    let (stopHart, w) := if stopHart < 0 then w.callOpt cb.getFocusHart 0 else (stopHart, w)
    (stopHart + 1, w)
  else (tid, w)

/-- `handle_set_thread`. -/
def handleSetThread (cb : GdbCallbacks x σ) (w : World x σ) : World x σ :=
  let op := byteAt w.stub.packetBuffer 1
  let tidStr := cstr w.stub.packetBuffer 2
  let (numHarts, w) := w.callOpt cb.getNumHarts 1
  if op ≠ chr 'g' ∧ op ≠ chr 'c' then w.send (ascii "E01")
  else
    let (pid, tid) := parseThreadSpec tidStr
    if !threadPidValid pid then w.send (ascii "E01")
    else if op = chr 'g' then
      let (tid, w) := selectedThread cb w tid
      if tid < 1 ∨ tid > numHarts then w.send (ascii "E01")
      else
        let w := w.updDbg fun d => { d with currentThread := tid }
        (w.actOpt (cb.setFocusHart.map fun f c t => f c t (tid - 1))).send (ascii "OK")
    else
      -- `Hc` only keeps the thread for the next continue
      let ct := resolveContinueThread pid tid
      let w := w.updDbg fun d => { d with continueThread := ct }
      if ct = -2 then w.send (ascii "E01") else w.send (ascii "OK")

/-- `handle_thread_alive`. -/
def handleThreadAlive (cb : GdbCallbacks x σ) (w : World x σ) : World x σ :=
  let (numHarts, w) := w.callOpt cb.getNumHarts 1
  let (pid, threadId) := parseThreadSpec (cstr w.stub.packetBuffer 1)
  if !threadPidValid pid then w.send (ascii "E01")
  else if 1 ≤ threadId ∧ threadId ≤ numHarts then w.send (ascii "OK")
  else w.send (ascii "E01")

/-- `handle_halt_reason`. -/
def handleHaltReason (cb : GdbCallbacks x σ) (w : World x σ) : World x σ :=
  let tid := w.dbg.replyThread
  if w.dbg.singleStep then w.send (formatStopReply w.dbg 128 5 tid false 0 0)
  else if w.dbg.lastWatchpointAddr ≠ 0 then
    let response := formatStopReply w.dbg 128 5 tid false w.dbg.lastWatchpointAddr 0
    (w.updDbg fun d => { d with lastWatchpointAddr := 0 }).send response
  else
    let (pc, w) := w.call cb.getPc
    -- a breakpoint at the pc counts as hit from here on
    let (hit, d) := gdbStubCheckBreakpoint w.dbg pc
    let w := w.updDbg fun _ => d
    w.send (formatStopReply w.dbg 128 5 tid hit 0 0)

end Rv32Gdb
