import Rv32Gdb.Stub.Context
import Mathlib.Logic.Function.Basic

/-!
# Hex fields, the packet buffer, and sending and receiving packets

`byteAt` reads the packet buffer as a total function, `cstr buf i` is the C string that starts at
position `i`, and `strchr` returns a position, so that the handlers' stores through it stay inside
the buffer.  `receivePacket` is the state machine of `receive_packet`, by recursion on the bytes
still to be read.
-/

namespace Rv32Gdb

/-! ### Protocol helpers -/

/-- `parse_hex`: at most `len` characters of the string, a character that is not a hex digit
counting as `0`. -/
def parseHex (x : Xlen) (str : List Byte) (len : Nat) : GdbAddr x :=
  (str.take len).foldl (fun value c => (value <<< 4) ||| (hexToInt c).setWidth x.bits) 0

/-- The byte of two hex digits. -/
def hexPair (hi lo : Byte) : Byte := (hexToInt hi <<< 4) ||| hexToInt lo

/-- The loop of `parse_hex_le` from byte `i` on, with `n` bytes to go. -/
def parseHexLeLoop (x : Xlen) (i : Nat) : Nat → List Byte → GdbReg x → Result (GdbReg x)
  | n + 1, hi :: lo :: rest, value =>
    if x.bits ≤ i * 8 then .error .shiftOverflow
    else parseHexLeLoop x (i + 1) n rest
      (value ||| ((hexPair hi lo).setWidth x.bits <<< (i * 8)))
  | _, _, value => .ok value

/-- `parse_hex_le`. -/
def parseHexLe (x : Xlen) (str : List Byte) (hexChars : Nat) : Result (GdbReg x) :=
  parseHexLeLoop x 0 (hexChars / 2) str 0

/-- The two hex digits of a byte. -/
def hexByte (b : Byte) : List Byte := [intToHex (b >>> 4), intToHex (b &&& 0xF)]

/-- `encode_hex`: the low `bytes` bytes of the value, least significant first. -/
def encodeHex {x : Xlen} (value : GdbReg x) (bytes : Nat) : List Byte :=
  (List.range bytes).flatMap fun i => hexByte ((value >>> (i * 8)).setWidth 8)

/-- `calculate_checksum`. -/
def calculateChecksum (data : List Byte) : Byte := data.foldl (· + ·) 0

/-- `ranges_overlap`; the ends are computed in 64 bits in both builds. -/
def rangesOverlap {x : Xlen} (addr1 len1 addr2 len2 : GdbAddr x) : Bool :=
  if len1 = 0 ∨ len2 = 0 then false
  else
    let end1 : BitVec 64 := addr1.setWidth 64 + len1.setWidth 64
    let end2 : BitVec 64 := addr2.setWidth 64 + len2.setWidth 64
    addr1.setWidth 64 < end2 ∧ addr2.setWidth 64 < end1

/-! ### The packet buffer -/

/-- `buf[i]`; a read past the end is taken for the terminator. -/
def byteAt (buf : Fin gdbBufferSize → Byte) (i : Nat) : Byte :=
  if h : i < gdbBufferSize then buf ⟨i, h⟩ else 0#8

/-- The C string that starts at position `i`, in at most `n` characters. -/
def cstrFrom (buf : Fin gdbBufferSize → Byte) : Nat → Nat → List Byte
  | 0, _ => []
  | n + 1, i => if byteAt buf i = 0#8 then [] else byteAt buf i :: cstrFrom buf n (i + 1)

/-- The C string that starts at position `i`. -/
def cstr (buf : Fin gdbBufferSize → Byte) (i : Nat) : List Byte := cstrFrom buf gdbBufferSize i

theorem length_cstrFrom_le (buf : Fin gdbBufferSize → Byte) (n i : Nat) :
    (cstrFrom buf n i).length ≤ gdbBufferSize - i := by
  induction n generalizing i with
  | zero => simp [cstrFrom]
  | succ n ih =>
    unfold cstrFrom
    split_ifs with h
    · simp
    · have hi : i < gdbBufferSize := by
        by_contra hi
        exact h (dif_neg hi)
      have := ih (i + 1)
      rw [List.length_cons]
      omega

theorem length_cstr_le (buf : Fin gdbBufferSize → Byte) (i : Nat) :
    (cstr buf i).length ≤ gdbBufferSize - i := length_cstrFrom_le buf _ i

/-- `strchr(buf + i, c)` for a character other than NUL. -/
def strchr (buf : Fin gdbBufferSize → Byte) (i : Nat) (c : Byte) : Option (Fin gdbBufferSize) :=
  if h : c ∈ cstr buf i then
    some ⟨i + (cstr buf i).idxOf c, by
      have h1 := List.idxOf_lt_length_of_mem h
      have h2 := length_cstr_le buf i
      omega⟩
  else none

/-- `*p = b` for a position that `strchr` returned. -/
def setByte (buf : Fin gdbBufferSize → Byte) (p : Fin gdbBufferSize) (b : Byte) :
    Fin gdbBufferSize → Byte := Function.update buf p b

theorem byteAt_setByte (buf : Fin gdbBufferSize → Byte) (p : Fin gdbBufferSize) (b : Byte)
    (i : Nat) : byteAt (setByte buf p b) i = if i = p then b else byteAt buf i := by
  unfold byteAt setByte
  by_cases h : i < gdbBufferSize
  · by_cases hp : i = p
    · have : (⟨i, h⟩ : Fin gdbBufferSize) = p := Fin.ext hp
      simp [hp]
    · have : (⟨i, h⟩ : Fin gdbBufferSize) ≠ p := fun e => hp (congrArg Fin.val e)
      simp [h, hp, this]
  · have : i ≠ p := fun e => h (e ▸ p.isLt)
    simp [h, this]

/-- The first `n` bytes of the buffer. -/
def bufferPrefix (buf : Fin gdbBufferSize → Byte) (n : Nat) : List Byte :=
  (List.range n).map (byteAt buf)

namespace GdbStub

/-- `packet_buffer[i]`, read as data. -/
def peek (s : GdbStub) (i : Nat) : Result Byte :=
  if h : i < gdbBufferSize then .ok (s.packetBuffer ⟨i, h⟩) else .error .outOfBoundsRead

/-- `packet_buffer[i] = b`. -/
def poke (s : GdbStub) (i : Nat) (b : Byte) : Result GdbStub :=
  if h : i < gdbBufferSize then .ok { s with packetBuffer := setByte s.packetBuffer ⟨i, h⟩ b }
  else .error .outOfBoundsWrite

/-- The packet last received. -/
def packet (s : GdbStub) : List Byte := bufferPrefix s.packetBuffer s.packetSize

/-- One buffer written to the client. -/
def write (s : GdbStub) (buf : List Byte) : GdbStub := { s with output := s.output ++ [buf] }

end GdbStub

/-! ### Packets -/

/-- The frame of a payload: `$payload#checksum`. -/
def frame (data : List Byte) : List Byte :=
  chr '$' :: data ++ chr '#' :: hexByte (calculateChecksum data)

/-- `send_packet`: a frame that does not fit the buffer with its terminator is not sent. -/
def sendPacket (s : GdbStub) (data : List Byte) : GdbStub :=
  if (frame data).length < gdbBufferSize then s.write (frame data) else s

/-- The local state of `receive_packet`. -/
inductive RecvState
  /-- State 0: wait for `$`. -/
  | waitStart
  /-- State 1: read data, the next byte going to `index`. -/
  | readData (index : Nat)
  /-- State 2: read checksum, `index` digits of it read so far. -/
  | readChecksum (index : Nat) (expected received : Byte)

/-- `receive_packet` from a local state on; the flag is `true` for the return value `0` and
`false` for `-1`. -/
def receiveLoop (s : GdbStub) : RecvState → List Byte → Result (Bool × GdbStub)
  | _, [] => .ok (false, { s with input := [], consecutiveFailures := s.consecutiveFailures + 1 })
  | .waitStart, c :: rest =>
    if c = chr '$' then receiveLoop s (.readData 0) rest
    else if c = 0x03 then do
      let s ← s.poke 0 0x03
      .ok (true, { s with input := rest, packetSize := 1 })
    else receiveLoop s .waitStart rest
  | .readData index, c :: rest =>
    if c = chr '#' then do
      let s ← s.poke index 0
      let s := { s with packetSize := index }
      receiveLoop s (.readChecksum 0 (calculateChecksum (bufferPrefix s.packetBuffer index)) 0) rest
    else if index < gdbBufferSize - 1 then do
      let s ← s.poke index c
      receiveLoop s (.readData (index + 1)) rest
    -- a byte beyond the buffer is dropped
    else receiveLoop s (.readData index) rest
  | .readChecksum index expected received, c :: rest =>
    let received := (received <<< 4) ||| hexToInt c
    if index + 1 = 2 then
      let s := { s with input := rest }
      if received ≠ expected then
        -- NACK if not in no-ack mode
        let s := if s.noAckMode then s else s.write [chr '-']
        .ok (false, { s with consecutiveFailures := s.consecutiveFailures + 1 })
      else
        -- ACK if not in no-ack mode
        let s := if s.noAckMode then s else s.write [chr '+']
        .ok (true, { s with consecutiveFailures := 0 })
    else receiveLoop s (.readChecksum (index + 1) expected received) rest

/-- `receive_packet`. -/
def receivePacket (s : GdbStub) : Result (Bool × GdbStub) := receiveLoop s .waitStart s.input

/-- The packet that the next call of `receive_packet` delivers, if it delivers one. -/
def GdbStub.nextPacket (s : GdbStub) : Option (List Byte) :=
  match receivePacket s with
  | .ok (true, s') => some s'.packet
  | _ => none

/-- `send_packet(&ctx->stub, data)`. -/
def World.send {x : Xlen} {σ : Type} (w : World x σ) (data : List Byte) : World x σ :=
  { w with stub := sendPacket w.stub data }

/-- A change of the packet buffer. -/
def World.setBuffer {x : Xlen} {σ : Type} (w : World x σ) (buf : Fin gdbBufferSize → Byte) :
    World x σ :=
  { w with stub := { w.stub with packetBuffer := buf } }

end Rv32Gdb
