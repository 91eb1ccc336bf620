import Rv32Gdb.ByteMemory
import Rv32Gdb.Equiv.Packet

/-!
# The memory writes `M` and `X`

`writeBytes_eq_storeAll`: over callbacks that store single bytes, the handlers' writes store a
string.  `writeMemoryLoop_of_hasBytes` and `decodeRspBinary_encodeBinary` say what the two
payload codecs give, and `handleWriteMemory_cases` what `M` replies whatever its data is.
-/

namespace Rv32Gdb

variable {x : Xlen} {σ : Type}

/-! ### Memory behind the callbacks -/

/-- `mem` reads off the target a memory in which `write_mem` stores single bytes. -/
def IsByteMemory (cb : GdbCallbacks x σ) (mem : Target x σ → GdbAddr x → Byte) : Prop :=
  ∀ (t : Target x σ) (a : GdbAddr x) (v : Byte),
    mem (cb.writeMem true t a (v.setWidth x.bits) 1) = Function.update (mem t) a v

theorem writeBytes_eq_storeAll {cb : GdbCallbacks x σ} {mem : Target x σ → GdbAddr x → Byte}
    (h : IsByteMemory cb mem) (a : GdbAddr x) (i : Nat) (d : List Byte) (t : Target x σ) :
    mem (writeBytes cb true a i d t) = ByteMemory.storeAll (mem t) a i d := by
  induction d generalizing i t with
  | nil => rfl
  | cons b d ih => rw [writeBytes, ih, h, ByteMemory.storeAll]

/-- The callbacks of a target that is nothing but a byte memory. -/
def byteMemoryCallbacks (x : Xlen) : GdbCallbacks x (GdbAddr x → Byte) where
  readReg _ t _ := (0, t)
  writeReg _ t _ _ := t
  readMem _ t a _ := ((t.sim a).setWidth x.bits, t)
  writeMem _ t a v _ := { t with sim := Function.update t.sim a (v.setWidth 8) }
  getPc _ t := (0, t)
  setPc _ t _ := t
  reset := none
  resume := none
  getNumHarts := none
  setFocusHart := none
  getFocusHart := none
  getStopHart := none
  haltCpus := none

theorem isByteMemory_byteMemoryCallbacks (x : Xlen) :
    IsByteMemory (byteMemoryCallbacks x) fun t => t.sim := by
  intro t a v
  have hv : (v.setWidth x.bits).setWidth 8 = v :=
    BitVec.setWidth_setWidth_of_le v (by cases x <;> decide)
  show Function.update t.sim a ((v.setWidth x.bits).setWidth 8) = _
  rw [hv]

/-- Such a target, all bytes zero, behind a stub that a client has just connected to. -/
def byteMemoryWorld (x : Xlen) (input : List Byte) : World x (GdbAddr x → Byte) where
  dbg := DebugState.init x
  sim := fun _ => 0
  stub := gdbStubAccept GdbStub.init input

/-! ### The header of a write packet -/

/-- `M` or `X` with the texts of address and length and with a payload. -/
def writePacket (cmd : Char) (addr len payload : List Byte) : List Byte :=
  chr cmd :: addr ++ chr ',' :: (len ++ chr ':' :: payload)

theorem two_pow_bits_le (x : Xlen) : 2 ^ 32 ≤ 2 ^ x.bits := by cases x <;> decide

/-- Where the separators of a write packet are, and what the handlers read after cutting it. -/
theorem header_of_hasBytes {buf : Fin gdbBufferSize → Byte} {cmd : Char}
    {addr len payload : List Byte} (h : HasBytes buf 0 (writePacket cmd addr len payload ++ [0#8]))
    (haddr : ∀ c ∈ addr, isxdigit c) (hlen : ∀ c ∈ len, isxdigit c) :
    ∃ comma colon : Fin gdbBufferSize, strchr buf 1 (chr ',') = some comma ∧
      strchr buf 1 (chr ':') = some colon ∧
      (comma : Nat) = 1 + addr.length ∧ (colon : Nat) = comma + 1 + len.length ∧
      let buf' := setByte (setByte buf comma 0) colon 0
      parseHex x (cstr buf' 1) (comma - 1) = BitVec.ofNat x.bits (hexValue addr) ∧
      parseHex x (cstr buf' (comma + 1)) (colon - comma - 1) =
        BitVec.ofNat x.bits (hexValue len) ∧
      HasBytes buf' (colon + 1) (payload ++ [0#8]) := by
  have ne_addr := fun c hc => ne_of_isxdigit (haddr c hc)
  have ne_len := fun c hc => ne_of_isxdigit (hlen c hc)
  -- the pieces of the packet in the buffer
  have h1 : HasBytes buf 1 (addr ++ ([chr ','] ++ (len ++ ([chr ':'] ++ (payload ++ [0#8]))))) := by
    have := h.tail
    simpa [writePacket] using this
  obtain ⟨hA, h2⟩ := hasBytes_append.mp h1
  obtain ⟨hcomma, h3⟩ := hasBytes_append.mp h2
  obtain ⟨hL, h4⟩ := hasBytes_append.mp h3
  obtain ⟨hcolon, hP⟩ := hasBytes_append.mp h4
  rw [List.length_singleton] at h3 hL h4 hcolon hP
  -- the separators are found behind the fields, whose hex digits are none
  obtain ⟨comma, hfind1, hpos1⟩ := strchr_of_hasBytes (hasBytes_append.mpr ⟨hA, hcomma⟩)
    (fun hm => (ne_addr _ hm).2.2.2 rfl) (fun hm => (ne_addr _ hm).1 rfl) (by decide)
  obtain ⟨colon, hfind2, hpos2⟩ := strchr_of_hasBytes (i := 1) (l := addr ++ [chr ','] ++ len)
    (c := chr ':') (by
      rw [List.append_assoc, List.append_assoc]
      refine hasBytes_append.mpr ⟨hA, hasBytes_append.mpr ⟨hcomma, hasBytes_append.mpr ⟨?_, ?_⟩⟩⟩
      · exact hL
      · exact hcolon)
    (by
      simp only [List.mem_append, List.mem_singleton, not_or]
      exact ⟨⟨fun hm => (ne_addr _ hm).2.2.2 rfl, by decide⟩, fun hm => (ne_len _ hm).2.2.2 rfl⟩)
    (by
      simp only [List.mem_append, List.mem_singleton, not_or]
      exact ⟨⟨fun hm => (ne_addr _ hm).2.1 rfl, by decide⟩, fun hm => (ne_len _ hm).2.1 rfl⟩)
    (by decide)
  have hcolonpos : (colon : Nat) = comma + 1 + len.length := by
    simp only [List.length_append, List.length_singleton] at hpos2
    omega
  refine ⟨comma, colon, hfind1, hfind2, hpos1, hcolonpos, ?_, ?_, ?_⟩
  · -- the address ends where the comma was, and the length where the colon was
    have hstr : cstr (setByte (setByte buf comma 0) colon 0) 1 = addr := by
      refine cstr_of_hasBytes (hasBytes_append.mpr ⟨?_, ?_⟩) fun hm => (ne_addr _ hm).2.2.2 rfl
      · exact (hA.setByte _ _ (by omega)).setByte _ _ (by omega)
      · rw [← hpos1, hasBytes_singleton comma.isLt, byteAt_setByte, if_neg (by omega),
          byteAt_setByte, if_pos rfl]
        rfl
    rw [hstr, parseHex_eq, List.take_of_length_le (by omega)]
  · have hstr : cstr (setByte (setByte buf comma 0) colon 0) (comma + 1) = len := by
      refine cstr_of_hasBytes (hasBytes_append.mpr ⟨?_, ?_⟩) fun hm => (ne_len _ hm).2.2.2 rfl
      · rw [hpos1]
        exact (hL.setByte _ _ (by omega)).setByte _ _ (by omega)
      · rw [← hcolonpos, hasBytes_singleton colon.isLt, byteAt_setByte, if_pos rfl]
        rfl
    rw [hstr, parseHex_eq, List.take_of_length_le (by omega)]
  · have hP' : HasBytes buf (colon + 1) (payload ++ [0#8]) := by
      rw [hcolonpos, hpos1]
      exact hP
    exact (hP'.setByte comma 0 (by omega)).setByte colon 0 (by omega)

/-! ### Hex data -/

/-- The bytes that pairs of hex digits denote. -/
def hexPairs : List Byte → List Byte
  | hi :: lo :: rest => hexPair hi lo :: hexPairs rest
  | _ => []

theorem hexPairs_flatMap_hexByte (d : List Byte) : hexPairs (d.flatMap hexByte) = d := by
  induction d with
  | nil => rfl
  | cons b d ih =>
    rw [List.flatMap_cons]
    show hexPair _ _ :: hexPairs (d.flatMap hexByte) = _
    rw [ih, hexPair_hexByte]

theorem length_flatMap_hexByte (d : List Byte) : (d.flatMap hexByte).length = 2 * d.length := by
  induction d with
  | nil => rfl
  | cons b d ih =>
    rw [List.flatMap_cons, List.length_append, ih, length_hexByte, List.length_cons]
    omega

theorem length_hexPairs {s : List Byte} {n : Nat} (h : s.length = 2 * n) :
    (hexPairs s).length = n := by
  induction n generalizing s with
  | zero =>
    obtain rfl := List.length_eq_zero_iff.mp h
    rfl
  | succ n ih =>
    match s, h with
    | hi :: lo :: rest, h =>
      rw [hexPairs, List.length_cons, ih]
      simp only [List.length_cons] at h
      omega

/-- As long as the products do not wrap, the data is read at `2 * i` and `2 * i + 1`. -/
theorem dataIndex_eq (x : Xlen) (data : Nat) {i : Nat} (hi : 2 * i + 1 < 2 ^ 32) :
    dataIndex x data i = data + 2 * i ∧ dataIndexLow x data i = data + 2 * i + 1 := by
  have hx := two_pow_bits_le x
  have h2 : (2 : GdbAddr x).toNat = 2 := by cases x <;> rfl
  have h1 : (1 : GdbAddr x).toNat = 1 := by cases x <;> rfl
  unfold dataIndex dataIndexLow
  rw [BitVec.toNat_add, BitVec.toNat_mul, BitVec.toNat_ofNat, h2, h1,
    Nat.mod_eq_of_lt (by omega : i < 2 ^ x.bits),
    Nat.mod_eq_of_lt (by omega : i * 2 < 2 ^ x.bits),
    Nat.mod_eq_of_lt (by omega : i * 2 + 1 < 2 ^ x.bits)]
  omega

theorem peek_of_hasBytes {s : GdbStub} {i : Nat} {c : Byte} {l : List Byte}
    (h : HasBytes s.packetBuffer i (c :: l)) : s.peek i = .ok c := by
  have hi : i < gdbBufferSize := by
    have := h.1
    rw [List.length_cons] at this
    omega
  have := h.head
  rw [byteAt, dif_pos hi] at this
  rw [GdbStub.peek, dif_pos hi, this]

/-- Two digits of the data for every byte to be written: the bytes are written. -/
theorem writeMemoryLoop_of_hasBytes (cb : GdbCallbacks x σ) (addr : GdbAddr x) (data : Nat)
    {i n : Nat} {digits : List Byte} {w : World x σ}
    (h : HasBytes w.stub.packetBuffer (data + 2 * i) digits) (hn : digits.length = 2 * n) :
    writeMemoryLoop cb addr data n i w =
      .ok (w.withTarget (writeBytes cb w.stub.connected addr i (hexPairs digits) w.toTarget)) := by
  induction n generalizing i digits w with
  | zero =>
    obtain rfl := List.length_eq_zero_iff.mp hn
    rfl
  | succ n ih =>
    match digits, hn with
    | hi :: lo :: digits, hn =>
      have hbound := h.1
      simp only [List.length_cons, gdbBufferSize] at hn hbound
      obtain ⟨hhigh, hlow⟩ := dataIndex_eq x data (i := i) (by omega)
      rw [writeMemoryLoop, hhigh, hlow, peek_of_hasBytes h, peek_of_hasBytes h.tail]
      show writeMemoryLoop cb addr data n (i + 1) _ = _
      rw [ih h.tail.tail (show digits.length = 2 * n by omega)]
      rfl

/-- The positions of the packet buffer that the loop reads. -/
def dataPositions (x : Xlen) (data n : Nat) : List Nat :=
  (List.range n).flatMap fun i => [dataIndex x data i, dataIndexLow x data i]

/-- The loop leaves the stub alone. -/
theorem stub_writeMemoryLoop {cb : GdbCallbacks x σ} {addr : GdbAddr x} {data n i : Nat}
    {w w' : World x σ} (h : writeMemoryLoop cb addr data n i w = .ok w') : w'.stub = w.stub := by
  induction n generalizing i w with
  | zero =>
    obtain rfl := Except.ok.inj h
    rfl
  | succ n ih =>
    rw [writeMemoryLoop] at h
    cases hhi : w.stub.peek (dataIndex x data i) with
    | error e => simp [hhi, bind, Except.bind] at h
    | ok hi =>
      cases hlo : w.stub.peek (dataIndexLow x data i) with
      | error e => simp [hhi, hlo, bind, Except.bind] at h
      | ok lo =>
        rw [hhi, hlo] at h
        change writeMemoryLoop cb addr data n (i + 1) _ = _ at h
        have hstub := ih h
        exact hstub

/-- The loop depends on the buffer only at the positions it reads. -/
theorem writeMemoryLoop_congr {cb : GdbCallbacks x σ} {addr : GdbAddr x} {data n i : Nat}
    {w : World x σ} {buf : Fin gdbBufferSize → Byte}
    (h : ∀ k, i ≤ k → k < i + n → ∀ p ∈ [dataIndex x data k, dataIndexLow x data k],
      byteAt buf p = byteAt w.stub.packetBuffer p) :
    writeMemoryLoop cb addr data n i (w.setBuffer buf) =
      (writeMemoryLoop cb addr data n i w).map fun w' => w'.setBuffer buf := by
  induction n generalizing i w with
  | zero => rfl
  | succ n ih =>
    have hpeek : ∀ p ∈ [dataIndex x data i, dataIndexLow x data i],
        (w.setBuffer buf).stub.peek p = w.stub.peek p := by
      intro p hp
      have := h i le_rfl (by omega) p hp
      unfold byteAt at this
      unfold GdbStub.peek
      split_ifs at this ⊢ with hlt
      · exact congrArg Except.ok this
      · rfl
    rw [writeMemoryLoop, writeMemoryLoop, hpeek _ (by simp), hpeek _ (by simp)]
    cases w.stub.peek (dataIndex x data i) with
    | error e => rfl
    | ok hi =>
      cases w.stub.peek (dataIndexLow x data i) with
      | error e => rfl
      | ok lo =>
        have htail := ih (i := i + 1) (w := w.act fun c t =>
          cb.writeMem c t (addr + BitVec.ofNat x.bits i) ((hexPair hi lo).setWidth x.bits) 1)
          fun k hk hkn p hp => h k (by omega) (by omega) p hp
        exact htail

/-! ### The `M` packet -/

/-- What a memory write is for: `0` is returned, exactly the bytes of `d` are written, one after
the other from `addr` on, so that a byte memory has them stored and nothing else changed, and the
reply is `OK`. -/
def WritesExactly (cb : GdbCallbacks x σ) (w : World x σ) (addr : GdbAddr x) (d : List Byte)
    (r : Result (Int × World x σ)) : Prop :=
  ∃ w', r = .ok (0, w') ∧ w'.toTarget = writeBytes cb true addr 0 d w.toTarget ∧
    (∀ mem, IsByteMemory cb mem →
      ByteMemory.Stores (mem w.toTarget) (mem w'.toTarget) addr d) ∧
    w'.stub.output = w.stub.output ++ w.stub.ack ++ [frame (ascii "OK")]

/-- What is refused: the reply is an error and the target is as before. -/
def RepliesError (w : World x σ) (r : Result (Int × World x σ)) : Prop :=
  ∃ w' code, r = .ok (0, w') ∧ w'.toTarget = w.toTarget ∧
    w'.stub.output = w.stub.output ++ w.stub.ack ++ [frame (chr 'E' :: code)]

/-- A handler that wrote the bytes and replied `OK` to a received packet. -/
theorem writesExactly_of_received {cb : GdbCallbacks x σ} {w : World x σ} {p rest d : List Byte}
    {s' : GdbStub} (hrecv : Received w.stub p rest s') (buf : Fin gdbBufferSize → Byte)
    (addr : GdbAddr x) (hd : d.length ≤ 2 ^ 32) :
    WritesExactly cb w addr d (.ok (0, (((({ w with stub := s' } : World x σ).setBuffer
      buf).withTarget (writeBytes cb true addr 0 d w.toTarget)).send (ascii "OK")))) := by
  refine ⟨_, rfl, rfl, fun mem hmem => ?_, ?_⟩
  · rw [World.toTarget_send, World.toTarget_withTarget, writeBytes_eq_storeAll hmem]
    exact ByteMemory.stores_storeAll _ _ _ (hd.trans (two_pow_bits_le x))
  · rw [output_send_of_le _ (by decide)]
    show s'.output ++ _ = _
    rw [hrecv.eq]

theorem frame_ok_ne_frame_error {out : List (List Byte)} (code : List Byte) :
    out ++ [frame (ascii "OK")] ≠ out ++ [frame (chr 'E' :: code)] := by
  intro h
  have hframe := List.singleton_inj.mp (List.append_cancel_left h)
  exact absurd (List.cons.inj (List.cons.inj hframe).2).1 (by decide)

theorem dispatch_M (fuel : Nat) (cb : GdbCallbacks x σ) {w : World x σ}
    (h : byteAt w.stub.packetBuffer 0 = chr 'M') :
    dispatch fuel cb w = andReturnZero (handleWriteMemory cb w) := by
  unfold dispatch
  simp only [h]
  rfl

/-- An `M` packet with two digits for every byte is carried out. -/
theorem writesExactly_writeMemory (fuel : Nat) (cb : GdbCallbacks x σ) {w : World x σ}
    {addr len payload rest : List Byte} (hconn : w.stub.connected)
    (hfail : w.stub.consecutiveFailures < 50) (haddr : ∀ c ∈ addr, isxdigit c)
    (hlen : ∀ c ∈ len, isxdigit c)
    (hbound : (writePacket 'M' addr len payload).length < gdbBufferSize)
    (hin : Framed (writePacket 'M' addr len payload) rest w.stub.input)
    (hn : payload.length = 2 * hexValue len) :
    WritesExactly cb w (BitVec.ofNat x.bits (hexValue addr)) (hexPairs payload)
      (gdbStubProcess fuel cb w) := by
  obtain ⟨s', hrecv, hproc⟩ := gdbStubProcess_framed fuel cb hconn hfail hin hbound
  obtain ⟨comma, colon, hcomma, hcolon, -, -, haddr', hlen', hdata⟩ :=
    header_of_hasBytes (x := x) hrecv.bytes haddr hlen
  have hsmall : hexValue len < 2 ^ 32 := by
    simp only [writePacket, List.length_cons, List.length_append, gdbBufferSize] at hbound
    omega
  have hconn' : s'.connected = true := by
    rw [hrecv.eq]
    exact hconn
  have hloop := writeMemoryLoop_of_hasBytes cb (BitVec.ofNat x.bits (hexValue addr)) (colon + 1)
    (i := 0) (w := ({ w with stub := s' } : World x σ).setBuffer
      (setByte (setByte s'.packetBuffer comma 0) colon 0))
    (hasBytes_append.mp hdata).1 hn
  have hhandle : handleWriteMemory cb { w with stub := s' } =
      .ok (((({ w with stub := s' } : World x σ).setBuffer
        (setByte (setByte s'.packetBuffer comma 0) colon 0)).withTarget
        (writeBytes cb true (BitVec.ofNat x.bits (hexValue addr)) 0 (hexPairs payload)
          w.toTarget)).send (ascii "OK")) := by
    rw [handleWriteMemory]
    simp only [hcomma, hcolon]
    rw [haddr', hlen', BitVec.toNat_ofNat, Nat.mod_eq_of_lt (hsmall.trans_le (two_pow_bits_le x)),
      hloop, ← hconn']
    rfl
  rw [hproc, dispatch_M fuel cb hrecv.bytes.head, hhandle]
  refine writesExactly_of_received hrecv _ _ ?_
  rw [length_hexPairs hn]
  exact hsmall.le

/-- `M` never replies with an error: either it reads past the buffer or it replies `OK`. -/
theorem not_repliesError_writeMemory (fuel : Nat) (cb : GdbCallbacks x σ) {w : World x σ}
    {addr len payload rest : List Byte} (hconn : w.stub.connected)
    (hfail : w.stub.consecutiveFailures < 50) (haddr : ∀ c ∈ addr, isxdigit c)
    (hlen : ∀ c ∈ len, isxdigit c)
    (hbound : (writePacket 'M' addr len payload).length < gdbBufferSize)
    (hin : Framed (writePacket 'M' addr len payload) rest w.stub.input) :
    ¬RepliesError w (gdbStubProcess fuel cb w) := by
  rintro ⟨w', code, hr, -, hout⟩
  obtain ⟨s', hrecv, hproc⟩ := gdbStubProcess_framed fuel cb hconn hfail hin hbound
  obtain ⟨comma, colon, hcomma, hcolon, -⟩ := header_of_hasBytes (x := x) hrecv.bytes haddr hlen
  rw [hproc, dispatch_M fuel cb hrecv.bytes.head, handleWriteMemory] at hr
  simp only [hcomma, hcolon] at hr
  revert hr
  generalize hloop : writeMemoryLoop cb _ _ _ _ _ = r
  intro hr
  cases r with
  | error e => exact absurd hr (by simp [andReturnZero, bind, Except.bind])
  | ok w₁ =>
    have hw' : w' = w₁.send (ascii "OK") := by
      have : (Except.ok (0, w₁.send (ascii "OK")) : Result (Int × World x σ)) = .ok (0, w') := hr
      exact (congrArg Prod.snd (Except.ok.inj this)).symm
    have hstub := stub_writeMemoryLoop hloop
    rw [hw', output_send_of_le _ (by decide), hstub] at hout
    have hbefore : s'.output = w.stub.output ++ w.stub.ack := by rw [hrecv.eq]
    have heq : s'.output ++ [frame (ascii "OK")] =
        w.stub.output ++ w.stub.ack ++ [frame (chr 'E' :: code)] := hout
    rw [hbefore] at heq
    exact frame_ok_ne_frame_error code heq

/-! ### Binary data -/

/-- The bytes that the binary encoding escapes. -/
def isEscaped (b : Byte) : Bool := b = chr '#' || b = chr '$' || b = chr '}' || b = chr '*'

/-- The binary encoding of one byte. -/
def encodeByte (b : Byte) : List Byte := if isEscaped b then [chr '}', b ^^^ 0x20] else [b]

/-- The binary encoding of a string. -/
def encodeBinary (d : List Byte) : List Byte := d.flatMap encodeByte

theorem encodeByte_ne_zero {b : Byte} (hb : b ≠ 0#8) : 0#8 ∉ encodeByte b := by
  unfold encodeByte
  split_ifs with h
  · have hx : b ^^^ 0x20 ≠ 0#8 := by
      unfold isEscaped at h
      simp only [Bool.or_eq_true, decide_eq_true_eq] at h
      rcases h with ((rfl | rfl) | rfl) | rfl <;> decide
    simp only [List.mem_cons, List.not_mem_nil, or_false, not_or]
    exact ⟨by decide, Ne.symm hx⟩
  · simpa using Ne.symm hb

theorem zero_not_mem_encodeBinary {d : List Byte} (hd : 0#8 ∉ d) : 0#8 ∉ encodeBinary d := by
  rw [encodeBinary, List.mem_flatMap]
  rintro ⟨b, hb, h⟩
  exact encodeByte_ne_zero (fun h0 => hd (h0 ▸ hb)) h

theorem length_le_encodeBinary (d : List Byte) : d.length ≤ (encodeBinary d).length := by
  induction d with
  | nil => exact le_rfl
  | cons b d ih =>
    have hb : 1 ≤ (encodeByte b).length := by
      unfold encodeByte
      split_ifs <;> simp
    rw [encodeBinary, List.flatMap_cons, List.length_append, List.length_cons]
    rw [encodeBinary] at ih
    omega

/-- A character that is neither `*` nor `}` stands for itself. -/
theorem decodeRspBinary_literal {cap dstLen : Nat} {c : Byte} (tail : List Byte)
    {dst dst' : CharArray cap} (hroom : dst.data.length < dstLen) (hstar : c ≠ chr '*')
    (hbrace : c ≠ chr '}') (hpush : dst.push c = .ok dst') :
    decodeRspBinary dstLen (c :: tail) dst = decodeRspBinary dstLen tail dst' := by
  conv_lhs => unfold decodeRspBinary
  rw [if_neg (by omega), if_neg hstar, if_neg hbrace, hpush]
  rfl

/-- A character after `}` is decoded by flipping bit 5. -/
theorem decodeRspBinary_escape {cap dstLen : Nat} {e : Byte} (tail : List Byte)
    {dst dst' : CharArray cap} (hroom : dst.data.length < dstLen)
    (hpush : dst.push (e ^^^ 0x20) = .ok dst') :
    decodeRspBinary dstLen (chr '}' :: e :: tail) dst = decodeRspBinary dstLen tail dst' := by
  conv_lhs => unfold decodeRspBinary
  rw [if_neg (by omega), if_neg (by decide), if_pos rfl]
  simp only [hpush]
  rfl

/-- An encoded byte is decoded while there is room for it. -/
theorem decodeRspBinary_encodeByte {cap dstLen : Nat} (b : Byte) (tail : List Byte)
    (dst : CharArray cap) (hroom : dst.data.length < dstLen) (hcap : dstLen ≤ cap) :
    ∃ dst' : CharArray cap, dst'.data = dst.data ++ [b] ∧
      decodeRspBinary dstLen (encodeByte b ++ tail) dst = decodeRspBinary dstLen tail dst' := by
  obtain ⟨dst', hpush, hdata⟩ := dst.push_of_lt b (by omega)
  refine ⟨dst', hdata, ?_⟩
  unfold encodeByte
  split_ifs with h
  · have hx : b ^^^ 0x20 ^^^ 0x20 = b := by
      rw [BitVec.xor_assoc, BitVec.xor_self, BitVec.xor_zero]
    exact decodeRspBinary_escape tail hroom (by rw [hx, hpush])
  · unfold isEscaped at h
    simp only [Bool.or_eq_true, decide_eq_true_eq, not_or] at h
    exact decodeRspBinary_literal tail hroom h.2 h.1.2 hpush

/-- Encoded bytes are decoded while there is room for them. -/
theorem decodeRspBinary_encodeBinary {cap : Nat} (dstLen : Nat) (d tail : List Byte)
    (dst : CharArray cap) (hroom : dst.data.length + d.length ≤ dstLen) (hcap : dstLen ≤ cap) :
    ∃ dst' : CharArray cap, dst'.data = dst.data ++ d ∧
      decodeRspBinary dstLen (encodeBinary d ++ tail) dst = decodeRspBinary dstLen tail dst' := by
  induction d generalizing dst with
  | nil => exact ⟨dst, by simp, rfl⟩
  | cons b d ih =>
    rw [List.length_cons] at hroom
    obtain ⟨dst₁, hdata₁, hrun₁⟩ := decodeRspBinary_encodeByte b (encodeBinary d ++ tail) dst
      (by omega) hcap
    obtain ⟨dst₂, hdata₂, hrun₂⟩ := ih dst₁ (by rw [hdata₁]; simp; omega)
    refine ⟨dst₂, by simp [hdata₂, hdata₁], ?_⟩
    rw [encodeBinary, List.flatMap_cons, List.append_assoc]
    exact hrun₁.trans hrun₂

/-- A whole string of the announced length is decoded. -/
theorem decodeRspBinary_of_length_eq {cap : Nat} {d : List Byte} (hcap : d.length ≤ cap) :
    ∃ dst : CharArray cap, decodeRspBinary d.length (encodeBinary d) (CharArray.empty cap) =
      .ok (some dst) ∧ dst.data = d := by
  obtain ⟨dst, hdata, hrun⟩ := decodeRspBinary_encodeBinary d.length d []
    (CharArray.empty cap) (by simp [CharArray.empty]) hcap
  rw [List.append_nil] at hrun
  have hd : dst.data = d := by simpa [CharArray.empty] using hdata
  refine ⟨dst, ?_, hd⟩
  rw [hrun, decodeRspBinary, if_pos (by rw [hd])]

/-- A string that is shorter than announced is refused. -/
theorem decodeRspBinary_of_length_lt {cap dstLen : Nat} {d : List Byte} (hlt : d.length < dstLen)
    (hcap : dstLen ≤ cap) :
    decodeRspBinary dstLen (encodeBinary d) (CharArray.empty cap) = .ok none := by
  obtain ⟨dst, hdata, hrun⟩ := decodeRspBinary_encodeBinary dstLen d []
    (CharArray.empty cap) (by simp [CharArray.empty]; omega) hcap
  rw [List.append_nil] at hrun
  have hd : dst.data = d := by simpa [CharArray.empty] using hdata
  rw [hrun, decodeRspBinary, if_neg (by rw [hd]; omega)]

/-! ### The `X` packet -/

theorem dispatch_X (fuel : Nat) (cb : GdbCallbacks x σ) {w : World x σ}
    (h : byteAt w.stub.packetBuffer 0 = chr 'X') :
    dispatch fuel cb w = andReturnZero (handleWriteMemoryBinary cb w) := by
  unfold dispatch
  simp only [h]
  rfl

/-- What `handle_write_memory_binary` does after the packet has been cut at its separators. -/
theorem gdbStubProcess_X (fuel : Nat) (cb : GdbCallbacks x σ) {w : World x σ}
    {addr len d rest : List Byte} (hconn : w.stub.connected)
    (hfail : w.stub.consecutiveFailures < 50) (haddr : ∀ c ∈ addr, isxdigit c)
    (hlen : ∀ c ∈ len, isxdigit c)
    (hbound : (writePacket 'X' addr len (encodeBinary d)).length < gdbBufferSize)
    (hin : Framed (writePacket 'X' addr len (encodeBinary d)) rest w.stub.input)
    (hn : hexValue len = d.length) :
    ∃ s' buf, Received w.stub (writePacket 'X' addr len (encodeBinary d)) rest s' ∧
      s'.connected = true ∧
      let w₁ := ({ w with stub := s' } : World x σ).setBuffer buf
      let a : GdbAddr x := BitVec.ofNat x.bits (hexValue addr)
      gdbStubProcess fuel cb w =
        if d = [] then .ok (0, w₁.send (ascii "E02"))
        else if 0#8 ∈ d then .ok (0, w₁.send (ascii "E03"))
        else .ok (0, (w₁.withTarget (writeBytes cb true a 0 d w.toTarget)).send (ascii "OK")) := by
  obtain ⟨s', hrecv, hproc⟩ := gdbStubProcess_framed fuel cb hconn hfail hin hbound
  obtain ⟨comma, colon, hcomma, hcolon, -, -, haddr', hlen', hdata⟩ :=
    header_of_hasBytes (x := x) hrecv.bytes haddr hlen
  have hconn' : s'.connected = true := by
    rw [hrecv.eq]
    exact hconn
  have hle := length_le_encodeBinary d
  simp only [writePacket, List.length_cons, List.length_append, gdbBufferSize] at hbound
  -- the length is small enough to survive the conversions
  have hlenval : ((BitVec.ofNat x.bits (hexValue len)).setWidth 32).toNat = d.length := by
    have hx := two_pow_bits_le x
    rw [BitVec.toNat_setWidth, BitVec.toNat_ofNat, hn,
      Nat.mod_eq_of_lt (by omega : d.length < 2 ^ x.bits),
      Nat.mod_eq_of_lt (by omega : d.length < 2 ^ 32)]
  refine ⟨s', setByte (setByte s'.packetBuffer comma 0) colon 0, hrecv, hconn', ?_⟩
  rw [hproc, dispatch_X fuel cb hrecv.bytes.head, handleWriteMemoryBinary]
  simp only [hcomma, hcolon]
  rw [haddr', hlen', hlenval]
  by_cases hempty : d = []
  · rw [if_pos hempty, if_pos (Or.inl (by rw [hempty, List.length_nil]))]
    rfl
  have hpos : 0 < d.length := List.length_pos_iff.mpr hempty
  have hguard : ¬(d.length = 0 ∨ d.length > gdbBufferSize) := by
    rw [gdbBufferSize]
    omega
  rw [if_neg hempty, if_neg hguard]
  by_cases hzero : 0#8 ∈ d
  · -- the string ends at the first NUL
    obtain ⟨d₁, d₂, rfl, hd₁⟩ := List.eq_append_cons_of_mem hzero
    have hsplit : encodeBinary (d₁ ++ 0#8 :: d₂) ++ [0#8] =
        (encodeBinary d₁ ++ [0#8]) ++ (encodeBinary d₂ ++ [0#8]) := by
      have h0 : encodeByte 0#8 = [0#8] := by decide
      simp [encodeBinary, h0]
    rw [hsplit] at hdata
    rw [if_pos hzero, cstr_of_hasBytes (hasBytes_append.mp hdata).1 (zero_not_mem_encodeBinary hd₁),
      decodeRspBinary_of_length_lt (by simp) (not_lt.mp (not_or.mp hguard).2)]
    rfl
  · have hcap : d.length ≤ gdbBufferSize := by
      rw [gdbBufferSize]
      omega
    obtain ⟨dst, hdecode, hdst⟩ := decodeRspBinary_of_length_eq hcap
    rw [if_neg hzero, cstr_of_hasBytes hdata (zero_not_mem_encodeBinary hzero), hdecode, ← hconn',
      ← hdst]
    rfl

/-- An `X` packet that announces at least one byte and carries no NUL is carried out. -/
theorem writesExactly_writeMemoryBinary (fuel : Nat) (cb : GdbCallbacks x σ) {w : World x σ}
    {addr len d rest : List Byte} (hconn : w.stub.connected)
    (hfail : w.stub.consecutiveFailures < 50) (haddr : ∀ c ∈ addr, isxdigit c)
    (hlen : ∀ c ∈ len, isxdigit c)
    (hbound : (writePacket 'X' addr len (encodeBinary d)).length < gdbBufferSize)
    (hin : Framed (writePacket 'X' addr len (encodeBinary d)) rest w.stub.input)
    (hn : hexValue len = d.length) (hempty : d ≠ []) (hzero : 0#8 ∉ d) :
    WritesExactly cb w (BitVec.ofNat x.bits (hexValue addr)) d (gdbStubProcess fuel cb w) := by
  obtain ⟨s', buf, hrecv, -, hproc⟩ := gdbStubProcess_X fuel cb hconn hfail haddr hlen hbound hin hn
  rw [hproc, if_neg hempty, if_neg hzero]
  refine writesExactly_of_received hrecv buf _ ?_
  have hle := length_le_encodeBinary d
  simp only [writePacket, List.length_cons, List.length_append, gdbBufferSize] at hbound
  omega

/-- An empty `X` packet and one with a NUL are refused. -/
theorem repliesError_writeMemoryBinary (fuel : Nat) (cb : GdbCallbacks x σ) {w : World x σ}
    {addr len d rest : List Byte} (hconn : w.stub.connected)
    (hfail : w.stub.consecutiveFailures < 50) (haddr : ∀ c ∈ addr, isxdigit c)
    (hlen : ∀ c ∈ len, isxdigit c)
    (hbound : (writePacket 'X' addr len (encodeBinary d)).length < gdbBufferSize)
    (hin : Framed (writePacket 'X' addr len (encodeBinary d)) rest w.stub.input)
    (hn : hexValue len = d.length) (hd : d = [] ∨ 0#8 ∈ d) :
    RepliesError w (gdbStubProcess fuel cb w) := by
  obtain ⟨s', buf, hrecv, -, hproc⟩ := gdbStubProcess_X fuel cb hconn hfail haddr hlen hbound hin hn
  have hbefore : s'.output = w.stub.output ++ w.stub.ack := by rw [hrecv.eq]
  rw [hproc]
  by_cases hempty : d = []
  · rw [if_pos hempty]
    refine ⟨_, ascii "02", rfl, rfl, ?_⟩
    rw [output_send_of_le _ (by decide), ← hbefore]
    rfl
  · rw [if_neg hempty, if_pos (hd.resolve_left hempty)]
    refine ⟨_, ascii "03", rfl, rfl, ?_⟩
    rw [output_send_of_le _ (by decide), ← hbefore]
    rfl

/-! ### Main results -/

/-- `X` and `M` carry out the same write, and nothing else, if and only if the string to be
written is not empty and has no NUL: `X` refuses the others. -/
theorem writeMemoryBinary_and_writeMemory_iff (fuel : Nat) (cb : GdbCallbacks x σ) {w : World x σ}
    {addr len d restX restM inX inM : List Byte} (hconn : w.stub.connected)
    (hfail : w.stub.consecutiveFailures < 50) (haddr : ∀ c ∈ addr, isxdigit c)
    (hlen : ∀ c ∈ len, isxdigit c) (hn : hexValue len = d.length)
    (hboundX : (writePacket 'X' addr len (encodeBinary d)).length < gdbBufferSize)
    (hboundM : (writePacket 'M' addr len (d.flatMap hexByte)).length < gdbBufferSize)
    (hinX : Framed (writePacket 'X' addr len (encodeBinary d)) restX inX)
    (hinM : Framed (writePacket 'M' addr len (d.flatMap hexByte)) restM inM) :
    let a : GdbAddr x := BitVec.ofNat x.bits (hexValue addr)
    (WritesExactly cb w a d (gdbStubProcess fuel cb (w.withInput inX)) ∧
      WritesExactly cb w a d (gdbStubProcess fuel cb (w.withInput inM))) ↔ d ≠ [] ∧ 0#8 ∉ d := by
  intro a
  constructor
  · rintro ⟨hX, -⟩
    by_contra hd
    obtain ⟨w₁, code, hr₁, -, hout₁⟩ := repliesError_writeMemoryBinary fuel cb
      (w := w.withInput inX) hconn hfail haddr hlen hboundX hinX hn (by tauto)
    obtain ⟨w₂, hr₂, -, -, hout₂⟩ := hX
    obtain rfl : w₁ = w₂ := congrArg Prod.snd (Except.ok.inj (hr₁.symm.trans hr₂))
    exact frame_ok_ne_frame_error code (hout₂.symm.trans hout₁)
  · rintro ⟨hempty, hzero⟩
    have hM := writesExactly_writeMemory fuel cb (w := w.withInput inM) hconn hfail haddr hlen
      hboundM hinM (by rw [length_flatMap_hexByte, hn])
    rw [hexPairs_flatMap_hexByte] at hM
    exact ⟨writesExactly_writeMemoryBinary fuel cb (w := w.withInput inX) hconn hfail haddr hlen
      hboundX hinX hn hempty hzero, hM⟩

theorem writeMemoryBinary_and_writeMemory_two :
    let X := writePacket 'X' (ascii "1000") (ascii "2") (encodeBinary [0x41, chr '#'])
    let M := writePacket 'M' (ascii "1000") (ascii "2") ([0x41, chr '#'].flatMap hexByte)
    WritesExactly (byteMemoryCallbacks .x32) (byteMemoryWorld .x32 []) 0x1000 [0x41, chr '#']
        (gdbStubProcess 0 (byteMemoryCallbacks .x32) (byteMemoryWorld .x32 (frame X))) ∧
      WritesExactly (byteMemoryCallbacks .x32) (byteMemoryWorld .x32 []) 0x1000 [0x41, chr '#']
        (gdbStubProcess 0 (byteMemoryCallbacks .x32) (byteMemoryWorld .x32 (frame M))) :=
  (@writeMemoryBinary_and_writeMemory_iff _ _ 0 (byteMemoryCallbacks .x32)
    (byteMemoryWorld .x32 []) (ascii "1000") (ascii "2") _ [] [] _ _ rfl (by decide) (by decide)
    (by decide) (by decide) (by decide) (by decide) (framed_frame_nil (by decide))
    (framed_frame_nil (by decide))).mpr
    ⟨by decide, by decide⟩

/-- The string of one NUL: `X` replies `E03`. -/
theorem not_writesExactly_writeMemoryBinary_zero :
    let X := writePacket 'X' (ascii "1000") (ascii "1") (encodeBinary [0x00])
    let M := writePacket 'M' (ascii "1000") (ascii "1") ([0x00].flatMap hexByte)
    ¬(WritesExactly (byteMemoryCallbacks .x32) (byteMemoryWorld .x32 []) 0x1000 [0x00]
        (gdbStubProcess 0 (byteMemoryCallbacks .x32) (byteMemoryWorld .x32 (frame X))) ∧
      WritesExactly (byteMemoryCallbacks .x32) (byteMemoryWorld .x32 []) 0x1000 [0x00]
        (gdbStubProcess 0 (byteMemoryCallbacks .x32) (byteMemoryWorld .x32 (frame M)))) := by
  intro X M h
  obtain ⟨⟨w₂, hr₂, -, -, hout₂⟩, -⟩ := h
  obtain ⟨w₁, code, hr₁, -, hout₁⟩ := @repliesError_writeMemoryBinary _ _ 0
    (byteMemoryCallbacks .x32) (byteMemoryWorld .x32 (frame X)) (ascii "1000") (ascii "1") [0x00]
    [] rfl (by decide) (by decide) (by decide) (by decide)
    (framed_frame_nil (by decide)) (by decide) (Or.inr (by decide))
  obtain rfl : w₁ = w₂ := congrArg Prod.snd (Except.ok.inj (hr₁.symm.trans hr₂))
  exact frame_ok_ne_frame_error code (hout₂.symm.trans hout₁)

/-- `M` writes exactly its data, refuses data of the wrong length and reads no position past the
packet if and only if the data has two characters for every byte announced: the length of the
data is never looked at. -/
theorem writeMemory_iff (fuel : Nat) (cb : GdbCallbacks x σ) {w : World x σ}
    {addr len data rest : List Byte} (hconn : w.stub.connected)
    (hfail : w.stub.consecutiveFailures < 50) (haddr : ∀ c ∈ addr, isxdigit c)
    (hlen : ∀ c ∈ len, isxdigit c) (hbound : (writePacket 'M' addr len data).length < gdbBufferSize)
    (hin : Framed (writePacket 'M' addr len data) rest w.stub.input) :
    let r := gdbStubProcess fuel cb w
    ((data.length = 2 * hexValue len ∧ (∀ c ∈ data, isxdigit c) →
        WritesExactly cb w (BitVec.ofNat x.bits (hexValue addr)) (hexPairs data) r) ∧
      (data.length ≠ 2 * hexValue len → RepliesError w r) ∧
      ∀ i ∈ dataPositions x (addr.length + len.length + 3)
        (BitVec.ofNat x.bits (hexValue len)).toNat, i < (writePacket 'M' addr len data).length) ↔
      data.length = 2 * hexValue len := by
  intro r
  constructor
  · rintro ⟨-, hrefuse, -⟩
    by_contra hne
    exact not_repliesError_writeMemory fuel cb hconn hfail haddr hlen hbound hin (hrefuse hne)
  · intro heq
    refine ⟨fun _ => writesExactly_writeMemory fuel cb hconn hfail haddr hlen hbound hin heq,
      fun hne => absurd heq hne, fun i hi => ?_⟩
    simp only [writePacket, List.length_cons, List.length_append, gdbBufferSize] at hbound ⊢
    simp only [dataPositions, List.mem_flatMap, List.mem_range, List.mem_cons, List.not_mem_nil,
      or_false] at hi
    obtain ⟨k, hk, hi⟩ := hi
    have hx := two_pow_bits_le x
    rw [BitVec.toNat_ofNat, Nat.mod_eq_of_lt (by omega)] at hk
    obtain ⟨hhigh, hlow⟩ := dataIndex_eq x (addr.length + len.length + 3) (i := k) (by omega)
    rcases hi with rfl | rfl <;> omega

theorem writeMemory_two :
    let M := writePacket 'M' (ascii "1000") (ascii "2") (ascii "4a23")
    let r := gdbStubProcess 0 (byteMemoryCallbacks .x32) (byteMemoryWorld .x32 (frame M))
    WritesExactly (byteMemoryCallbacks .x32) (byteMemoryWorld .x32 (frame M)) 0x1000 [0x4a, 0x23] r ∧
      ∀ i ∈ dataPositions .x32 8 2, i < M.length := by
  intro M r
  obtain ⟨hwrite, -, hread⟩ := (@writeMemory_iff _ _ 0 (byteMemoryCallbacks .x32)
    (byteMemoryWorld .x32 (frame M)) (ascii "1000") (ascii "2") (ascii "4a23") [] rfl (by decide)
    (by decide) (by decide) (by decide) (framed_frame_nil (by decide))).mpr (by decide)
  exact ⟨hwrite ⟨by decide, by decide⟩, hread⟩

/-- One byte announced and no data: `M` writes a byte made of what follows in the buffer. -/
theorem not_repliesError_writeMemory_short :
    let M := writePacket 'M' (ascii "1000") (ascii "1") []
    ¬RepliesError (byteMemoryWorld .x32 (frame M))
      (gdbStubProcess 0 (byteMemoryCallbacks .x32) (byteMemoryWorld .x32 (frame M))) :=
  @not_repliesError_writeMemory _ _ 0 (byteMemoryCallbacks .x32) _ (ascii "1000") (ascii "1") []
    [] rfl (by decide) (by decide) (by decide)
    (by decide) (framed_frame_nil (by decide))

end Rv32Gdb
