import Rv32Gdb.Equiv.Buffer
import Rv32Gdb.Stub.Process

/-!
# Receiving a packet

`Framed p rest input` says that the next packet in the client's bytes is `p`, with a correct
checksum.  `receivePacket_framed`: the packet is then received into the buffer, terminated and
acknowledged (`Received`), whatever the buffer held before, and `gdbStubProcess_framed`:
`gdbStubProcess` goes on to dispatch on it.  `receivePacket_cases` is the converse: whatever the
client sends, a call either fails, takes a Ctrl-C or leaves a terminated packet in the buffer.
-/

namespace Rv32Gdb

variable {x : Xlen} {σ : Type}

/-! ### Framed packets -/

/-- The next packet in `input` is `p`: bytes that `receive_packet` skips, then `$p#` and two
digits of the right checksum; `rest` follows. -/
def Framed (p rest input : List Byte) : Prop :=
  ∃ skipped hi lo, input = skipped ++ chr '$' :: p ++ chr '#' :: hi :: lo :: rest ∧
    (∀ c ∈ skipped, c ≠ chr '$' ∧ c ≠ 0x03) ∧ chr '#' ∉ p ∧ hexPair hi lo = calculateChecksum p

/-- What `receive_packet` writes for a packet with a correct checksum. -/
def GdbStub.ack (s : GdbStub) : List (List Byte) := if s.noAckMode then [] else [[chr '+']]

/-- What `receive_packet` writes for a packet with a wrong checksum. -/
def GdbStub.nack (s : GdbStub) : List (List Byte) := if s.noAckMode then [] else [[chr '-']]

/-- `s'` is the stub after `p` has been received in `s`. -/
structure Received (s : GdbStub) (p rest : List Byte) (s' : GdbStub) : Prop where
  bytes : HasBytes s'.packetBuffer 0 (p ++ [0#8])
  eq : s' = { s with
    packetBuffer := s'.packetBuffer
    packetSize := p.length
    input := rest
    consecutiveFailures := 0
    output := s.output ++ s.ack }

/-- A frame is a framed packet. -/
theorem framed_frame {p : List Byte} (hp : chr '#' ∉ p) (rest : List Byte) :
    Framed p rest (frame p ++ rest) :=
  ⟨[], intToHex (calculateChecksum p >>> 4), intToHex (calculateChecksum p &&& 0xF),
    by simp [frame, hexByte], by simp, hp, hexPair_hexByte _⟩

theorem framed_frame_nil {p : List Byte} (hp : chr '#' ∉ p) : Framed p [] (frame p) := by
  have := framed_frame hp []
  rwa [List.append_nil] at this

/-! ### Stretches of the input -/

theorem receiveLoop_skip (s : GdbStub) (skipped rest : List Byte)
    (h : ∀ c ∈ skipped, c ≠ chr '$' ∧ c ≠ 0x03) :
    receiveLoop s .waitStart (skipped ++ rest) = receiveLoop s .waitStart rest := by
  induction skipped with
  | nil => rfl
  | cons c skipped ih =>
    obtain ⟨h1, h2⟩ := h c List.mem_cons_self
    rw [List.cons_append, receiveLoop, if_neg h1, if_neg h2]
    exact ih fun c' hc' => h c' (List.mem_cons_of_mem _ hc')

theorem GdbStub.poke_of_lt (s : GdbStub) {i : Nat} (b : Byte) (h : i < gdbBufferSize) :
    s.poke i b = .ok { s with packetBuffer := setByte s.packetBuffer ⟨i, h⟩ b } := dif_pos h

/-- What the buffer keeps of a payload: there is room for the terminator after it. -/
def stored (p : List Byte) : List Byte := p.take (gdbBufferSize - 1)

theorem length_stored_lt (p : List Byte) : (stored p).length < gdbBufferSize := by
  rw [stored, List.length_take]
  exact (Nat.min_le_left _ _).trans_lt (by decide)

theorem stored_of_lt {p : List Byte} (h : p.length < gdbBufferSize) : stored p = p :=
  List.take_of_length_le (by omega)

/-- Payload bytes are stored one after the other while there is room for them. -/
theorem receiveLoop_data (s : GdbStub) {i : Nat} {p : List Byte} (rest : List Byte)
    (hp : chr '#' ∉ p) (hi : i < gdbBufferSize) :
    ∃ buf, receiveLoop s (.readData i) (p ++ rest) =
        receiveLoop { s with packetBuffer := buf }
          (.readData (i + (p.take (gdbBufferSize - 1 - i)).length)) rest ∧
      HasBytes buf i (p.take (gdbBufferSize - 1 - i)) ∧
      ∀ k, k < i ∨ i + (p.take (gdbBufferSize - 1 - i)).length ≤ k →
        byteAt buf k = byteAt s.packetBuffer k := by
  induction p generalizing s i with
  | nil =>
    rw [List.take_nil]
    exact ⟨s.packetBuffer, rfl, hasBytes_nil hi.le, fun _ _ => rfl⟩
  | cons c p ih =>
    rw [List.mem_cons, not_or] at hp
    by_cases hroom : i < gdbBufferSize - 1
    · obtain ⟨m, hm⟩ : ∃ m, gdbBufferSize - 1 - i = m + 1 := ⟨gdbBufferSize - 1 - (i + 1), by omega⟩
      set buf₁ := setByte s.packetBuffer ⟨i, hi⟩ c with hbuf₁
      obtain ⟨buf, hrun, hbytes, hother⟩ := ih { s with packetBuffer := buf₁ } (i := i + 1) hp.2
        (by omega)
      have hm' : gdbBufferSize - 1 - (i + 1) = m := by omega
      rw [hm'] at hrun hbytes hother
      rw [hm, List.take_succ_cons, List.length_cons]
      refine ⟨buf, ?_, ?_, fun k hk => ?_⟩
      · have hindex : i + ((p.take m).length + 1) = i + 1 + (p.take m).length := by omega
        rw [List.cons_append, receiveLoop, if_neg (Ne.symm hp.1), if_pos hroom, s.poke_of_lt c hi,
          hindex, ← hrun]
        rfl
      · have hc : HasBytes buf i [c] := by
          rw [hasBytes_singleton hi, hother i (Or.inl (by omega)), hbuf₁, byteAt_setByte, if_pos rfl]
        exact hasBytes_append.mpr ⟨hc, hbytes⟩
      · rw [hother k (by omega), hbuf₁, byteAt_setByte, if_neg (by simp; omega)]
    · obtain ⟨buf, hrun, hbytes, hother⟩ := ih s hp.2 hi
      have hfull : gdbBufferSize - 1 - i = 0 := by omega
      rw [hfull, List.take_zero] at hrun hbytes hother ⊢
      refine ⟨buf, ?_, hbytes, hother⟩
      rw [List.cons_append, receiveLoop, if_neg (Ne.symm hp.1), if_neg hroom, hrun]

theorem bufferPrefix_of_hasBytes {buf : Fin gdbBufferSize → Byte} {p : List Byte}
    (h : HasBytes buf 0 p) : bufferPrefix buf p.length = p := by
  apply List.ext_getElem (by simp [bufferPrefix])
  intro k h1 h2
  have := h.2 k h2
  rw [Nat.zero_add] at this
  simpa [bufferPrefix] using this

/-- The two digits of the checksum decide. -/
theorem receiveLoop_digits (s : GdbStub) (expected hi lo : Byte) (rest : List Byte) :
    receiveLoop s (.readChecksum 0 expected 0) (hi :: lo :: rest) =
      if hexPair hi lo = expected then
        .ok (true, { s with
          input := rest, consecutiveFailures := 0, output := s.output ++ s.ack })
      else
        .ok (false, { s with
          input := rest
          consecutiveFailures := s.consecutiveFailures + 1
          output := s.output ++ s.nack }) := by
  have hdigits : (((0 : Byte) <<< 4 ||| hexToInt hi) <<< 4) ||| hexToInt lo = hexPair hi lo := by
    simp [hexPair]
  simp only [receiveLoop, Nat.zero_add, Nat.reduceEqDiff, if_false, if_true]
  by_cases h : hexPair hi lo = expected
  · rw [if_pos h, if_neg (not_not.mpr (hdigits.trans h))]
    unfold GdbStub.ack GdbStub.write
    split_ifs <;> simp
  · rw [if_neg h, if_pos fun h' => h (hdigits.symm.trans h')]
    unfold GdbStub.nack GdbStub.write
    split_ifs <;> simp

/-! ### Whole packets -/

/-- The first frame in `input`, whatever its checksum: bytes that `receive_packet` skips, then `$p#`
and two characters; `rest` follows. -/
structure FirstFrame (skipped p : List Byte) (hi lo : Byte) (rest input : List Byte) : Prop where
  eq : input = skipped ++ chr '$' :: p ++ chr '#' :: hi :: lo :: rest
  skipped : ∀ c ∈ skipped, c ≠ chr '$' ∧ c ≠ 0x03
  payload : chr '#' ∉ p

/-- The stub after a packet with a correct checksum. -/
def GdbStub.accepted (s : GdbStub) (buf : Fin gdbBufferSize → Byte) (n : Nat) (rest : List Byte) :
    GdbStub :=
  { s with
    packetBuffer := buf
    packetSize := n
    input := rest
    consecutiveFailures := 0
    output := s.output ++ s.ack }

/-- The stub after a packet with a wrong checksum. -/
def GdbStub.refused (s : GdbStub) (buf : Fin gdbBufferSize → Byte) (n : Nat) (rest : List Byte) :
    GdbStub :=
  { s with
    packetBuffer := buf
    packetSize := n
    input := rest
    consecutiveFailures := s.consecutiveFailures + 1
    output := s.output ++ s.nack }

/-- What becomes of a frame: the checksum of what the buffer keeps of the payload decides. -/
theorem receivePacket_firstFrame {s : GdbStub} {skipped p rest : List Byte} {hi lo : Byte}
    (h : FirstFrame skipped p hi lo rest s.input) :
    ∃ buf, HasBytes buf 0 (stored p ++ [0#8]) ∧
      (∀ k, (stored p).length < k → byteAt buf k = byteAt s.packetBuffer k) ∧
      receivePacket s =
        if hexPair hi lo = calculateChecksum (stored p) then
          .ok (true, s.accepted buf (stored p).length rest)
        else .ok (false, s.refused buf (stored p).length rest) := by
  obtain ⟨buf, hrun, hbytes, hother⟩ := receiveLoop_data s (i := 0)
    (chr '#' :: hi :: lo :: rest) h.payload (by decide)
  rw [Nat.sub_zero, Nat.zero_add, ← stored] at hrun hother
  rw [Nat.sub_zero, ← stored] at hbytes
  have hlen := length_stored_lt p
  set buf' := setByte buf ⟨(stored p).length, hlen⟩ 0#8 with hbuf'
  have hp' : HasBytes buf' 0 (stored p) := hbytes.setByte _ _ (Or.inr (by simp))
  refine ⟨buf', ?_, fun k hk => ?_, ?_⟩
  · refine hasBytes_append.mpr ⟨hp', (hasBytes_singleton (by simpa using hlen)).mpr ?_⟩
    rw [hbuf', byteAt_setByte, if_pos (by simp)]
  · rw [hbuf', byteAt_setByte, if_neg (by simpa using hk.ne'), hother k (Or.inr hk.le)]
  · rw [receivePacket, h.eq, List.append_assoc, receiveLoop_skip _ _ _ h.skipped, List.cons_append,
      receiveLoop, if_pos rfl, hrun, receiveLoop, if_pos rfl, GdbStub.poke_of_lt _ _ hlen]
    show receiveLoop _ (.readChecksum 0
      (calculateChecksum (bufferPrefix buf' (stored p).length)) 0) _ = _
    rw [bufferPrefix_of_hasBytes hp', receiveLoop_digits]
    rfl

/-- A correctly framed packet is received, whatever the buffer held before. -/
theorem receivePacket_framed {s : GdbStub} {p rest : List Byte} (hin : Framed p rest s.input)
    (hlen : p.length < gdbBufferSize) :
    ∃ s', receivePacket s = .ok (true, s') ∧ Received s p rest s' := by
  obtain ⟨skipped, hi, lo, hinput, hskip, hp, hsum⟩ := hin
  obtain ⟨buf, hbytes, -, hrecv⟩ := receivePacket_firstFrame ⟨hinput, hskip, hp⟩
  rw [stored_of_lt hlen] at hbytes hrecv
  rw [if_pos hsum] at hrecv
  exact ⟨_, hrecv, hbytes, rfl⟩

/-- A connected stub dispatches on the packet it has received. -/
theorem gdbStubProcess_framed {w : World x σ} {p rest : List Byte} (fuel : Nat)
    (cb : GdbCallbacks x σ) (hconn : w.stub.connected) (hfail : w.stub.consecutiveFailures < 50)
    (hin : Framed p rest w.stub.input) (hlen : p.length < gdbBufferSize) :
    ∃ s', Received w.stub p rest s' ∧
      gdbStubProcess fuel cb w = dispatch fuel cb { w with stub := s' } := by
  obtain ⟨s', hrecv, h⟩ := receivePacket_framed hin hlen
  refine ⟨s', h, ?_⟩
  rw [gdbStubProcess, hconn, if_neg (by simp), if_neg (by omega), hrecv]
  rfl

/-! ### Sending -/

theorem length_frame (data : List Byte) : (frame data).length = data.length + 4 := by
  simp [frame, length_hexByte]

/-- A payload of at most `4091` characters is sent. -/
theorem sendPacket_of_le {s : GdbStub} {data : List Byte} (h : data.length ≤ 4091) :
    sendPacket s data = s.write (frame data) := by
  rw [sendPacket, if_pos]
  rw [length_frame, gdbBufferSize]
  omega

/-- A longer payload is dropped. -/
theorem sendPacket_of_lt {s : GdbStub} {data : List Byte} (h : 4091 < data.length) :
    sendPacket s data = s := by
  rw [sendPacket, if_neg]
  rw [length_frame, gdbBufferSize]
  omega

theorem output_send_of_le (w : World x σ) {data : List Byte} (h : data.length ≤ 4091) :
    (w.send data).stub.output = w.stub.output ++ [frame data] := by
  rw [World.send, sendPacket_of_le h]
  rfl

theorem World.toTarget_send (w : World x σ) (data : List Byte) :
    (w.send data).toTarget = w.toTarget := rfl

/-! ### Any input -/

/-- The buffer holds a whole packet and its terminator. -/
def GdbStub.Terminated (s : GdbStub) : Prop :=
  s.packetSize < gdbBufferSize ∧ byteAt s.packetBuffer s.packetSize = 0#8

/-- What a local state of `receive_packet` guarantees about the buffer. -/
def RecvState.Ok (s : GdbStub) : RecvState → Prop
  | .waitStart => True
  | .readData index => index < gdbBufferSize
  | .readChecksum index _ _ => index < 2 ∧ s.Terminated

theorem receiveLoop_cases (input : List Byte) (s : GdbStub) (st : RecvState) (h : st.Ok s) :
    ∃ received s', receiveLoop s st input = .ok (received, s') ∧
      (received → s'.packet = [0x03] ∨ s'.Terminated) := by
  induction input generalizing s st with
  | nil => exact ⟨false, _, by cases st <;> rfl, by simp⟩
  | cons c rest ih =>
    cases st with
    | waitStart =>
      by_cases hc : c = chr '$'
      · rw [receiveLoop, if_pos hc]
        exact ih s _ (show 0 < gdbBufferSize by decide)
      · by_cases h3 : c = 0x03
        · rw [receiveLoop, if_neg hc, if_pos h3, s.poke_of_lt _ (by decide)]
          refine ⟨true, _, rfl, fun _ => Or.inl ?_⟩
          exact congrArg (· :: []) (byteAt_setByte s.packetBuffer ⟨0, by decide⟩ _ 0)
        · rw [receiveLoop, if_neg hc, if_neg h3]
          exact ih s _ trivial
    | readData index =>
      have hi : index < gdbBufferSize := h
      by_cases hc : c = chr '#'
      · rw [receiveLoop, if_pos hc, s.poke_of_lt _ hi]
        refine ih _ _ ⟨by decide, hi, ?_⟩
        exact (byteAt_setByte _ _ _ _).trans (if_pos rfl)
      · by_cases hroom : index < gdbBufferSize - 1
        · rw [receiveLoop, if_neg hc, if_pos hroom, s.poke_of_lt _ hi]
          exact ih _ _ (show index + 1 < gdbBufferSize by omega)
        · rw [receiveLoop, if_neg hc, if_neg hroom]
          exact ih _ _ hi
    | readChecksum index expected received =>
      obtain ⟨hindex, hterm⟩ := h
      simp only [receiveLoop]
      split_ifs
      all_goals first
        | exact ⟨_, _, rfl, fun _ => Or.inr hterm⟩
        | exact ih _ _ ⟨by omega, hterm⟩

/-- A call of `receive_packet` takes a Ctrl-C, leaves a terminated packet or fails. -/
theorem receivePacket_cases (s : GdbStub) :
    ∃ received s', receivePacket s = .ok (received, s') ∧
      (received → s'.packet = [0x03] ∨ s'.Terminated) :=
  receiveLoop_cases _ s _ trivial

/-- The first character of a packet is in front of the buffer. -/
theorem byteAt_of_head?_packet {s : GdbStub} {c : Byte} (h : s.packet.head? = some c) :
    byteAt s.packetBuffer 0 = c := by
  cases hsize : s.packetSize with
  | zero =>
    rw [GdbStub.packet, hsize] at h
    cases h
  | succ k =>
    rw [GdbStub.packet, hsize, bufferPrefix, List.range_succ_eq_map] at h
    exact Option.some.inj h

/-- The command of a received packet is its first character. -/
theorem head?_packet {s s' : GdbStub} (hrecv : receivePacket s = .ok (true, s'))
    (hzero : byteAt s'.packetBuffer 0 ≠ 0#8) :
    s'.packet.head? = some (byteAt s'.packetBuffer 0) := by
  obtain ⟨received, s'', hrecv', hcases⟩ := receivePacket_cases s
  obtain ⟨rfl, rfl⟩ := Prod.mk.inj (Except.ok.inj (hrecv.symm.trans hrecv'))
  rcases hcases rfl with hint | ⟨-, hterm⟩
  · have hhead : s'.packet.head? = some 0x03 := by rw [hint, List.head?_cons]
    rw [hhead, byteAt_of_head?_packet hhead]
  · cases hsize : s'.packetSize with
    | zero =>
      rw [hsize] at hterm
      exact absurd hterm hzero
    | succ k =>
      rw [GdbStub.packet, hsize, bufferPrefix, List.range_succ_eq_map]
      rfl

end Rv32Gdb
