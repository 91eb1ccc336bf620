import Rv32Gdb.Equiv.Replies

/-!
# Streams of packets

`receivePackets_stream`: what `send_packet` writes, `receive_packet` reads, packet by packet and
whatever stands between the frames.  For arbitrary bytes, `receivesOnlyFrames_iff` says when what is
received is what was sent, and `receivesWhole_iff` that a payload of the advertised size is received
only if it fits the buffer.
-/

namespace Rv32Gdb

variable {x : Xlen} {σ : Type}

theorem packet_accepted (s : GdbStub) {buf : Fin gdbBufferSize → Byte} {p : List Byte}
    (rest : List Byte) (h : HasBytes buf 0 p) : (s.accepted buf p.length rest).packet = p :=
  bufferPrefix_of_hasBytes h

/-! ### Round trip -/

/-- A payload that `send_packet` is called with, and what precedes its frame. -/
structure SentPacket where
  noise : List Byte
  payload : List Byte
  noise_ne : ∀ c ∈ noise, c ≠ chr '$' ∧ c ≠ 0x03
  nul_notMem : 0#8 ∉ payload
  hash_notMem : chr '#' ∉ payload
  length_le : payload.length ≤ 4091

/-- The noise, and what `send_packet` writes for the payload. -/
def SentPacket.bytes (p : SentPacket) : List Byte :=
  p.noise ++ (sendPacket GdbStub.init p.payload).output.flatten

/-- The bytes of some packets, one after the other. -/
def streamOf (ps : List SentPacket) : List Byte := ps.flatMap SentPacket.bytes

/-- Calls of `receive_packet` in a row: what each returns, and the stub after it. -/
def receivePackets : Nat → GdbStub → Result (List (Bool × GdbStub))
  | 0, _ => .ok []
  | n + 1, s => do
    let r ← receivePacket s
    let rs ← receivePackets n r.2
    .ok (r :: rs)

/-- The `n`-th of the calls that began with the stub `s` has delivered `p`, with `rest` still to be
read. -/
structure Delivers (s : GdbStub) (p : List Byte) (n : Nat) (rest : List Byte)
    (r : Bool × GdbStub) : Prop where
  success : r.1
  packet : r.2.packet = p
  text : cstr r.2.packetBuffer 0 = p
  packetSize : r.2.packetSize = p.length
  input : r.2.input = rest
  consecutiveFailures : r.2.consecutiveFailures = 0
  output : r.2.output = s.output ++ if s.noAckMode then [] else List.replicate n [chr '+']

theorem SentPacket.framed (p : SentPacket) (rest : List Byte) :
    Framed p.payload rest (p.bytes ++ rest) := by
  refine ⟨p.noise, intToHex (calculateChecksum p.payload >>> 4),
    intToHex (calculateChecksum p.payload &&& 0xF), ?_, p.noise_ne, p.hash_notMem,
    hexPair_hexByte _⟩
  rw [SentPacket.bytes, sendPacket_of_le p.length_le]
  simp [GdbStub.write, GdbStub.init, frame, hexByte]

theorem delivers_of_received {s s' : GdbStub} {p : SentPacket} {rest : List Byte}
    (h : Received s p.payload rest s') : Delivers s p.payload 1 rest (true, s') where
  success := rfl
  packet := packet_of_received h
  text := cstr_of_hasBytes h.bytes p.nul_notMem
  packetSize := by rw [h.eq]
  input := by rw [h.eq]
  consecutiveFailures := by rw [h.eq]
  output := by
    rw [h.eq]
    rfl

/-- A later call, counted from the first one. -/
theorem Delivers.of_received {s s' : GdbStub} {p q rest rest' : List Byte} {n : Nat}
    {r : Bool × GdbStub} (h : Received s p rest s') (hr : Delivers s' q n rest' r) :
    Delivers s q (n + 1) rest' r := by
  refine ⟨hr.success, hr.packet, hr.text, hr.packetSize, hr.input, hr.consecutiveFailures, ?_⟩
  rw [hr.output, h.eq]
  simp only
  unfold GdbStub.ack
  split_ifs
  · simp
  · rw [List.append_assoc, List.replicate_succ]
    rfl

/-- What `send_packet` writes is received, packet by packet. -/
theorem receivePackets_stream (s : GdbStub) (ps : List SentPacket) (rest : List Byte)
    (hin : s.input = streamOf ps ++ rest) :
    ∃ rs, receivePackets ps.length s = .ok rs ∧ rs.length = ps.length ∧
      ∀ i (hi : i < ps.length) (hr : i < rs.length),
        Delivers s ps[i].payload (i + 1) (streamOf (ps.drop (i + 1)) ++ rest) rs[i] := by
  induction ps generalizing s with
  | nil => exact ⟨[], rfl, rfl, nofun⟩
  | cons p ps ih =>
    have hframed : Framed p.payload (streamOf ps ++ rest) s.input := by
      have hcons : streamOf (p :: ps) = p.bytes ++ streamOf ps := List.flatMap_cons
      rw [hin, hcons, List.append_assoc]
      exact p.framed _
    obtain ⟨s', hrecv, h⟩ := receivePacket_framed hframed
      (p.length_le.trans_lt (by decide))
    obtain ⟨rs, hrun, hlen, hrs⟩ := ih s' (by rw [h.eq])
    refine ⟨(true, s') :: rs, ?_, by rw [List.length_cons, hlen, List.length_cons], ?_⟩
    · rw [List.length_cons, receivePackets, hrecv]
      show (do let rs ← receivePackets ps.length s'; Except.ok ((true, s') :: rs)) = _
      rw [hrun]
      rfl
    · rintro (_ | i) hi hr
      · exact delivers_of_received h
      · exact (hrs i (Nat.lt_of_succ_lt_succ hi) (Nat.lt_of_succ_lt_succ hr)).of_received h

/-- Two packets, with an acknowledgement in between. -/
theorem receivePackets_two :
    ∃ rs, receivePackets 2 { GdbStub.init with
        input := frame (ascii "g") ++ chr '+' :: frame (ascii "$m0,4") ++ [chr '$'] } = .ok rs ∧
      rs.map (fun r => r.2.packet) = [ascii "g", ascii "$m0,4"] := by
  obtain ⟨rs, hrun, hlen, hrs⟩ := receivePackets_stream
    { GdbStub.init with
      input := frame (ascii "g") ++ chr '+' :: frame (ascii "$m0,4") ++ [chr '$'] }
    [⟨[], ascii "g", by decide, by decide, by decide, by decide⟩,
      ⟨[chr '+'], ascii "$m0,4", by decide, by decide, by decide, by decide⟩] [chr '$']
    (by decide +kernel)
  obtain ⟨r₁, r₂, rfl⟩ := List.length_eq_two.mp hlen
  have h₁ : r₁.2.packet = ascii "g" := (hrs 0 (by decide) (by simp)).packet
  have h₂ : r₂.2.packet = ascii "$m0,4" := (hrs 1 (by decide) (by simp)).packet
  refine ⟨_, hrun, ?_⟩
  rw [List.map_cons, List.map_singleton, h₁, h₂]

/-! ### Arbitrary bytes -/

/-- The first byte that is not skipped is a Ctrl-C. -/
def TakesInterrupt (input : List Byte) : Prop :=
  ∃ skipped rest, input = skipped ++ 0x03 :: rest ∧ ∀ c ∈ skipped, c ≠ chr '$' ∧ c ≠ 0x03

theorem calculateChecksum_eq (p : List Byte) (v : Nat) :
    p.foldl (· + ·) (BitVec.ofNat 8 v) = BitVec.ofNat 8 (v + (p.map BitVec.toNat).sum) := by
  induction p generalizing v with
  | nil => rfl
  | cons c p ih =>
    have hadd : BitVec.ofNat 8 v + c = BitVec.ofNat 8 (v + c.toNat) := by
      rw [BitVec.ofNat_add, BitVec.ofNat_toNat, BitVec.setWidth_eq]
    rw [List.foldl_cons, hadd, ih, List.map_cons, List.sum_cons, Nat.add_assoc]

/-- The checksum is the sum of the bytes modulo `256`. -/
theorem toNat_calculateChecksum (p : List Byte) :
    (calculateChecksum p).toNat = (p.map BitVec.toNat).sum % 256 := by
  have hsum : calculateChecksum p = BitVec.ofNat 8 (0 + (p.map BitVec.toNat).sum) :=
    calculateChecksum_eq p 0
  rw [hsum, Nat.zero_add, BitVec.toNat_ofNat]

theorem toNat_hexPair (hi lo : Byte) : (hexPair hi lo).toNat = hexValue [hi, lo] := by
  have hhi := toNat_hexToInt_lt hi
  have hlo := toNat_hexToInt_lt lo
  have hval : hexValue [hi, lo] = (hexToInt hi).toNat * 16 + (hexToInt lo).toNat := by
    simp [hexValue]
  have := shiftLeft_or_digit (n := 8) (hexToInt hi) (hexToInt lo) hlo
  rw [BitVec.setWidth_eq] at this
  rw [hexPair, this, hval, BitVec.toNat_add, BitVec.toNat_mul]
  show ((hexToInt hi).toNat * 16 % 256 + (hexToInt lo).toNat) % 256 = _
  omega

/-- The two characters are hex digits, and their value is the sum of the payload. -/
def IsChecksum (p : List Byte) (hi lo : Byte) : Prop :=
  isxdigit hi ∧ isxdigit lo ∧ hexValue [hi, lo] = (p.map BitVec.toNat).sum % 256

theorem isChecksum_iff {p : List Byte} {hi lo : Byte} :
    IsChecksum p hi lo ↔ isxdigit hi ∧ isxdigit lo ∧ hexPair hi lo = calculateChecksum p := by
  rw [IsChecksum, ← BitVec.toNat_inj, toNat_hexPair, toNat_calculateChecksum]

/-- A packet is received only as it was framed: the whole payload, with its checksum. -/
def ReceivesOnlyFrames (s : GdbStub) : Prop :=
  ∀ s', receivePacket s = .ok (true, s') → TakesInterrupt s.input ∨
    ∃ skipped p hi lo rest, FirstFrame skipped p hi lo rest s.input ∧ s'.packet = p ∧
      IsChecksum p hi lo

theorem receiveLoop_readChecksum_short (s : GdbStub) {expected : Byte} {input : List Byte}
    (h : input.length < 2) :
    ∃ s', receiveLoop s (.readChecksum 0 expected 0) input = .ok (false, s') := by
  match input with
  | [] => exact ⟨_, rfl⟩
  | [c] => exact ⟨_, by simp only [receiveLoop]; rfl⟩
  | _ :: _ :: _ =>
    simp only [List.length_cons] at h
    omega

/-- The first byte of an input that is not skipped. -/
theorem exists_first (input : List Byte) :
    (∀ c ∈ input, c ≠ chr '$' ∧ c ≠ 0x03) ∨
      ∃ skipped c tail, input = skipped ++ c :: tail ∧
        (∀ d ∈ skipped, d ≠ chr '$' ∧ d ≠ 0x03) ∧ (c = chr '$' ∨ c = 0x03) := by
  induction input with
  | nil => exact Or.inl nofun
  | cons c input ih =>
    by_cases hc : c = chr '$' ∨ c = 0x03
    · exact Or.inr ⟨[], c, input, rfl, nofun, hc⟩
    rw [not_or] at hc
    rcases ih with hall | ⟨skipped, d, tail, rfl, hskip, hd⟩
    · exact Or.inl (List.forall_mem_cons.mpr ⟨hc, hall⟩)
    · exact Or.inr ⟨c :: skipped, d, tail, rfl, List.forall_mem_cons.mpr ⟨hc, hskip⟩, hd⟩

/-- A call takes a Ctrl-C, comes to a frame or fails. -/
theorem receivePacket_input_cases (s : GdbStub) :
    TakesInterrupt s.input ∨
      (∃ skipped p hi lo rest, FirstFrame skipped p hi lo rest s.input) ∨
      ∃ s', receivePacket s = .ok (false, s') := by
  rcases exists_first s.input with hskip | ⟨skipped, c, tail, hinput, hskip, rfl | rfl⟩
  · refine Or.inr (Or.inr ?_)
    rw [receivePacket, ← List.append_nil s.input, receiveLoop_skip _ _ _ hskip]
    exact ⟨_, rfl⟩
  · refine Or.inr ?_
    by_cases hhash : chr '#' ∈ tail
    · obtain ⟨p, digits, rfl, hp⟩ := List.eq_append_cons_of_mem hhash
      by_cases hshort : digits.length < 2
      · -- the input ends before the checksum does
        obtain ⟨buf, hrun, -⟩ := receiveLoop_data s (i := 0) (chr '#' :: digits) hp (by decide)
        rw [Nat.sub_zero, Nat.zero_add, ← stored] at hrun
        refine Or.inr ?_
        rw [receivePacket, hinput, receiveLoop_skip _ _ _ hskip, receiveLoop, if_pos rfl, hrun,
          receiveLoop, if_pos rfl, GdbStub.poke_of_lt _ _ (length_stored_lt p)]
        exact receiveLoop_readChecksum_short _ hshort
      · obtain ⟨hi, lo, rest, rfl⟩ : ∃ hi lo rest, digits = hi :: lo :: rest := by
          rcases digits with _ | ⟨hi, _ | ⟨lo, rest⟩⟩
          · simp at hshort
          · simp at hshort
          · exact ⟨hi, lo, rest, rfl⟩
        refine Or.inl ⟨skipped, p, hi, lo, rest, ?_, hskip, hp⟩
        rw [hinput, List.append_assoc]
        rfl
    · obtain ⟨buf, hrun, -⟩ := receiveLoop_data s (i := 0) [] hhash (by decide)
      rw [List.append_nil] at hrun
      refine Or.inr ?_
      rw [receivePacket, hinput, receiveLoop_skip _ _ _ hskip, receiveLoop, if_pos rfl, hrun]
      exact ⟨_, rfl⟩
  · exact Or.inl ⟨skipped, tail, hinput, hskip⟩

/-- A prefix without a byte and the byte itself are determined. -/
theorem append_cons_inj {P : Byte → Prop} {a₁ a₂ b₁ b₂ : List Byte} {c₁ c₂ : Byte}
    (h : a₁ ++ c₁ :: b₁ = a₂ ++ c₂ :: b₂) (ha₁ : ∀ c ∈ a₁, P c) (ha₂ : ∀ c ∈ a₂, P c)
    (hc₁ : ¬P c₁) (hc₂ : ¬P c₂) : a₁ = a₂ ∧ c₁ = c₂ ∧ b₁ = b₂ := by
  induction a₁ generalizing a₂ with
  | nil =>
    cases a₂ with
    | nil => exact ⟨rfl, List.cons.inj h⟩
    | cons d a₂ =>
      obtain ⟨rfl, -⟩ := List.cons.inj h
      exact absurd (ha₂ _ List.mem_cons_self) hc₁
  | cons d a₁ ih =>
    cases a₂ with
    | nil =>
      obtain ⟨rfl, -⟩ := List.cons.inj h
      exact absurd (ha₁ _ List.mem_cons_self) hc₂
    | cons e a₂ =>
      obtain ⟨rfl, htail⟩ := List.cons.inj h
      obtain ⟨rfl, hc, hb⟩ := ih htail (fun c hc => ha₁ c (List.mem_cons_of_mem _ hc))
        fun c hc => ha₂ c (List.mem_cons_of_mem _ hc)
      exact ⟨rfl, hc, hb⟩

/-- The first frame is determined by the input. -/
theorem FirstFrame.unique {skipped₁ skipped₂ p₁ p₂ rest₁ rest₂ input : List Byte}
    {hi₁ hi₂ lo₁ lo₂ : Byte} (h₁ : FirstFrame skipped₁ p₁ hi₁ lo₁ rest₁ input)
    (h₂ : FirstFrame skipped₂ p₂ hi₂ lo₂ rest₂ input) :
    p₁ = p₂ ∧ hi₁ = hi₂ ∧ lo₁ = lo₂ ∧ rest₁ = rest₂ := by
  have heq := h₁.eq.symm.trans h₂.eq
  rw [List.append_assoc, List.append_assoc] at heq
  obtain ⟨-, -, htail⟩ := append_cons_inj heq h₁.skipped h₂.skipped (by decide) (by decide)
  obtain ⟨hp, -, hdigits⟩ := append_cons_inj (P := (· ≠ chr '#')) htail
    (fun c hc e => h₁.payload (e ▸ hc)) (fun c hc e => h₂.payload (e ▸ hc)) (by simp) (by simp)
  obtain ⟨hhi, hdigits⟩ := List.cons.inj hdigits
  exact ⟨hp, hhi, List.cons.inj hdigits⟩

theorem FirstFrame.not_takesInterrupt {skipped p rest input : List Byte} {hi lo : Byte}
    (h : FirstFrame skipped p hi lo rest input) : ¬TakesInterrupt input := by
  rintro ⟨skipped', rest', hinput, hskip'⟩
  have heq := h.eq.symm.trans hinput
  rw [List.append_assoc] at heq
  exact absurd (append_cons_inj heq h.skipped hskip' (by decide) (by decide)).2.1 (by decide)

/-- Only frames are received, unless one is too long for the buffer or has other characters for
hex digits, and what the buffer keeps of it has the checksum that these are taken for. -/
theorem receivesOnlyFrames_iff (s : GdbStub) :
    ReceivesOnlyFrames s ↔ ∀ skipped p hi lo rest, FirstFrame skipped p hi lo rest s.input →
      hexPair hi lo = calculateChecksum (stored p) →
        p.length < gdbBufferSize ∧ isxdigit hi ∧ isxdigit lo := by
  constructor
  · intro h skipped p hi lo rest hframe hsum
    obtain ⟨buf, hbytes, -, hrecv⟩ := receivePacket_firstFrame hframe
    rw [if_pos hsum] at hrecv
    rcases h _ hrecv with hint | ⟨skipped', p', hi', lo', rest', hframe', hpacket, hcheck⟩
    · exact absurd hint hframe.not_takesInterrupt
    obtain ⟨rfl, rfl, rfl, -⟩ := hframe.unique hframe'
    rw [packet_accepted _ _ (hasBytes_append.mp hbytes).1] at hpacket
    exact ⟨hpacket ▸ length_stored_lt p, hcheck.1, hcheck.2.1⟩
  · intro h s' hrecv
    rcases receivePacket_input_cases s with hint | ⟨skipped, p, hi, lo, rest, hframe⟩ | ⟨_, hfail⟩
    · exact Or.inl hint
    · obtain ⟨buf, hbytes, -, hrecv'⟩ := receivePacket_firstFrame hframe
      rw [hrecv] at hrecv'
      split_ifs at hrecv' with hsum
      · obtain ⟨hlen, hhi, hlo⟩ := h _ _ _ _ _ hframe hsum
        obtain ⟨-, rfl⟩ := Prod.mk.inj (Except.ok.inj hrecv')
        refine Or.inr ⟨skipped, p, hi, lo, rest, hframe, ?_, ?_⟩
        · rw [packet_accepted _ _ (hasBytes_append.mp hbytes).1, stored_of_lt hlen]
        · rw [stored_of_lt hlen] at hsum
          exact isChecksum_iff.mpr ⟨hhi, hlo, hsum⟩
      · exact absurd (Prod.mk.inj (Except.ok.inj hrecv')).1 (by simp)
    · rw [hrecv] at hfail
      exact absurd (Prod.mk.inj (Except.ok.inj hfail)).1 (by simp)

/-- Two characters that are no hex digits, after an empty payload. -/
theorem not_receivesOnlyFrames_zz :
    ¬ReceivesOnlyFrames { GdbStub.init with input := ascii "$#zz" } := by
  intro h
  have hframe : FirstFrame [] [] (chr 'z') (chr 'z') [] (ascii "$#zz") :=
    ⟨rfl, nofun, List.not_mem_nil⟩
  rcases h _ rfl with hint | ⟨skipped, p, hi, lo, rest, hframe', -, hhi, -⟩
  · exact hframe.not_takesInterrupt hint
  · obtain ⟨-, rfl, -⟩ := hframe.unique hframe'
    exact absurd hhi (by decide)

/-! ### The advertised size -/

/-- The reply to `qSupported` says that payloads may have `n` characters; the number is in
hexadecimal. -/
def AdvertisesPacketSize (w : World x σ) (n : Nat) : Prop :=
  ∃ digits rest, (handleQSupported w).stub.output =
      w.stub.output ++ [frame (ascii "PacketSize=" ++ digits ++ chr ';' :: rest)] ∧
    (∀ c ∈ digits, isxdigit c) ∧ n = hexValue digits

/-- The next packet is received, and it is the whole payload `p`. -/
def ReceivesWhole (s : GdbStub) (p : List Byte) : Prop :=
  ∃ s', receivePacket s = .ok (true, s') ∧ s'.packet = p ∧ s'.packetSize = p.length

theorem not_receivesWhole_of_le {s : GdbStub} {p rest : List Byte} (hin : Framed p rest s.input)
    (hlen : gdbBufferSize ≤ p.length) : ¬ReceivesWhole s p := by
  rintro ⟨s', hrecv, -, hsize⟩
  obtain ⟨skipped, hi, lo, hinput, hskip, hp, -⟩ := hin
  obtain ⟨buf, -, -, hrecv'⟩ := receivePacket_firstFrame ⟨hinput, hskip, hp⟩
  rw [hrecv] at hrecv'
  split_ifs at hrecv'
  · obtain ⟨-, rfl⟩ := Prod.mk.inj (Except.ok.inj hrecv')
    exact absurd (length_stored_lt p) (not_lt.mpr (hlen.trans_eq hsize.symm))
  · exact absurd (Prod.mk.inj (Except.ok.inj hrecv')).1 (by simp)

/-- Of the payloads of the advertised size, those are received that the buffer has room for. -/
theorem receivesWhole_iff (w : World x σ) :
    AdvertisesPacketSize w 0x4096 ∧ ∀ (s : GdbStub) (p rest : List Byte),
      Framed p rest s.input → p.length ≤ 0x4096 →
        (ReceivesWhole s p ↔ p.length < gdbBufferSize) := by
  refine ⟨⟨ascii "4096", _, output_send_of_le _ (by decide), by decide, by decide⟩,
    fun s p rest hin _ => ⟨fun h => ?_, fun hlen => ?_⟩⟩
  · by_contra hlen
    exact not_receivesWhole_of_le hin (not_lt.mp hlen) h
  · obtain ⟨s', hrecv, h⟩ := receivePacket_framed hin hlen
    exact ⟨s', hrecv, packet_of_received h, by rw [h.eq]⟩

theorem receivesWhole_four :
    ReceivesWhole { GdbStub.init with input := frame (ascii "m0,4") } (ascii "m0,4") :=
  ((receivesWhole_iff (byteMemoryWorld .x32 [])).2 _ (ascii "m0,4") []
    (framed_frame_nil (by decide)) (by decide)).mpr (by decide)

/-- A payload of `4096` characters, which is less than the advertised size. -/
theorem not_receivesWhole_4096 :
    AdvertisesPacketSize (byteMemoryWorld .x32 []) 0x4096 ∧ 4096 ≤ 0x4096 ∧
      ¬ReceivesWhole { GdbStub.init with input := frame (List.replicate 4096 (chr 'g')) }
        (List.replicate 4096 (chr 'g')) := by
  refine ⟨⟨ascii "4096", _, output_send_of_le _ (by decide), by decide, by decide⟩, by decide, ?_⟩
  refine not_receivesWhole_of_le (framed_frame_nil fun h => ?_) ?_
  · exact absurd (List.eq_of_mem_replicate h) (by decide)
  · rw [List.length_replicate]

end Rv32Gdb
