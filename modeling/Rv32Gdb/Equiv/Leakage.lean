import Rv32Gdb.Equiv.BufferTail

/-!
# Leakage between packets

`NoLeak` says that a packet is answered in the same way whatever the buffer held before.
`noLeak_iff`: this holds of every frame, but for a `G` packet without the digits of the program
counter and an `M` packet with fewer digits than its length asks for.
-/

namespace Rv32Gdb

variable {x : Xlen} {σ : Type}

/-- The world with another packet buffer and packet size. -/
def World.withBuffer (w : World x σ) (buf : Fin gdbBufferSize → Byte) (size : Nat) : World x σ :=
  { w with stub := { w.stub with packetBuffer := buf, packetSize := size } }

/-- What the client has sent is handled in the same way whatever the buffer held before: the same
replies, the same calls of the callbacks and the same state, but for the buffer behind position
`n`.  The callbacks are any, so that they may keep a log of their calls. -/
def NoLeak (x : Xlen) (input : List Byte) (n : Nat) : Prop :=
  ∀ (σ : Type) (cb : GdbCallbacks x σ) (fuel : Nat) (w : World x σ)
    (buf : Fin gdbBufferSize → Byte) (size : Nat), w.stub.connected →
      w.stub.consecutiveFailures < 50 → w.stub.input = input →
      SameOutcome n (gdbStubProcess fuel cb w) (gdbStubProcess fuel cb (w.withBuffer buf size))

/-- The packet `s` asks for digits that it does not have: `G` without the digits of the program
counter, or `M` with fewer digits than its length field says. -/
def TakesStaleDigits (x : Xlen) (s : List Byte) : Prop :=
  s.head? = some (chr 'G') ∧ s.length ≤ 32 * x.regHexChars ∨
    s.head? = some (chr 'M') ∧ ∃ addr len data,
      readRequest x .M (s.tail.takeWhile (· ≠ 0#8)) = .ok (some (.writeMemory addr len data)) ∧
        s.length + 1 < data + 2 * len

/-! ### Received packets -/

/-- Buffers that hold the same packet agree up to its end. -/
theorem agreeTo_of_hasBytes {b b' : Fin gdbBufferSize → Byte} {s : List Byte}
    (h : HasBytes b 0 (s ++ [0#8])) (h' : HasBytes b' 0 (s ++ [0#8])) :
    AgreeTo s.length b b' := by
  have hlen : (s ++ [0#8]).length = s.length + 1 := by simp
  refine ⟨fun i hi => ?_, ?_⟩
  · have heq := h.2 i (by omega)
    rw [Nat.zero_add] at heq
    rw [heq, ← h'.2 i (by omega), Nat.zero_add]
  · have hnul := (hasBytes_append.mp h).2.head
    rwa [Nat.zero_add] at hnul

/-- The first character and the text after it of a received packet. -/
theorem byteAt_zero_of_hasBytes {b : Fin gdbBufferSize → Byte} {s : List Byte} {c : Byte}
    (h : HasBytes b 0 (s ++ [0#8])) (hc : c ≠ 0#8) (hb : byteAt b 0 = c) :
    s.head? = some c ∧ cstr b 1 = s.tail.takeWhile (· ≠ 0#8) := by
  cases s with
  | nil => exact absurd (hb.symm.trans h.head) hc
  | cons a s =>
    refine ⟨congrArg some (h.head.symm.trans hb), ?_⟩
    exact cstr_eq_takeWhile h.tail

theorem byteAt_zero_of_head? {b : Fin gdbBufferSize → Byte} {s : List Byte} {c : Byte}
    (h : HasBytes b 0 (s ++ [0#8])) (hs : s.head? = some c) : byteAt b 0 = c := by
  cases s with
  | nil => cases hs
  | cons a s => rw [h.head, Option.some.inj hs]

/-- A frame with a correct checksum is dispatched on over what the buffer held before. -/
theorem gdbStubProcess_accepted (fuel : Nat) (cb : GdbCallbacks x σ) {w : World x σ}
    {skipped p rest : List Byte} {hi lo : Byte} (h : FirstFrame skipped p hi lo rest w.stub.input)
    (hsum : hexPair hi lo = calculateChecksum (stored p)) (hconn : w.stub.connected)
    (hfail : w.stub.consecutiveFailures < 50) :
    ∃ buf, HasBytes buf 0 (stored p ++ [0#8]) ∧
      (∀ k, (stored p).length < k → byteAt buf k = byteAt w.stub.packetBuffer k) ∧
      gdbStubProcess fuel cb w =
        dispatch fuel cb { w with stub := w.stub.accepted buf (stored p).length rest } := by
  obtain ⟨buf, hbytes, hother, hrecv⟩ := receivePacket_firstFrame h
  refine ⟨buf, hbytes, hother, ?_⟩
  rw [gdbStubProcess, hconn, if_neg (by simp), if_neg (by omega), hrecv, if_pos hsum]
  rfl

/-- A frame with a wrong checksum is only refused. -/
theorem gdbStubProcess_refused (fuel : Nat) (cb : GdbCallbacks x σ) {w : World x σ}
    {skipped p rest : List Byte} {hi lo : Byte} (h : FirstFrame skipped p hi lo rest w.stub.input)
    (hsum : hexPair hi lo ≠ calculateChecksum (stored p)) (hconn : w.stub.connected)
    (hfail : w.stub.consecutiveFailures < 50) :
    ∃ buf, HasBytes buf 0 (stored p ++ [0#8]) ∧ gdbStubProcess fuel cb w =
      .ok (-1, { w with stub := w.stub.refused buf (stored p).length rest }) := by
  obtain ⟨buf, hbytes, -, hrecv⟩ := receivePacket_firstFrame h
  refine ⟨buf, hbytes, ?_⟩
  rw [gdbStubProcess, hconn, if_neg (by simp), if_neg (by omega), hrecv, if_neg hsum]
  rfl

/-! ### Frames that leak nothing -/

theorem noLeak_of_not_takesStaleDigits {skipped p rest input : List Byte} {hi lo : Byte}
    (h : FirstFrame skipped p hi lo rest input)
    (hno : hexPair hi lo = calculateChecksum (stored p) → ¬TakesStaleDigits x (stored p)) :
    NoLeak x input (stored p).length := by
  rintro σ cb fuel w buf size hconn hfail rfl
  by_cases hsum : hexPair hi lo = calculateChecksum (stored p)
  · obtain ⟨b, hb, -, hproc⟩ := gdbStubProcess_accepted fuel cb h hsum hconn hfail
    obtain ⟨b', hb', -, hproc'⟩ := gdbStubProcess_accepted fuel cb (w := w.withBuffer buf size) h
      hsum hconn hfail
    rw [hproc, hproc']
    have hstale := hno hsum
    refine sameOutcome_dispatch fuel cb ⟨b', agreeTo_of_hasBytes hb hb', rfl⟩
      (length_stored_lt p) (fun hG => ?_) fun hM addr len data hread => ?_
    · have hhead := (byteAt_zero_of_hasBytes hb (by decide) hG).1
      by_contra hle
      exact hstale (Or.inl ⟨hhead, by omega⟩)
    · obtain ⟨hhead, htext⟩ := byteAt_zero_of_hasBytes hb (by decide) hM
      by_contra hlt
      change readRequest x .M (cstr b 1) = _ at hread
      rw [htext] at hread
      exact hstale (Or.inr ⟨hhead, addr, len, data, hread, by omega⟩)
  · obtain ⟨b, hb, hproc⟩ := gdbStubProcess_refused fuel cb h hsum hconn hfail
    obtain ⟨b', hb', hproc'⟩ := gdbStubProcess_refused fuel cb (w := w.withBuffer buf size) h
      hsum hconn hfail
    exact Or.inr ⟨-1, _, _, hproc, hproc', b', agreeTo_of_hasBytes hb hb', rfl⟩

/-! ### Frames that leak -/

/-- Callbacks that keep the last value written to the program counter or to memory. -/
def lastWriteCallbacks (x : Xlen) : GdbCallbacks x (GdbReg x) where
  readReg _ t _ := (0, t)
  writeReg _ t _ _ := t
  readMem _ t _ _ := (0, t)
  writeMem _ t _ v _ := { t with sim := v }
  getPc _ t := (0, t)
  setPc _ t v := { t with sim := v }
  reset := none
  resume := none
  getNumHarts := none
  setFocusHart := none
  getFocusHart := none
  getStopHart := none
  haltCpus := none

/-- The world in which a client sends `input` over a buffer full of the character `c`. -/
def staleWorld (x : Xlen) (input : List Byte) (c : Byte) : World x (GdbReg x) where
  dbg := DebugState.init x
  sim := 0
  stub := { gdbStubAccept GdbStub.init input with packetBuffer := fun _ => c }

/-- The result gives the digit `c` away, by a value written that ends in its lowest bit or by a
read outside the buffer. -/
def Shows (c : Byte) (r : Result (Int × World x (GdbReg x))) : Prop :=
  r = .error .outOfBoundsRead ∨
    ∃ u, r = .ok (0, u) ∧ u.sim.getLsbD 0 = (hexToInt c).getLsbD 0

theorem not_sameOutcome_of_shows {n : Nat} {r r' : Result (Int × World x (GdbReg x))}
    (h : Shows (chr '0') r) (h' : Shows (chr '1') r') : ¬SameOutcome n r r' := by
  rintro (⟨e, he, hr, -⟩ | ⟨i, w, w', hr, hr', hsame⟩)
  · rcases h with h | ⟨u, h, -⟩
    · exact he (Except.error.inj (hr.symm.trans h))
    · cases hr.symm.trans h
  · rcases h with h | ⟨u, h, hbit⟩
    · cases hr.symm.trans h
    rcases h' with h' | ⟨u', h', hbit'⟩
    · cases hr'.symm.trans h'
    obtain ⟨-, rfl⟩ := Prod.mk.inj (Except.ok.inj (hr.symm.trans h))
    obtain ⟨-, rfl⟩ := Prod.mk.inj (Except.ok.inj (hr'.symm.trans h'))
    obtain ⟨b, -, rfl⟩ := hsame
    have hdiff : (hexToInt (chr '0')).getLsbD 0 ≠ (hexToInt (chr '1')).getLsbD 0 := by decide
    exact hdiff (hbit.symm.trans hbit')

/-- As many digits as a register has read as a register. -/
theorem isOk_parseHexLe (str : List Byte) : ∃ v, parseHexLe x str x.regHexChars = .ok v := by
  have hbits : (0 + x.regHexChars / 2) * 8 = x.bits := by cases x <;> rfl
  have hloop : ∀ n i (str : List Byte) (value : GdbReg x), (i + n) * 8 ≤ x.bits →
      ∃ v, parseHexLeLoop x i n str value = .ok v := by
    intro n
    induction n with
    | zero => exact fun i str value _ => ⟨value, by rw [parseHexLeLoop]; simp⟩
    | succ n ih =>
      intro i str value hin
      rcases str with _ | ⟨hi, _ | ⟨lo, rest⟩⟩
      · exact ⟨value, rfl⟩
      · exact ⟨value, rfl⟩
      · rw [parseHexLeLoop, if_neg (by omega)]
        exact ih (i + 1) rest _ (by omega)
  exact hloop _ 0 str 0 hbits.le

theorem writeRegistersLoop_lastWrite (is : List Nat) (w : World x (GdbReg x)) :
    writeRegistersLoop (lastWriteCallbacks x) is w = .ok w := by
  induction is with
  | nil => rfl
  | cons i is ih =>
    obtain ⟨v, hv⟩ := isOk_parseHexLe (x := x)
      (cstr w.stub.packetBuffer (1 + i * x.regHexChars))
    rw [writeRegistersLoop, hv]
    exact ih

/-- A register of equal digits. -/
theorem exists_encodeHex_eq_replicate (x : Xlen) {c : Byte} (hc : c = chr '0' ∨ c = chr '1') :
    ∃ v : GdbReg x, v.getLsbD 0 = (hexToInt c).getLsbD 0 ∧
      encodeHex v x.regHexBytes = List.replicate x.regHexChars c := by
  rcases hc with rfl | rfl
  · exact ⟨0, by cases x <;> decide, by cases x <;> decide⟩
  · cases x with
    | x32 => exact ⟨0x11111111, by decide, by decide⟩
    | x64 => exact ⟨0x1111111111111111, by decide, by decide⟩

/-- `G` without the digits of the program counter takes what is left in the buffer for them. -/
theorem shows_writeRegisters {n : Nat} {c : Byte} (hc : c = chr '0' ∨ c = chr '1')
    {w : World x (GdbReg x)} (hn : n ≤ 32 * x.regHexChars)
    (hstale : ∀ k, n < k → k < gdbBufferSize → byteAt w.stub.packetBuffer k = c) :
    Shows c (andReturnZero (handleWriteRegisters (lastWriteCallbacks x) w)) := by
  obtain ⟨v, hv, hdigits⟩ := exists_encodeHex_eq_replicate x hc
  have hroom : 1 + 33 * x.regHexChars ≤ gdbBufferSize := by cases x <;> decide
  have hbytes : HasBytes w.stub.packetBuffer (1 + 32 * x.regHexChars)
      (encodeHex v x.regHexBytes) := by
    rw [hdigits]
    refine ⟨by rw [List.length_replicate]; omega, fun k hk => ?_⟩
    rw [List.length_replicate] at hk
    rw [List.getElem_replicate]
    exact hstale _ (by omega) (by omega)
  have hnul : 0#8 ∉ encodeHex v x.regHexBytes := by
    rw [hdigits, List.mem_replicate]
    rcases hc with rfl | rfl <;> exact fun h => absurd h.2 (by decide)
  refine Or.inr ⟨(w.act fun b t => (lastWriteCallbacks x).setPc b t v).send (ascii "OK"), ?_, hv⟩
  unfold handleWriteRegisters
  rw [writeRegistersLoop_lastWrite]
  show andReturnZero (parseHexLe x (cstr w.stub.packetBuffer (1 + 32 * x.regHexChars)) _ >>= _) = _
  rw [cstr_append hbytes hnul, parseHexLe_encodeHex]
  rfl

theorem getLsbD_hexPair (hi lo : Byte) :
    ((hexPair hi lo).setWidth x.bits).getLsbD 0 = (hexToInt lo).getLsbD 0 := by
  have hbits : 0 < x.bits := by cases x <;> decide
  rw [hexPair]
  simp [hbits]

/-- The last value that the loop writes. -/
theorem writeMemoryLoop_lastWrite (addr : GdbAddr x) {data n i : Nat}
    (hend : data + 2 * (i + n + 1) ≤ gdbBufferSize) (w : World x (GdbReg x)) :
    ∃ u, writeMemoryLoop (lastWriteCallbacks x) addr data (n + 1) i w = .ok u ∧
      u.sim.getLsbD 0 =
        (hexToInt (byteAt w.stub.packetBuffer (data + 2 * (i + n) + 1))).getLsbD 0 := by
  have hsize : gdbBufferSize < 2 ^ 31 := by decide
  have hpeek : ∀ {k}, k < gdbBufferSize →
      w.stub.peek k = .ok (byteAt w.stub.packetBuffer k) := by
    intro k hk
    rw [GdbStub.peek, byteAt, dif_pos hk, dif_pos hk]
  induction n generalizing i w with
  | zero =>
    obtain ⟨hhi, hlo⟩ := dataIndex_eq x data (i := i) (by omega)
    rw [writeMemoryLoop, hhi, hlo, hpeek (by omega), hpeek (by omega)]
    exact ⟨_, rfl, getLsbD_hexPair _ _⟩
  | succ n ih =>
    obtain ⟨hhi, hlo⟩ := dataIndex_eq x data (i := i) (by omega)
    rw [writeMemoryLoop, hhi, hlo, hpeek (by omega), hpeek (by omega)]
    obtain ⟨u, hu, hbit⟩ := ih (i := i + 1) (by omega) (w.act fun c t =>
      (lastWriteCallbacks x).writeMem c t (addr + BitVec.ofNat x.bits i)
        ((hexPair _ _).setWidth x.bits) 1) hpeek
    refine ⟨u, hu, ?_⟩
    rw [hbit, show data + 2 * (i + 1 + n) = data + 2 * (i + (n + 1)) by omega]
    rfl

/-- `M` with fewer digits than it asks for takes what is left in the buffer for the last one. -/
theorem shows_writeMemory {n addr len data : Nat} {c : Byte} {w : World x (GdbReg x)}
    (hdata : data ≤ n + 1) (hn : n < gdbBufferSize) (hlen : n + 1 < data + 2 * len)
    (hstale : ∀ k, n < k → k < gdbBufferSize → byteAt w.stub.packetBuffer k = c) :
    Shows c (andReturnZero (perform (lastWriteCallbacks x) (.writeMemory addr len data) w)) := by
  obtain ⟨m, rfl⟩ : ∃ m, len = m + 1 := ⟨len - 1, by omega⟩
  rw [perform]
  by_cases hend : data + 2 * (m + 1) ≤ gdbBufferSize
  · obtain ⟨u, hu, hbit⟩ := writeMemoryLoop_lastWrite (BitVec.ofNat x.bits addr)
      (show data + 2 * (0 + m + 1) ≤ gdbBufferSize by omega) w
    rw [hstale _ (by omega) (by omega)] at hbit
    rw [hu]
    exact Or.inr ⟨u.send (ascii "OK"), rfl, hbit⟩
  · rw [writeMemoryLoop_eq_error _ _ (by omega) (by omega)]
    exact Or.inl rfl

/-- A packet that asks for digits that it does not have shows those of an earlier packet. -/
theorem shows_staleWorld {skipped p rest input : List Byte} {hi lo : Byte}
    (h : FirstFrame skipped p hi lo rest input)
    (hsum : hexPair hi lo = calculateChecksum (stored p)) (hstale : TakesStaleDigits x (stored p))
    {c : Byte} (hc : c = chr '0' ∨ c = chr '1') :
    Shows c (gdbStubProcess 0 (lastWriteCallbacks x) (staleWorld x input c)) := by
  obtain ⟨buf, hbytes, hother, hproc⟩ := gdbStubProcess_accepted 0 (lastWriteCallbacks x)
    (w := staleWorld x input c) h hsum rfl (Nat.zero_lt_succ _)
  have hbuf : ∀ k, (stored p).length < k → k < gdbBufferSize → byteAt buf k = c := by
    intro k hk hlt
    rw [hother k hk, byteAt, dif_pos hlt]
    rfl
  have hlen := length_stored_lt p
  rw [hproc]
  rcases hstale with ⟨hG, hle⟩ | ⟨hM, addr, len, data, hread, hlt⟩
  · rw [dispatch_G _ _ (byteAt_zero_of_head? hbytes hG)]
    exact shows_writeRegisters hc hle hbuf
  · have hfirst := byteAt_zero_of_head? hbytes hM
    have htext := (byteAt_zero_of_hasBytes hbytes (by decide) hfirst).2
    set s := (stored p).tail.takeWhile (· ≠ 0#8) with hs
    have hshort : s.length + 1 ≤ (stored p).length := by
      have hle : s.length ≤ _ := (List.takeWhile_sublist _).length_le
      have hpos : 0 < (stored p).length := List.length_pos_of_ne_nil fun hnil => by
        rw [hnil] at hM
        cases hM
      rw [List.length_tail] at hle
      omega
    obtain ⟨ps, hps, heq⟩ := handleWriteMemory_eq (lastWriteCallbacks x) s
    have hdata : data ≤ s.length + 1 := by
      rw [readRequest] at hread
      obtain ⟨r, -, hr⟩ := Option.map_eq_some_iff.mp (Except.ok.inj hread)
      cases hr
      omega
    rw [dispatch_M _ _ hfirst, (heq _ htext).1, hread]
    refine shows_writeMemory (n := (stored p).length) (by omega) hlen hlt fun k hk hlt' => ?_
    rw [← hbuf k hk hlt', byteAt, byteAt, dif_pos hlt', dif_pos hlt']
    exact if_neg fun hmem => absurd (hps k hmem) (by omega)

theorem not_noLeak_of_takesStaleDigits {skipped p rest input : List Byte} {hi lo : Byte}
    (h : FirstFrame skipped p hi lo rest input)
    (hsum : hexPair hi lo = calculateChecksum (stored p)) (hstale : TakesStaleDigits x (stored p))
    (n : Nat) : ¬NoLeak x input n := fun hno =>
  not_sameOutcome_of_shows (shows_staleWorld h hsum hstale (Or.inl rfl))
    (shows_staleWorld h hsum hstale (Or.inr rfl))
    (hno _ _ 0 (staleWorld x input (chr '0')) (fun _ => chr '1') 0 rfl (Nat.zero_lt_succ _) rfl)

/-- Nothing leaks from the packets before into what a frame does, unless the frame is a `G` packet
without the digits of the program counter or an `M` packet with fewer digits than it asks for. -/
theorem noLeak_iff {skipped p rest input : List Byte} {hi lo : Byte}
    (h : FirstFrame skipped p hi lo rest input) :
    NoLeak x input (stored p).length ↔
      ¬(hexPair hi lo = calculateChecksum (stored p) ∧ TakesStaleDigits x (stored p)) := by
  constructor
  · rintro hno ⟨hsum, hstale⟩
    exact not_noLeak_of_takesStaleDigits h hsum hstale _ hno
  · intro hno
    exact noLeak_of_not_takesStaleDigits h fun hsum hstale => hno ⟨hsum, hstale⟩

/-- Nothing leaks into what `$g#67` does. -/
theorem noLeak_iff_readRegisters :
    FirstFrame [] (ascii "g") (chr '6') (chr '7') [] (ascii "$g#67") ∧
      NoLeak .x32 (ascii "$g#67") 1 := by
  have hframe : FirstFrame [] (ascii "g") (chr '6') (chr '7') [] (ascii "$g#67") :=
    ⟨by decide, by simp, by decide⟩
  refine ⟨hframe, (noLeak_iff hframe).mpr ?_⟩
  rintro ⟨-, ⟨h, -⟩ | ⟨h, -⟩⟩ <;> exact absurd h (by decide)

/-- `$G#47` writes to the program counter what an earlier packet has left in the buffer. -/
theorem not_noLeak_G : ¬NoLeak .x32 (ascii "$G#47") 1 := by
  have hframe : FirstFrame [] (ascii "G") (chr '4') (chr '7') [] (ascii "$G#47") :=
    ⟨by decide, by simp, by decide⟩
  exact not_noLeak_of_takesStaleDigits hframe (by decide) (Or.inl ⟨by decide, by decide⟩) 1

end Rv32Gdb
