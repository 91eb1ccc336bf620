import Rv32Gdb.Equiv.Replies
import Rv32Gdb.Equiv.TablePackets
import Rv32Gdb.Equiv.Registers

/-!
# Packets with numeric fields

A packet `m`, `M`, `X`, `Z`, `z`, `p` or `P` asks for something in terms of a few numbers
(`Request`), and `perform` does it.  `readRequest` says which numbers the stub takes the fields of a
packet for, whatever their text: `dispatch_eq_answer`.
-/

namespace Rv32Gdb

variable {x : Xlen} {σ : Type}

/-! ### Requests -/

/-- What a packet with numeric fields asks for. -/
inductive Request
  | readMemory (addr len : Nat)
  /-- The digits of the bytes begin at position `data` of the packet. -/
  | writeMemory (addr len data : Nat)
  | writeMemoryBinary (addr len : Nat) (data : List Byte)
  | breakpoint (insert : Bool) (type : Int) (addr len : Nat)
  | readRegister (regNum : Int)
  | writeRegister (regNum : Int) (value : Nat)

/-- The call on the tables for a breakpoint or watchpoint, if the type is supported. -/
def breakpointRequest (d : DebugState x) (insert : Bool) (type : Int) (addr len : GdbAddr x) :
    Option (Bool × DebugState x) :=
  let len := if len = 0 then 4 else len
  if type = 0 ∨ type = 1 then
    some (if insert then gdbStubAddBreakpoint d addr else gdbStubRemoveBreakpoint d addr)
  else if 2 ≤ type ∧ type ≤ 4 then
    some (if insert then gdbStubAddWatchpoint d addr len (watchpointType type)
      else gdbStubRemoveWatchpoint d addr len (watchpointType type))
  else none

/-- What is done for a request. -/
def perform (cb : GdbCallbacks x σ) : Request → World x σ → Result (World x σ)
  | .readMemory addr len, w =>
    if len > gdbBufferSize / 2 then .ok (w.send (ascii "E02"))
    else do
      let (w, p) ← readMemoryLoop cb (BitVec.ofNat x.bits addr) len 0 w
        (CharArray.empty gdbBufferSize)
      let response ← p.terminate
      .ok (w.send response)
  | .writeMemory addr len data, w => do
    let w ← writeMemoryLoop cb (BitVec.ofNat x.bits addr) data len 0 w
    .ok (w.send (ascii "OK"))
  | .writeMemoryBinary addr len data, w =>
    if len = 0 ∨ len > gdbBufferSize then .ok (w.send (ascii "E02"))
    else do
      let bytes ← decodeRspBinary len data (CharArray.empty gdbBufferSize)
      .ok (bytes.elim (w.send (ascii "E03")) fun bytes =>
        (w.act fun c t => writeBytes cb c (BitVec.ofNat x.bits addr) 0 bytes.data t).send
          (ascii "OK"))
  | .breakpoint insert type addr len, w =>
    .ok ((breakpointRequest w.dbg insert type (BitVec.ofNat x.bits addr)
      (BitVec.ofNat x.bits len)).elim (w.send []) fun r =>
        (w.updDbg fun _ => r.2).send (if r.1 then ascii "OK" else ascii "E01"))
  | .readRegister regNum, w =>
    if regNum < 0 ∨ regNum > 32 then .ok (w.send (ascii "E01"))
    else do
      let (value, w) := if regNum < 32 then w.call fun c t => cb.readReg c t regNum.toNat
        else w.call cb.getPc
      let response ← (CharArray.empty 32).pushAll (encodeHex value x.regHexBytes)
      let response ← response.terminate
      .ok (w.send response)
  | .writeRegister regNum value, w =>
    if regNum < 0 ∨ regNum > 32 then .ok (w.send (ascii "E01"))
    else
      let value := BitVec.ofNat x.bits value
      .ok ((if regNum < 32 then w.act fun c t => cb.writeReg c t regNum.toNat value
        else w.act fun c t => cb.setPc c t value).send (ascii "OK"))

/-- A request reads outside the packet buffer only for the data of an `M` packet. -/
theorem avoids_perform {e : Stuck} (hwrite : e ≠ .outOfBoundsWrite) (cb : GdbCallbacks x σ)
    {r : Request} (hread : e ≠ .outOfBoundsRead ∨ ∀ addr len data, r ≠ .writeMemory addr len data)
    (w : World x σ) : Avoids e (perform cb r w) := by
  cases r with
  | readMemory addr len =>
    exact avoids_ite (avoids_ok _) (avoids_bind (avoids_readMemoryLoop hwrite _ _ _ _ _ _)
      fun _ => avoids_bind (avoids_terminate hwrite _) fun _ => avoids_ok _)
  | writeMemory addr len data =>
    have hread' := hread.resolve_right fun h => h addr len data rfl
    exact avoids_bind (avoids_writeMemoryLoop hread' _ _ _ _ _ _) fun _ => avoids_ok _
  | writeMemoryBinary addr len data =>
    exact avoids_ite (avoids_ok _) (avoids_bind (avoids_decodeRspBinary hwrite _ _ _)
      fun _ => avoids_ok _)
  | breakpoint insert type addr len => exact avoids_ok _
  | readRegister regNum =>
    rw [perform]
    split_ifs
    · exact avoids_ok _
    · exact avoids_bind (avoids_pushAll hwrite _ _) fun _ =>
        avoids_bind (avoids_terminate hwrite _) fun _ => avoids_ok _
    · exact avoids_bind (avoids_pushAll hwrite _ _) fun _ =>
        avoids_bind (avoids_terminate hwrite _) fun _ => avoids_ok _
  | writeRegister regNum value => exact avoids_ite (avoids_ok _) (avoids_ok _)

/-! ### Fields -/

/-- Cutting a string at the first `c`. -/
def cutAt (c : Byte) : List Byte → Option (List Byte × List Byte)
  | [] => none
  | d :: s => if d = c then some ([], s) else (cutAt c s).map fun r => (d :: r.1, r.2)

theorem cutAt_append {c : Byte} {a : List Byte} (h : c ∉ a) (l : List Byte) :
    cutAt c (a ++ c :: l) = some (a, l) := by
  induction a with
  | nil => exact if_pos rfl
  | cons d a ih =>
    rw [List.mem_cons, not_or] at h
    rw [List.cons_append, cutAt, if_neg (Ne.symm h.1), ih h.2]
    rfl

theorem cutAt_eq_none {c : Byte} {s : List Byte} (h : c ∉ s) : cutAt c s = none := by
  induction s with
  | nil => rfl
  | cons d s ih =>
    rw [List.mem_cons, not_or] at h
    rw [cutAt, if_neg (Ne.symm h.1), ih h.2]
    rfl

/-- Either a string does not contain `c`, or it is cut at the first one. -/
theorem cutAt_cases (c : Byte) (s : List Byte) :
    (c ∉ s ∧ cutAt c s = none) ∨ ∃ a l, s = a ++ c :: l ∧ c ∉ a ∧ cutAt c s = some (a, l) := by
  by_cases h : c ∈ s
  · obtain ⟨a, l, rfl, hc⟩ := List.eq_append_cons_of_mem h
    exact Or.inr ⟨a, l, rfl, hc, cutAt_append hc l⟩
  · exact Or.inl ⟨h, cutAt_eq_none h⟩

/-- The number of a `gdb_addr_t` field, a character that is no digit counting as `0`. -/
def storedField (x : Xlen) (s : List Byte) : Nat := hexValue s % 2 ^ x.bits

/-- The number of an `int` field. -/
def storedInt (x : Xlen) (s : List Byte) : Int := addrToInt (BitVec.ofNat x.bits (hexValue s))

/-- The number of a `uint32_t` field. -/
def storedLength (x : Xlen) (s : List Byte) : Nat :=
  ((BitVec.ofNat x.bits (hexValue s)).setWidth 32).toNat

/-- The number that pairs of digits denote, least significant byte first. -/
def littleEndianValue (s : List Byte) : Nat :=
  Nat.ofDigits 256 ((hexPairs s).map BitVec.toNat)

/-- The address, the length and the data of `M` and `X`: the length is what stands between the
comma and the colon, and there is nothing when the colon comes first. -/
def memoryFields (s : List Byte) : Option (List Byte × List Byte × List Byte) :=
  (cutAt (chr ',') s).bind fun r => (cutAt (chr ':') s).map fun q =>
    (q.1.take r.1.length, q.1.drop (r.1.length + 1), q.2)

/-! ### Reading -/

/-- The packets with numeric fields. -/
inductive NumericPacket
  | m
  | M
  | X
  | Z
  | z
  | p
  | P
  deriving DecidableEq

/-- The first character of the packet. -/
def NumericPacket.command : NumericPacket → Byte
  | .m => chr 'm'
  | .M => chr 'M'
  | .X => chr 'X'
  | .Z => chr 'Z'
  | .z => chr 'z'
  | .p => chr 'p'
  | .P => chr 'P'

/-- The request of a `Z` or `z` packet. -/
def readBreakpoint (x : Xlen) (insert : Bool) (s : List Byte) : Option Request :=
  (cutAt (chr ',') s).bind fun r => (cutAt (chr ',') r.2).map fun q =>
    .breakpoint insert (storedInt x r.1) (storedField x q.1) (storedField x q.2)

/-- The request that the stub reads from the text after the command; `none` if a separator is
missing. -/
def readRequest (x : Xlen) : NumericPacket → List Byte → Result (Option Request)
  | .m, s => .ok ((cutAt (chr ',') s).map fun r =>
      .readMemory (storedField x r.1) (storedField x r.2))
  | .M, s => .ok ((memoryFields s).map fun r =>
      .writeMemory (storedField x r.1) (storedField x r.2.1) (s.length + 1 - r.2.2.length))
  | .X, s => .ok ((memoryFields s).map fun r =>
      .writeMemoryBinary (storedField x r.1) (storedLength x r.2.1) r.2.2)
  | .Z, s => .ok (readBreakpoint x true s)
  | .z, s => .ok (readBreakpoint x false s)
  | .p, s => .ok (some (.readRegister (storedInt x s)))
  | .P, s => match cutAt (chr '=') s with
    | none => .ok none
    | some r =>
      if x.regHexBytes < (hexPairs r.2).length then .error .shiftOverflow
      else .ok (some (.writeRegister (storedInt x r.1) (littleEndianValue r.2)))

/-- What is done for a packet as it is read. -/
def answer (cb : GdbCallbacks x σ) (r : Result (Option Request)) (w : World x σ) :
    Result (World x σ) := do
  let r ← r
  r.elim (.ok (w.send (ascii "E01"))) fun r => perform cb r w

/-! ### Handlers -/

/-- The buffer with a NUL at the positions `ps`. -/
def nulAt (ps : List Nat) (buf : Fin gdbBufferSize → Byte) : Fin gdbBufferSize → Byte :=
  fun i => if i.val ∈ ps then 0 else buf i

theorem setByte_eq_nulAt (buf : Fin gdbBufferSize → Byte) (p : Fin gdbBufferSize) :
    setByte buf p 0 = nulAt [p.val] buf := by
  funext i
  simp [setByte, nulAt, Function.update_apply, Fin.ext_iff]

theorem setByte_setByte_eq_nulAt (buf : Fin gdbBufferSize → Byte) (p q : Fin gdbBufferSize) :
    setByte (setByte buf p 0) q 0 = nulAt [p.val, q.val] buf := by
  funext i
  simp only [setByte, nulAt, Function.update_apply, Fin.ext_iff, List.mem_cons, List.not_mem_nil,
    or_false]
  split_ifs <;> tauto

theorem setBuffer_nulAt_nil (w : World x σ) :
    w.setBuffer (nulAt [] w.stub.packetBuffer) = w := rfl

/-- The digits that `r` takes from the packet buffer are at the end of `p`. -/
def Request.DataIn (buf : Fin gdbBufferSize → Byte) (p : List Byte) : Request → Prop
  | .writeMemory _ len data => 0 < len → HasBytes buf data (p.drop data ++ [0#8])
  | _ => True

theorem toNat_storedField (s : List Byte) :
    (BitVec.ofNat x.bits (hexValue s)).toNat = storedField x s := BitVec.toNat_ofNat _ _

/-- The packet is cut at positions that only depend on its text, and what is read is done. -/
theorem handleReadMemory_eq (cb : GdbCallbacks x σ) (s : List Byte) :
    ∃ ps, ∀ w : World x σ, cstr w.stub.packetBuffer 1 = s → handleReadMemory cb w =
      answer cb (readRequest x .m s) (w.setBuffer (nulAt ps w.stub.packetBuffer)) := by
  rcases cutAt_cases (chr ',') s with ⟨hcomma, hcut⟩ | ⟨a, l, rfl, hcomma, hcut⟩
  · refine ⟨[], fun w h => ?_⟩
    unfold handleReadMemory
    rw [strchr_eq_none (by rwa [h]), readRequest, hcut, setBuffer_nulAt_nil]
    rfl
  · refine ⟨[1 + a.length], fun w h => ?_⟩
    obtain ⟨comma, hfind, hpos, haddr, hlen⟩ := strchr_cut (by decide) h hcomma
    rw [← hpos, ← setByte_eq_nulAt]
    unfold handleReadMemory
    simp only [hfind, haddr, hlen, parseHex_eq, List.take_length]
    rw [List.take_of_length_le (by omega), readRequest, hcut]
    simp only [answer, Option.map_some, Option.elim, bind, Except.bind, perform,
      ← toNat_storedField, BitVec.ofNat_toNat, BitVec.setWidth_eq]

/-- Cutting the packet at the comma and the colon, whichever comes first. -/
theorem cut_memoryFields {buf : Fin gdbBufferSize → Byte} {a l b d : List Byte}
    (ha : cstr buf 1 = a ++ chr ',' :: l) (hcomma : chr ',' ∉ a)
    (hb : cstr buf 1 = b ++ chr ':' :: d) (hcolon : chr ':' ∉ b) :
    ∃ comma colon : Fin gdbBufferSize, strchr buf 1 (chr ',') = some comma ∧
      strchr buf 1 (chr ':') = some colon ∧ comma.val = 1 + a.length ∧ colon.val = 1 + b.length ∧
      let cut := setByte (setByte buf comma 0) colon 0
      parseHex x (cstr cut 1) (comma - 1) = BitVec.ofNat x.bits (hexValue (b.take a.length)) ∧
      parseHex x (cstr cut (comma + 1)) (colon - comma - 1) =
        BitVec.ofNat x.bits (hexValue (b.drop (a.length + 1))) ∧
      (b.length < a.length ∨ comma < colon ∧ cstr cut (colon + 1) = d) := by
  obtain ⟨comma, hfind1, hpos1, hcut1, hrest1⟩ := strchr_cut (by decide) ha hcomma
  obtain ⟨colon, hfind2, hpos2, hcut2, hrest2⟩ := strchr_cut (by decide) hb hcolon
  refine ⟨comma, colon, hfind1, hfind2, hpos1, hpos2, ?_⟩
  rcases List.append_eq_append_iff.mp (ha.symm.trans hb) with ⟨t, rfl, ht⟩ | ⟨t, rfl, ht⟩
  · -- the comma comes first
    rcases List.cons_eq_append_iff.mp ht with ⟨-, h⟩ | ⟨t, rfl, rfl⟩
    · exact absurd (List.cons.inj h).1 (by decide)
    rw [List.length_append, List.length_cons] at hpos2
    have hlt : comma.val < colon.val := by omega
    have hcolon' : chr ':' ∉ t := fun hmem => hcolon (by simp [hmem])
    obtain ⟨colon', -, hpos', hcut', -⟩ := strchr_cut (by omega) (hrest1 0) hcolon'
    obtain rfl : colon' = colon := Fin.ext (by omega)
    refine ⟨?_, ?_, Or.inr ⟨hlt, ?_⟩⟩
    · rw [cstr_setByte_of_length_lt 0 (by rw [hcut1]; omega), hcut1, parseHex_eq,
        List.take_of_length_le (by omega), List.take_left]
    · rw [hcut', parseHex_eq, List.take_of_length_le (by omega), ← List.drop_drop,
        List.drop_left]
      rfl
    · rw [cstr_setByte_of_lt 0 (Nat.lt_succ_self _), cstr_setByte_of_lt 0 (by omega), ← hrest2 0,
        cstr_setByte_of_lt 0 (Nat.lt_succ_self _)]
  · -- the colon comes first
    rcases List.cons_eq_append_iff.mp ht with ⟨-, h⟩ | ⟨t, rfl, rfl⟩
    · exact absurd (List.cons.inj h).1 (by decide)
    rw [List.length_append, List.length_cons] at hpos1
    have hne : comma ≠ colon := fun h => by rw [h] at hpos1; omega
    have hcut : cstr (setByte (setByte buf comma 0) colon 0) 1 = b := by
      have hcomm : setByte (setByte buf comma 0) colon 0 = setByte (setByte buf colon 0) comma 0 :=
        Function.update_comm hne _ _ _
      rw [hcomm, cstr_setByte_of_length_lt 0 (by rw [hcut2]; omega), hcut2]
    refine ⟨?_, ?_, Or.inl ?_⟩
    · rw [hcut, parseHex_eq, List.take_of_length_le (by omega), List.take_of_length_le]
      rw [List.length_append]
      omega
    · rw [show (colon : Nat) - comma - 1 = 0 by omega, parseHex_eq, List.take_zero,
        List.drop_eq_nil_of_le]
      rw [List.length_append]
      omega
    · rw [List.length_append, List.length_cons]
      omega

theorem handleWriteMemory_eq (cb : GdbCallbacks x σ) (s : List Byte) :
    ∃ ps, (∀ p ∈ ps, p ≤ s.length) ∧ ∀ w : World x σ, cstr w.stub.packetBuffer 1 = s →
      handleWriteMemory cb w =
        answer cb (readRequest x .M s) (w.setBuffer (nulAt ps w.stub.packetBuffer)) ∧
      ∀ p r, HasBytes w.stub.packetBuffer 0 (p ++ [0#8]) → s.length + 1 ≤ p.length →
        readRequest x .M s = .ok (some r) → r.DataIn (nulAt ps w.stub.packetBuffer) p := by
  rcases cutAt_cases (chr ',') s with ⟨hcomma, hcut⟩ | ⟨a, l, ha, hcomma, hcut⟩
  · -- without a comma nothing is cut
    have hnone : memoryFields s = none := by rw [memoryFields, hcut]; rfl
    rw [readRequest, hnone]
    refine ⟨[], by simp, fun w h => ⟨?_, fun p r _ _ hr => absurd (Except.ok.inj hr) (by simp)⟩⟩
    unfold handleWriteMemory
    rw [strchr_eq_none (by rwa [h]), setBuffer_nulAt_nil]
    rfl
  rcases cutAt_cases (chr ':') s with ⟨hcolon, hcut'⟩ | ⟨b, d, hb, hcolon, hcut'⟩
  · -- nor without a colon
    have hnone : memoryFields s = none := by rw [memoryFields, hcut, hcut']; rfl
    rw [readRequest, hnone]
    refine ⟨[], by simp, fun w h => ⟨?_, fun p r _ _ hr => absurd (Except.ok.inj hr) (by simp)⟩⟩
    unfold handleWriteMemory
    rw [strchr_eq_none (c := chr ':') (by rwa [h]), setBuffer_nulAt_nil]
    cases strchr w.stub.packetBuffer 1 (chr ',') <;> rfl
  have hfields : memoryFields s = some (b.take a.length, b.drop (a.length + 1), d) := by
    rw [memoryFields, hcut, Option.bind_some, hcut']
    rfl
  have ha' := congrArg List.length ha
  have hb' := congrArg List.length hb
  rw [List.length_append, List.length_cons] at ha' hb'
  refine ⟨[1 + a.length, 1 + b.length], fun p hp => ?_, fun w h => ?_⟩
  · rw [List.mem_pair] at hp
    omega
  obtain ⟨comma, colon, hfind1, hfind2, hpos1, hpos, haddr, hlen, hdata⟩ :=
    cut_memoryFields (x := x) (h.trans ha) hcomma (h.trans hb) hcolon
  rw [← hpos1, ← hpos, ← setByte_setByte_eq_nulAt]
  have hcolon1 : s.length + 1 - d.length = colon + 1 := by
    rw [hpos, hb, List.length_append, List.length_cons]
    omega
  rw [readRequest, hfields]
  simp only [Option.map_some, hcolon1]
  constructor
  · unfold handleWriteMemory
    simp only [hfind1, hfind2, haddr, hlen, answer, Option.elim, bind, Except.bind, perform,
      ← toNat_storedField, BitVec.ofNat_toNat, BitVec.setWidth_eq]
  · intro p r hp hs hr
    obtain rfl := Option.some.inj (Except.ok.inj hr)
    intro hpos'
    rcases hdata with hlt | ⟨hlt, -⟩
    · rw [List.drop_eq_nil_of_le (by omega)] at hpos'
      exact absurd hpos' (by simp [storedField, hexValue])
    · rw [← List.take_append_drop (colon + 1) p, List.append_assoc] at hp
      have hbytes := (hasBytes_append.mp hp).2
      rw [List.length_take_of_le (by omega), Nat.zero_add] at hbytes
      exact (hbytes.setByte _ _ (Or.inl (by omega))).setByte _ _ (Or.inl (Nat.lt_succ_self _))

theorem handleWriteMemoryBinary_eq (cb : GdbCallbacks x σ) (s : List Byte) :
    ∃ ps, ∀ w : World x σ, cstr w.stub.packetBuffer 1 = s → handleWriteMemoryBinary cb w =
      answer cb (readRequest x .X s) (w.setBuffer (nulAt ps w.stub.packetBuffer)) := by
  rcases cutAt_cases (chr ',') s with ⟨hcomma, hcut⟩ | ⟨a, l, ha, hcomma, hcut⟩
  · refine ⟨[], fun w h => ?_⟩
    unfold handleWriteMemoryBinary
    rw [strchr_eq_none (by rwa [h]), setBuffer_nulAt_nil, readRequest, memoryFields, hcut]
    rfl
  rcases cutAt_cases (chr ':') s with ⟨hcolon, hcut'⟩ | ⟨b, d, hb, hcolon, hcut'⟩
  · refine ⟨[], fun w h => ?_⟩
    unfold handleWriteMemoryBinary
    rw [strchr_eq_none (c := chr ':') (by rwa [h]), setBuffer_nulAt_nil, readRequest, memoryFields,
      hcut, Option.bind_some, hcut']
    cases strchr w.stub.packetBuffer 1 (chr ',') <;> rfl
  have hfields : memoryFields s = some (b.take a.length, b.drop (a.length + 1), d) := by
    rw [memoryFields, hcut, Option.bind_some, hcut']
    rfl
  refine ⟨[1 + a.length, 1 + b.length], fun w h => ?_⟩
  obtain ⟨comma, colon, hfind1, hfind2, hpos1, hpos, haddr, hlen, hdata⟩ :=
    cut_memoryFields (x := x) (h.trans ha) hcomma (h.trans hb) hcolon
  rw [← hpos1, ← hpos, ← setByte_setByte_eq_nulAt, readRequest, hfields]
  unfold handleWriteMemoryBinary
  simp only [hfind1, hfind2, haddr, hlen, answer, Option.map_some, Option.elim, bind, Except.bind,
    perform, storedLength, ← toNat_storedField, BitVec.ofNat_toNat, BitVec.setWidth_eq]
  rcases hdata with hlt | ⟨-, hdata⟩
  · -- no length, so that the data are not read
    rw [List.drop_eq_nil_of_le (by omega), if_pos (Or.inl (by simp [hexValue])),
      if_pos (Or.inl (by simp [hexValue]))]
  · rw [hdata]
    split_ifs with hrange
    · rfl
    · cases decodeRspBinary _ d (CharArray.empty gdbBufferSize) with
      | error e => rfl
      | ok r => cases r <;> rfl

theorem handleBreakpoint_eq (cb : GdbCallbacks x σ) (insert : Bool) (s : List Byte) :
    ∃ ps, ∀ w : World x σ, cstr w.stub.packetBuffer 1 = s → .ok (handleBreakpoint w insert) =
      answer cb (.ok (readBreakpoint x insert s))
        (w.setBuffer (nulAt ps w.stub.packetBuffer)) := by
  rcases cutAt_cases (chr ',') s with ⟨hcomma, hcut⟩ | ⟨t, s, rfl, hcomma, hcut⟩
  · -- without two commas nothing is cut
    refine ⟨[], fun w h => ?_⟩
    unfold handleBreakpoint
    simp only
    rw [strchr_eq_none (by rwa [h]), setBuffer_nulAt_nil, readBreakpoint, hcut]
    rfl
  have hfirst : ∀ w : World x σ, cstr w.stub.packetBuffer 1 = t ++ chr ',' :: s →
      ∃ comma1 : Fin gdbBufferSize, strchr w.stub.packetBuffer 1 (chr ',') = some comma1 ∧
        comma1.val = 1 + t.length ∧ cstr (setByte w.stub.packetBuffer comma1 0) 1 = t ∧
        cstr (setByte w.stub.packetBuffer comma1 0) (comma1 + 1) = s ∧
        cstr w.stub.packetBuffer (comma1 + 1) = s := by
    intro w h
    obtain ⟨comma1, hfind1, hpos1, hcut1, hrest1⟩ := strchr_cut (by decide) h hcomma
    exact ⟨comma1, hfind1, hpos1, hcut1, hrest1 0,
      (cstr_setByte_of_lt 0 (Nat.lt_succ_self comma1.val)).symm.trans (hrest1 0)⟩
  rcases cutAt_cases (chr ',') s with ⟨hcomma', hcut'⟩ | ⟨a, l, rfl, hcomma', hcut'⟩
  · refine ⟨[], fun w h => ?_⟩
    obtain ⟨comma1, hfind1, -, -, -, hrest⟩ := hfirst w h
    unfold handleBreakpoint
    simp only [hfind1]
    rw [strchr_eq_none (by rwa [hrest]), setBuffer_nulAt_nil, readBreakpoint, hcut,
      Option.bind_some, hcut']
    rfl
  refine ⟨[1 + t.length, 1 + t.length + 1 + a.length], fun w h => ?_⟩
  obtain ⟨comma1, hfind1, hpos1, hcut1, hrest1, hrest⟩ := hfirst w h
  -- the second comma is looked for before the first is cut
  obtain ⟨comma2, hfind2, hpos2, -, -⟩ := strchr_cut (by omega) hrest hcomma'
  obtain ⟨comma2', -, hpos2', haddr, hlen⟩ := strchr_cut (by omega) hrest1 hcomma'
  obtain rfl : comma2' = comma2 := Fin.ext (by omega)
  rw [← hpos1, ← hpos2, ← setByte_setByte_eq_nulAt]
  have htype : cstr (setByte (setByte w.stub.packetBuffer comma1 0) comma2' 0) 1 = t := by
    rw [cstr_setByte_of_length_lt 0 (by rw [hcut1]; omega), hcut1]
  unfold handleBreakpoint
  simp only [hfind1, hfind2, htype, haddr, hlen, parseHex_eq, List.take_length]
  rw [List.take_of_length_le (by omega), List.take_of_length_le (by omega), readBreakpoint, hcut,
    Option.bind_some, hcut']
  simp only [answer, Option.map_some, Option.elim, bind, Except.bind, perform, storedInt,
    ← toNat_storedField, BitVec.ofNat_toNat, BitVec.setWidth_eq, breakpointRequest]
  generalize addrToInt (BitVec.ofNat x.bits (hexValue t)) = type
  by_cases hbreak : type = 0 ∨ type = 1
  · rw [if_pos hbreak, if_pos hbreak]
  by_cases hwatch : 2 ≤ type ∧ type ≤ 4
  · simp only [if_neg hbreak, hwatch.1, hwatch.2, true_and]
    rfl
  · simp only [if_neg hbreak, if_neg hwatch]

theorem handleReadSingleRegister_eq (cb : GdbCallbacks x σ) (s : List Byte) :
    ∃ ps, ∀ w : World x σ, cstr w.stub.packetBuffer 1 = s → handleReadSingleRegister cb w =
      answer cb (readRequest x .p s) (w.setBuffer (nulAt ps w.stub.packetBuffer)) := by
  refine ⟨[], fun w h => ?_⟩
  unfold handleReadSingleRegister
  simp only [h, parseHex_eq, List.take_length]
  rfl

/-- Shifting a byte in above `acc` is adding it. -/
theorem or_shiftLeft_byte {n i acc : Nat} (b : Byte) (hacc : acc < 256 ^ i) (hi : (i + 1) * 8 ≤ n) :
    BitVec.ofNat n acc ||| (b.setWidth n <<< (i * 8)) =
      BitVec.ofNat n (acc + 256 ^ i * b.toNat) := by
  have hpow : 256 ^ i = 2 ^ (i * 8) := by rw [show 256 = 2 ^ 8 from rfl, ← Nat.pow_mul, Nat.mul_comm]
  have hsum : acc + 256 ^ i * b.toNat < 2 ^ n := by
    calc acc + 256 ^ i * b.toNat < 256 ^ i + 256 ^ i * b.toNat := by omega
      _ = 256 ^ i * (b.toNat + 1) := by rw [Nat.mul_succ, Nat.add_comm]
      _ ≤ 256 ^ i * 256 := Nat.mul_le_mul_left _ b.isLt
      _ = 2 ^ ((i + 1) * 8) := by rw [hpow, Nat.add_mul, Nat.pow_add]
      _ ≤ 2 ^ n := Nat.pow_le_pow_right (by omega) hi
  have hb : b.toNat < 2 ^ n := lt_of_lt_of_le b.isLt (Nat.pow_le_pow_right (by omega) (by omega))
  apply BitVec.eq_of_toNat_eq
  rw [BitVec.toNat_or, BitVec.toNat_shiftLeft, BitVec.toNat_setWidth, BitVec.toNat_ofNat,
    BitVec.toNat_ofNat, Nat.mod_eq_of_lt hb, Nat.mod_eq_of_lt hsum,
    Nat.mod_eq_of_lt (show acc < 2 ^ n by omega), Nat.shiftLeft_eq, ← hpow,
    Nat.mod_eq_of_lt (show b.toNat * 256 ^ i < 2 ^ n by rw [Nat.mul_comm]; omega), Nat.or_comm, hpow,
    ← Nat.shiftLeft_eq, ← Nat.shiftLeft_add_eq_or_of_lt (hpow ▸ hacc), Nat.shiftLeft_eq,
    Nat.add_comm, Nat.mul_comm]

theorem littleEndianValue_cons (hi lo : Byte) (rest : List Byte) :
    littleEndianValue (hi :: lo :: rest) =
      (hexPair hi lo).toNat + 256 * littleEndianValue rest := by
  rw [littleEndianValue, hexPairs, List.map_cons, Nat.ofDigits_cons]
  rfl

theorem parseHexLeLoop_eq (s : List Byte) {i : Nat} (acc : Nat) (hacc : acc < 256 ^ i)
    (hi : i ≤ x.regHexBytes) :
    parseHexLeLoop x i (s.length / 2) s (BitVec.ofNat x.bits acc) =
      if x.regHexBytes < i + (hexPairs s).length then .error .shiftOverflow
      else .ok (BitVec.ofNat x.bits (acc + 256 ^ i * littleEndianValue s)) := by
  have hbits : x.bits = x.regHexBytes * 8 := by cases x <;> rfl
  induction s using hexPairs.induct generalizing i acc with
  | case1 hi' lo rest ih =>
    rw [List.length_cons, List.length_cons, show (rest.length + 1 + 1) / 2 = rest.length / 2 + 1 by
      omega, parseHexLeLoop, hexPairs, List.length_cons]
    by_cases hfull : i = x.regHexBytes
    · rw [if_pos (by omega), if_pos (by omega)]
    · have hacc' : acc + 256 ^ i * (hexPair hi' lo).toNat < 256 ^ (i + 1) := by
        have := (hexPair hi' lo).isLt
        calc acc + 256 ^ i * (hexPair hi' lo).toNat
            < 256 ^ i + 256 ^ i * (hexPair hi' lo).toNat := by omega
          _ = 256 ^ i * ((hexPair hi' lo).toNat + 1) := by rw [Nat.mul_succ, Nat.add_comm]
          _ ≤ 256 ^ i * 256 := Nat.mul_le_mul_left _ this
          _ = 256 ^ (i + 1) := (Nat.pow_succ ..).symm
      rw [if_neg (by omega), or_shiftLeft_byte _ hacc (by omega), ih _ hacc' (by omega),
        littleEndianValue_cons, Nat.mul_add, ← Nat.mul_assoc, ← Nat.pow_succ, Nat.add_assoc,
        Nat.add_assoc, Nat.add_comm 1]
  | case2 s hs =>
    rcases s with _ | ⟨c, _ | ⟨d, s⟩⟩
    · exact (if_neg (not_lt.mpr hi)).symm
    · rw [Nat.div_eq_of_lt (show [c].length < 2 from Nat.lt_succ_self 1)]
      exact (if_neg (not_lt.mpr hi)).symm
    · exact (hs c d s rfl).elim

/-- `parse_hex_le` of a whole string. -/
theorem parseHexLe_eq (s : List Byte) :
    parseHexLe x s s.length = if x.regHexBytes < (hexPairs s).length then .error .shiftOverflow
      else .ok (BitVec.ofNat x.bits (littleEndianValue s)) := by
  have h := parseHexLeLoop_eq (x := x) s (i := 0) 0 (by decide) (Nat.zero_le _)
  rw [Nat.zero_add, Nat.zero_add, Nat.pow_zero, Nat.one_mul] at h
  exact h

theorem handleWriteSingleRegister_eq (cb : GdbCallbacks x σ) (s : List Byte) :
    ∃ ps, ∀ w : World x σ, cstr w.stub.packetBuffer 1 = s → handleWriteSingleRegister cb w =
      answer cb (readRequest x .P s) (w.setBuffer (nulAt ps w.stub.packetBuffer)) := by
  rcases cutAt_cases (chr '=') s with ⟨hequals, hcut⟩ | ⟨a, v, rfl, hequals, hcut⟩
  · refine ⟨[], fun w h => ?_⟩
    unfold handleWriteSingleRegister
    rw [strchr_eq_none (by rwa [h]), readRequest, hcut, setBuffer_nulAt_nil]
    rfl
  · refine ⟨[1 + a.length], fun w h => ?_⟩
    obtain ⟨equals, hfind, hpos, hnum, hvalue⟩ := strchr_cut (by decide) h hequals
    rw [← hpos, ← setByte_eq_nulAt]
    unfold handleWriteSingleRegister
    simp only [hfind, hnum, hvalue, parseHex_eq, parseHexLe_eq]
    rw [List.take_of_length_le (by omega), readRequest, hcut]
    by_cases hlong : x.regHexBytes < (hexPairs v).length
    · simp only [if_pos hlong]
      rfl
    · simp only [if_neg hlong, answer, Option.elim, bind, Except.bind, perform, storedInt]

/-- Only `M` takes its data from the packet buffer. -/
theorem dataIn_of_readRequest {k : NumericPacket} (hk : k ≠ .M) {s p : List Byte} {r : Request}
    (h : readRequest x k s = .ok (some r)) (buf : Fin gdbBufferSize → Byte) : r.DataIn buf p := by
  cases r with
  | writeMemory addr len data =>
    exfalso
    cases k with
    | M => exact hk rfl
    | P =>
      rw [readRequest] at h
      cases hcut : cutAt (chr '=') s with
      | none => simp [hcut] at h
      | some r =>
        simp only [hcut] at h
        split_ifs at h
        cases h
    | _ =>
      simp [readRequest, readBreakpoint, Option.bind_eq_some_iff] at h
  | _ => exact trivial

/-- The handlers do what the packet says as it is read. -/
theorem dispatch_eq_answer (fuel : Nat) (cb : GdbCallbacks x σ) (k : NumericPacket)
    (s : List Byte) :
    ∃ ps, ∀ w : World x σ, byteAt w.stub.packetBuffer 0 = k.command →
      cstr w.stub.packetBuffer 1 = s →
      dispatch fuel cb w = andReturnZero (answer cb (readRequest x k s)
        (w.setBuffer (nulAt ps w.stub.packetBuffer))) ∧
      ∀ p r, HasBytes w.stub.packetBuffer 0 (p ++ [0#8]) → s.length + 1 ≤ p.length →
        readRequest x k s = .ok (some r) → r.DataIn (nulAt ps w.stub.packetBuffer) p := by
  cases k with
  | m =>
    obtain ⟨ps, heq⟩ := handleReadMemory_eq cb s
    exact ⟨ps, fun w hcmd h => ⟨by rw [dispatch_m fuel cb hcmd, heq w h], fun p r _ _ hr =>
      dataIn_of_readRequest (by decide) hr _⟩⟩
  | M =>
    obtain ⟨ps, -, heq⟩ := handleWriteMemory_eq cb s
    exact ⟨ps, fun w hcmd h => ⟨by rw [dispatch_M fuel cb hcmd, (heq w h).1], (heq w h).2⟩⟩
  | X =>
    obtain ⟨ps, heq⟩ := handleWriteMemoryBinary_eq cb s
    exact ⟨ps, fun w hcmd h => ⟨by rw [dispatch_X fuel cb hcmd, heq w h], fun p r _ _ hr =>
      dataIn_of_readRequest (by decide) hr _⟩⟩
  | Z =>
    obtain ⟨ps, heq⟩ := handleBreakpoint_eq cb true s
    exact ⟨ps, fun w hcmd h => ⟨by rw [dispatch_Z fuel cb true hcmd, readRequest, ← heq w h]; rfl,
      fun p r _ _ hr => dataIn_of_readRequest (by decide) hr _⟩⟩
  | z =>
    obtain ⟨ps, heq⟩ := handleBreakpoint_eq cb false s
    exact ⟨ps, fun w hcmd h => ⟨by rw [dispatch_Z fuel cb false hcmd, readRequest, ← heq w h]; rfl,
      fun p r _ _ hr => dataIn_of_readRequest (by decide) hr _⟩⟩
  | p =>
    obtain ⟨ps, heq⟩ := handleReadSingleRegister_eq cb s
    exact ⟨ps, fun w hcmd h => ⟨by rw [dispatch_p fuel cb hcmd, heq w h], fun p r _ _ hr =>
      dataIn_of_readRequest (by decide) hr _⟩⟩
  | P =>
    obtain ⟨ps, heq⟩ := handleWriteSingleRegister_eq cb s
    exact ⟨ps, fun w hcmd h => ⟨by rw [dispatch_P fuel cb hcmd, heq w h], fun p r _ _ hr =>
      dataIn_of_readRequest (by decide) hr _⟩⟩

end Rv32Gdb
