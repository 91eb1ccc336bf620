import Rv32Gdb.Equiv.Requests
import Rv32Gdb.Equiv.StopPackets

/-!
# Numbers are read exactly or refused

`Asks` says which packets are well formed and what they ask for; the stub does exactly that
(`readRequest_of_asks`).  It also takes malformed fields for numbers, and refuses them only if the
number that comes out is out of range: `readsExactly_iff`.
-/

namespace Rv32Gdb

variable {x : Xlen} {σ : Type}

/-! ### Well-formed packets -/

/-- The hexadecimal digits `s` denote `n`, which fits an unsigned variable of `bits` bits. -/
structure IsField (bits : Nat) (s : List Byte) (n : Nat) : Prop where
  ne_nil : s ≠ []
  digits : ∀ c ∈ s, isxdigit c
  value : hexValue s = n
  fits : n < 2 ^ bits

/-- The text after the command is well formed and asks for a request. -/
inductive Asks (x : Xlen) : NumericPacket → List Byte → Request → Prop
  | m {a l : List Byte} {addr len : Nat} : IsField x.bits a addr → IsField x.bits l len →
      Asks x .m (a ++ chr ',' :: l) (.readMemory addr len)
  | M {a l d : List Byte} {addr len : Nat} : IsField x.bits a addr → IsField x.bits l len →
      Asks x .M (a ++ chr ',' :: (l ++ chr ':' :: d))
        (.writeMemory addr len (a.length + l.length + 3))
  | X {a l d : List Byte} {addr len : Nat} : IsField x.bits a addr → IsField 32 l len →
      Asks x .X (a ++ chr ',' :: (l ++ chr ':' :: d))
        (.writeMemoryBinary addr len (d.takeWhile (· ≠ 0#8)))
  | Z {t a l : List Byte} {type addr len : Nat} : IsField 31 t type → IsField x.bits a addr →
      IsField x.bits l len →
      Asks x .Z (t ++ chr ',' :: (a ++ chr ',' :: l)) (.breakpoint true type addr len)
  | z {t a l : List Byte} {type addr len : Nat} : IsField 31 t type → IsField x.bits a addr →
      IsField x.bits l len →
      Asks x .z (t ++ chr ',' :: (a ++ chr ',' :: l)) (.breakpoint false type addr len)
  | p {s : List Byte} {regNum : Nat} : IsField 31 s regNum → Asks x .p s (.readRegister regNum)
  | P {a v : List Byte} {regNum : Nat} : IsField 31 a regNum → v.length = x.regHexChars →
      (∀ c ∈ v, isxdigit c) →
      Asks x .P (a ++ chr '=' :: v) (.writeRegister regNum (littleEndianValue v))

namespace IsField

variable {bits : Nat} {s : List Byte} {n : Nat}

theorem not_mem (h : IsField bits s n) {c : Byte} (hc : isxdigit c = false) : c ∉ s := fun hmem =>
  Bool.false_ne_true (hc.symm.trans (h.digits c hmem))

theorem storedField_eq (h : IsField x.bits s n) : storedField x s = n := by
  rw [storedField, h.value, Nat.mod_eq_of_lt h.fits]

theorem storedLength_eq (h : IsField 32 s n) : storedLength x s = n := by
  have hle := two_pow_bits_le x
  rw [storedLength, h.value, BitVec.toNat_setWidth, BitVec.toNat_ofNat,
    Nat.mod_eq_of_lt (lt_of_lt_of_le h.fits hle), Nat.mod_eq_of_lt h.fits]

theorem storedInt_eq (h : IsField 31 s n) : storedInt x s = n := by
  have hle := two_pow_bits_le x
  have hfits := h.fits
  rw [storedInt, addrToInt, h.value, BitVec.toInt_setWidth, BitVec.toNat_ofNat,
    Nat.mod_eq_of_lt (by omega), Int.bmod_eq_of_le_mul_two (by omega) (by omega)]

/-- A well-formed field is in front of the NUL of a packet. -/
theorem takeWhile_append (h : IsField bits s n) (l : List Byte) :
    (s ++ l).takeWhile (· ≠ 0#8) = s ++ l.takeWhile (· ≠ 0#8) :=
  List.takeWhile_append_of_pos fun c hc => decide_eq_true (ne_of_isxdigit (h.digits c hc)).2.2.2

theorem takeWhile_eq (h : IsField bits s n) : s.takeWhile (· ≠ 0#8) = s := by
  have := h.takeWhile_append []
  rwa [List.append_nil, List.takeWhile_nil, List.append_nil] at this

end IsField

/-- A separator is no NUL. -/
theorem takeWhile_cons_separator {c : Byte} (hc : c ≠ 0#8) (l : List Byte) :
    (c :: l).takeWhile (· ≠ 0#8) = c :: l.takeWhile (· ≠ 0#8) :=
  List.takeWhile_cons_of_pos (decide_eq_true hc)

theorem memoryFields_append {bits bits' : Nat} {a l : List Byte} {addr len : Nat}
    (ha : IsField bits a addr) (hl : IsField bits' l len) (d : List Byte) :
    memoryFields (a ++ chr ',' :: (l ++ chr ':' :: d)) = some (a, l, d) := by
  have hcolon : chr ':' ∉ a ++ chr ',' :: l := by
    rw [List.mem_append, List.mem_cons, not_or, not_or]
    exact ⟨ha.not_mem (by decide), by decide, hl.not_mem (by decide)⟩
  have hcut := cutAt_append hcolon d
  rw [List.append_assoc, List.cons_append] at hcut
  rw [memoryFields, cutAt_append (ha.not_mem (by decide)), Option.bind_some, hcut, Option.map_some,
    List.take_left, ← List.drop_drop, List.drop_left]
  rfl

theorem readBreakpoint_append {t a l : List Byte} {type addr len : Nat} (insert : Bool)
    (ht : IsField 31 t type) (ha : IsField x.bits a addr) (hl : IsField x.bits l len) :
    readBreakpoint x insert (t ++ chr ',' :: (a ++ chr ',' :: l)) =
      some (.breakpoint insert type addr len) := by
  rw [readBreakpoint, cutAt_append (ht.not_mem (by decide)), Option.bind_some,
    cutAt_append (ha.not_mem (by decide)), Option.map_some, ht.storedInt_eq, ha.storedField_eq,
    hl.storedField_eq]

/-- The numbers of a well-formed packet are read as they are. -/
theorem readRequest_of_asks {k : NumericPacket} {t : List Byte} {r : Request} (h : Asks x k t r) :
    readRequest x k (t.takeWhile (· ≠ 0#8)) = .ok (some r) := by
  have hcomma : chr ',' ≠ 0#8 := by decide
  cases h with
  | m ha hl =>
    rw [ha.takeWhile_append, takeWhile_cons_separator hcomma, hl.takeWhile_eq, readRequest,
      cutAt_append (ha.not_mem (by decide)), Option.map_some, ha.storedField_eq, hl.storedField_eq]
  | M ha hl =>
    rw [ha.takeWhile_append, takeWhile_cons_separator hcomma, hl.takeWhile_append,
      takeWhile_cons_separator (by decide), readRequest, memoryFields_append ha hl,
      Option.map_some, ha.storedField_eq, hl.storedField_eq]
    congr 4
    simp only [List.length_append, List.length_cons]
    omega
  | X ha hl =>
    rw [ha.takeWhile_append, takeWhile_cons_separator hcomma, hl.takeWhile_append,
      takeWhile_cons_separator (by decide), readRequest, memoryFields_append ha hl,
      Option.map_some, ha.storedField_eq, hl.storedLength_eq]
  | Z ht ha hl =>
    rw [ht.takeWhile_append, takeWhile_cons_separator hcomma, ha.takeWhile_append,
      takeWhile_cons_separator hcomma, hl.takeWhile_eq, readRequest,
      readBreakpoint_append true ht ha hl]
  | z ht ha hl =>
    rw [ht.takeWhile_append, takeWhile_cons_separator hcomma, ha.takeWhile_append,
      takeWhile_cons_separator hcomma, hl.takeWhile_eq, readRequest,
      readBreakpoint_append false ht ha hl]
  | p hn => rw [hn.takeWhile_eq, readRequest, hn.storedInt_eq]
  | P hn hlen hv =>
    have hpairs := length_hexPairs (hlen.trans (regHexChars_eq x))
    rw [hn.takeWhile_append, takeWhile_cons_separator (by decide),
      List.takeWhile_eq_self_iff.mpr fun c hc => decide_eq_true (ne_of_isxdigit (hv c hc)).2.2.2,
      readRequest, cutAt_append (hn.not_mem (by decide))]
    simp only
    rw [if_neg (by omega), hn.storedInt_eq]

/-- A well-formed `m` packet consists of digits and a comma. -/
theorem Asks.isxdigit_or_eq {t : List Byte} {r : Request} (h : Asks x .m t r) :
    ∀ c ∈ t, isxdigit c ∨ c = chr ',' := by
  cases h with
  | m ha hl =>
    intro c hc
    rw [List.mem_append, List.mem_cons] at hc
    rcases hc with hc | hc | hc
    · exact Or.inl (ha.digits c hc)
    · exact Or.inr hc
    · exact Or.inl (hl.digits c hc)

/-! ### Refused requests -/

/-- The payloads that report an error. -/
def errorReplies : List (List Byte) := [ascii "E01", ascii "E02", ascii "E03"]

/-- The request is out of range, or the tables refuse it. -/
def Request.Refused (d : DebugState x) : Request → Prop
  | .readMemory _ len => gdbBufferSize / 2 < len
  | .writeMemory _ _ _ => False
  | .writeMemoryBinary _ len data => len = 0 ∨ gdbBufferSize < len ∨
      decodeRspBinary len data (CharArray.empty gdbBufferSize) = .ok none
  | .breakpoint insert type addr len => (breakpointRequest d insert type (BitVec.ofNat x.bits addr)
      (BitVec.ofNat x.bits len)).map Prod.fst = some false
  | .readRegister regNum => regNum < 0 ∨ 32 < regNum
  | .writeRegister regNum _ => regNum < 0 ∨ 32 < regNum

/-- A separator is missing, or the request that is read is refused. -/
def RefusedAsRead (d : DebugState x) : Result (Option Request) → Prop
  | .error _ => False
  | .ok none => True
  | .ok (some r) => r.Refused d

/-- The reply is an error, and nothing else changes. -/
def Fails (w : World x σ) (r : Result (World x σ)) : Prop :=
  ∃ payload ∈ errorReplies, r = .ok (w.send payload)

/-- The reply is an error. -/
def RepliesWithError (w : World x σ) (r : Result (World x σ)) : Prop :=
  ∃ payload ∈ errorReplies, ∃ w', r = .ok w' ∧ w'.stub.output = w.stub.output ++ [frame payload]

theorem output_send_error (w : World x σ) {payload : List Byte} (h : payload ∈ errorReplies) :
    (w.send payload).stub.output = w.stub.output ++ [frame payload] := by
  have hshort : ∀ e ∈ errorReplies, e.length ≤ 4091 := by decide
  exact output_send_of_le w (hshort _ h)

theorem not_repliesWithError_send {w w₁ : World x σ} {payload : List Byte}
    (hout : w₁.stub.output = w.stub.output) (hpayload : payload ∉ errorReplies) :
    ¬RepliesWithError w (.ok (w₁.send payload)) := by
  rintro ⟨e, he, w', hret, hwrite⟩
  obtain rfl := Except.ok.inj hret
  by_cases hlen : payload.length ≤ 4091
  · rw [output_send_of_le _ hlen, hout, List.append_right_inj, List.singleton_inj] at hwrite
    exact hpayload (frame_inj hwrite ▸ he)
  · rw [World.send, sendPacket_of_lt (not_le.mp hlen), hout] at hwrite
    exact absurd (List.self_eq_append_right.mp hwrite) (List.cons_ne_nil _ _)

theorem not_repliesWithError_bind {α : Type} {w : World x σ} {r : Result α}
    {f : α → Result (World x σ)}
    (hf : ∀ a, r = .ok a → ¬RepliesWithError w (f a)) : ¬RepliesWithError w (r >>= f) := by
  cases r with
  | error e =>
    rintro ⟨payload, -, w', hret, -⟩
    cases hret
  | ok a => exact hf a rfl

/-- A reply of digits is no error. -/
theorem not_mem_errorReplies {payload : List Byte} (h : ∀ c ∈ payload, ∃ b, c ∈ hexByte b) :
    payload ∉ errorReplies := by
  have hE : ∀ e ∈ errorReplies, chr 'E' ∈ e := by decide
  intro hmem
  obtain ⟨b, hb⟩ := h _ (hE _ hmem)
  exact ne_of_mem_hexByte hb rfl

/-- A register is answered by its digits. -/
theorem not_repliesWithError_sendRegister {w w₁ : World x σ} (value : GdbReg x)
    (hout : w₁.stub.output = w.stub.output) :
    ¬RepliesWithError w (do
      let response ← (CharArray.empty 32).pushAll (encodeHex value x.regHexBytes)
      let response ← response.terminate
      .ok (w₁.send response)) := by
  refine not_repliesWithError_bind fun p hpush =>
    not_repliesWithError_bind fun response hresponse => ?_
  refine not_repliesWithError_send hout (not_mem_errorReplies fun c hc => ?_)
  rw [eq_data_of_terminate hresponse, data_of_pushAll hpush] at hc
  exact exists_mem_hexByte_encodeHex hc

/-- Tables that refuse are left as they are. -/
theorem eq_of_breakpointRequest {d d' : DebugState x} {insert : Bool} {type : Int}
    {addr len : GdbAddr x} (h : breakpointRequest d insert type addr len = some (false, d')) :
    d' = d := by
  have houtcome : ∀ new : Option (DebugState x), outcome d new = (false, d') → d' = d := by
    intro new h
    rcases outcome_cases d new with h' | h' <;> rw [h] at h'
    · cases h'
    · exact h'
  unfold breakpointRequest at h
  simp only at h
  split_ifs at h <;> exact houtcome _ (Option.some.inj h)

/-- A request fails if it is refused, and is not answered by an error otherwise. -/
theorem perform_cases (cb : GdbCallbacks x σ) (w : World x σ) (r : Request) :
    r.Refused w.dbg ∧ Fails w (perform cb r w) ∨
      ¬r.Refused w.dbg ∧ ¬RepliesWithError w (perform cb r w) := by
  cases r with
  | readMemory addr len =>
    rw [perform, Request.Refused]
    split_ifs with hlen
    · exact Or.inl ⟨hlen, _, by decide, rfl⟩
    · refine Or.inr ⟨hlen, ?_⟩
      -- the reply consists of lower case hex digits, which no error text does
      refine not_repliesWithError_bind fun q hloop =>
        not_repliesWithError_bind fun response hresponse => ?_
      obtain ⟨hstub, digits, hdata, -, hdigits⟩ := readMemoryLoop_digits hloop
      have hout := congrArg GdbStub.output hstub
      refine not_repliesWithError_send hout (not_mem_errorReplies ?_)
      rw [eq_data_of_terminate hresponse, hdata]
      exact hdigits
  | writeMemory addr len data =>
    refine Or.inr ⟨id, ?_⟩
    refine not_repliesWithError_bind fun w₁ hloop => ?_
    have hout := congrArg GdbStub.output (stub_writeMemoryLoop hloop)
    exact not_repliesWithError_send hout (by decide)
  | writeMemoryBinary addr len data =>
    rw [perform, Request.Refused]
    split_ifs with hlen
    · exact Or.inl ⟨or_assoc.mp (Or.inl hlen), _, by decide, rfl⟩
    · -- data that do not stand for `len` bytes are refused too
      cases hdecode : decodeRspBinary len data (CharArray.empty gdbBufferSize) with
      | error e =>
        refine Or.inr ⟨?_, not_repliesWithError_bind fun _ h => by cases h⟩
        rw [← or_assoc, or_iff_right hlen]
        simp
      | ok bytes =>
        cases bytes with
        | none => exact Or.inl ⟨Or.inr (Or.inr rfl), _, by decide, rfl⟩
        | some bytes =>
          refine Or.inr ⟨?_, not_repliesWithError_send rfl (by decide)⟩
          rw [← or_assoc, or_iff_right hlen]
          simp
  | breakpoint insert type addr len =>
    rw [perform, Request.Refused]
    cases hreq : breakpointRequest w.dbg insert type (BitVec.ofNat x.bits addr)
        (BitVec.ofNat x.bits len) with
    | none => exact Or.inr ⟨by simp, not_repliesWithError_send rfl (by decide)⟩
    | some r =>
      obtain ⟨ok, d⟩ := r
      cases ok with
      | true =>
        have hok : ascii "OK" ∉ errorReplies := by decide
        exact Or.inr ⟨by simp, not_repliesWithError_send rfl hok⟩
      | false =>
        obtain rfl := eq_of_breakpointRequest hreq
        exact Or.inl ⟨rfl, ascii "E01", by decide, rfl⟩
  | readRegister regNum =>
    rw [perform, Request.Refused]
    split_ifs with hrange h
    · exact Or.inl ⟨hrange, _, by decide, rfl⟩
    · exact Or.inr ⟨hrange, not_repliesWithError_sendRegister _ rfl⟩
    · exact Or.inr ⟨hrange, not_repliesWithError_sendRegister _ rfl⟩
  | writeRegister regNum value =>
    rw [perform, Request.Refused]
    split_ifs with hrange h
    · exact Or.inl ⟨hrange, _, by decide, rfl⟩
    · exact Or.inr ⟨hrange, not_repliesWithError_send rfl (by decide)⟩
    · exact Or.inr ⟨hrange, not_repliesWithError_send rfl (by decide)⟩

/-- A packet fails if it is refused as it is read, and is not answered by an error otherwise. -/
theorem answer_cases (cb : GdbCallbacks x σ) (w : World x σ) (r : Result (Option Request)) :
    RefusedAsRead w.dbg r ∧ Fails w (answer cb r w) ∨
      ¬RefusedAsRead w.dbg r ∧ ¬RepliesWithError w (answer cb r w) := by
  cases r with
  | error e => exact Or.inr ⟨id, not_repliesWithError_bind fun _ h => by cases h⟩
  | ok r =>
    cases r with
    | none => exact Or.inl ⟨trivial, _, by decide, rfl⟩
    | some r => exact perform_cases cb w r

/-! ### Shifts -/

/-- What is read as a request is answered without a shift by too many bits. -/
theorem avoids_answer (cb : GdbCallbacks x σ) {q : Result (Option Request)}
    (h : ∃ r, q = .ok r) (w : World x σ) :
    Avoids .shiftOverflow (answer cb q w) := by
  obtain ⟨r, rfl⟩ := h
  cases r with
  | none => exact avoids_ok _
  | some r => exact avoids_perform (by decide) cb (Or.inl (by decide)) w

theorem exists_of_refusedAsRead {d : DebugState x} {q : Result (Option Request)}
    (h : RefusedAsRead d q) : ∃ r, q = .ok r := by
  cases q with
  | error e => exact h.elim
  | ok r => exact ⟨r, rfl⟩

/-! ### Main results -/

/-- The next packet has its numbers read exactly or is refused: a malformed packet is answered by an
error and changes nothing, a well-formed one is carried out, and no shift goes too far. -/
structure ReadsExactly (cb : GdbCallbacks x σ) (w : World x σ) (k : NumericPacket)
    (t rest : List Byte) : Prop where
  refuse : (¬∃ r, Asks x k t r) → ∀ fuel, ∃ s' buf, Received w.stub (k.command :: t) rest s' ∧
    ∃ payload ∈ errorReplies, gdbStubProcess fuel cb w =
      .ok (0, (({ w with stub := s' } : World x σ).setBuffer buf).send payload)
  act : ∀ r, Asks x k t r → ∀ fuel, ∃ s' buf, Received w.stub (k.command :: t) rest s' ∧
    r.DataIn buf (k.command :: t) ∧ gdbStubProcess fuel cb w =
      andReturnZero (perform cb r (({ w with stub := s' } : World x σ).setBuffer buf))
  shift : ∀ fuel, gdbStubProcess fuel cb w ≠ .error .shiftOverflow

/-- What is done for the next packet. -/
theorem gdbStubProcess_eq_answer (fuel : Nat) (cb : GdbCallbacks x σ) {w : World x σ}
    {k : NumericPacket} {t rest : List Byte} (hconn : w.stub.connected)
    (hfail : w.stub.consecutiveFailures < 50) (hin : Framed (k.command :: t) rest w.stub.input)
    (hlen : (k.command :: t).length < gdbBufferSize) :
    ∃ s' buf, Received w.stub (k.command :: t) rest s' ∧
      gdbStubProcess fuel cb w = andReturnZero (answer cb (readRequest x k (t.takeWhile (· ≠ 0#8)))
        (({ w with stub := s' } : World x σ).setBuffer buf)) ∧
      ∀ r, readRequest x k (t.takeWhile (· ≠ 0#8)) = .ok (some r) →
        r.DataIn buf (k.command :: t) := by
  obtain ⟨s', hrecv, hproc⟩ := gdbStubProcess_framed fuel cb hconn hfail hin hlen
  obtain ⟨ps, hps⟩ := dispatch_eq_answer fuel cb k (t.takeWhile (· ≠ 0#8))
  obtain ⟨hdispatch, hdata⟩ := hps { w with stub := s' } hrecv.bytes.head
    (cstr_eq_takeWhile hrecv.bytes.tail)
  exact ⟨s', _, hrecv, hproc.trans hdispatch, fun r => hdata _ r hrecv.bytes
    (Nat.succ_le_succ (List.takeWhile_prefix _).length_le)⟩

/-- The numbers of a packet are read exactly or refused if and only if it is well formed or the
numbers that it is read as are refused. -/
theorem readsExactly_iff {cb : GdbCallbacks x σ} {w : World x σ} {k : NumericPacket}
    {t rest : List Byte} (hconn : w.stub.connected) (hfail : w.stub.consecutiveFailures < 50)
    (hin : Framed (k.command :: t) rest w.stub.input)
    (hlen : (k.command :: t).length < gdbBufferSize) :
    ReadsExactly cb w k t rest ↔
      (∃ r, Asks x k t r) ∨ RefusedAsRead w.dbg (readRequest x k (t.takeWhile (· ≠ 0#8))) := by
  have hproc := fun fuel => gdbStubProcess_eq_answer fuel cb hconn hfail hin hlen
  constructor
  · -- a packet that asks for nothing is refused, so it is refused as it is read
    intro h
    by_contra hnot
    rw [not_or] at hnot
    obtain ⟨s₁, buf₁, hrecv₁, payload, hpayload, hret₁⟩ := h.refuse hnot.1 0
    obtain ⟨s₂, buf₂, hrecv₂, hret₂, -⟩ := hproc 0
    rw [hret₁] at hret₂
    set v : World x σ := ({ w with stub := s₂ } : World x σ).setBuffer buf₂ with hv
    rcases answer_cases cb v (readRequest x k (t.takeWhile (· ≠ 0#8))) with h' | h'
    · exact hnot.2 h'.1
    · refine h'.2 ⟨payload, hpayload, _, andReturnZero_eq_ok_iff.mp hret₂.symm, ?_⟩
      rw [output_send_error _ hpayload]
      show s₁.output ++ _ = s₂.output ++ _
      rw [hrecv₁.eq, hrecv₂.eq]
  · intro h
    refine ⟨fun hask fuel => ?_, fun r hr fuel => ?_, fun fuel => ?_⟩
    · obtain ⟨s', buf, hrecv, hret, -⟩ := hproc fuel
      refine ⟨s', buf, hrecv, ?_⟩
      rcases answer_cases cb (({ w with stub := s' } : World x σ).setBuffer buf)
        (readRequest x k (t.takeWhile (· ≠ 0#8))) with ⟨-, payload, hpayload, hfails⟩ | ⟨hnot, -⟩
      · exact ⟨payload, hpayload, by rw [hret, hfails]; rfl⟩
      · exact absurd (h.resolve_left hask) hnot
    · obtain ⟨s', buf, hrecv, hret, hdata⟩ := hproc fuel
      have hread := readRequest_of_asks hr
      refine ⟨s', buf, hrecv, hdata r hread, ?_⟩
      rw [hret, hread]
      rfl
    · obtain ⟨s', buf, -, hret, -⟩ := hproc fuel
      rw [hret]
      refine avoids_bind (avoids_answer cb ?_ _) fun _ => avoids_ok _
      rcases h with ⟨r, hr⟩ | h
      · exact ⟨some r, readRequest_of_asks hr⟩
      · exact exists_of_refusedAsRead h

/-- Reading one byte at `10`. -/
theorem readsExactly_readMemory :
    ReadsExactly (byteMemoryCallbacks .x32) (byteMemoryWorld .x32 (frame (ascii "m10,1"))) .m
      (ascii "10,1") [] :=
  (readsExactly_iff (by decide) (by decide) (framed_frame_nil (by decide)) (by decide)).mpr
    (Or.inl ⟨_, Asks.m (a := ascii "10") (l := ascii "1")
      ⟨by decide, by decide, rfl, by decide⟩ ⟨by decide, by decide, rfl, by decide⟩⟩)

/-- `g` is read as `0`. -/
theorem not_readsExactly_readMemory :
    ¬ReadsExactly (byteMemoryCallbacks .x32) (byteMemoryWorld .x32 (frame (ascii "mg,1"))) .m
      (ascii "g,1") [] := by
  intro h
  have hask : ¬∃ r, Asks .x32 .m (ascii "g,1") r := by
    rintro ⟨r, hr⟩
    exact absurd (hr.isxdigit_or_eq (chr 'g') (by decide)) (by decide)
  obtain ⟨s', buf, -, payload, hpayload, hret⟩ := h.refuse hask 0
  have hout : ((gdbStubProcess 0 (byteMemoryCallbacks .x32)
      (byteMemoryWorld .x32 (frame (ascii "mg,1")))).toOption.bind
        fun r => r.2.stub.output.getLast?) = some (frame (ascii "00")) := by decide +kernel
  rw [hret] at hout
  have hlast := output_send_error (({ byteMemoryWorld .x32 (frame (ascii "mg,1")) with
    stub := s' } : World .x32 (Word → Byte)).setBuffer buf) hpayload
  simp only [Except.toOption, Option.bind_some, hlast, List.getLast?_concat, Option.some.injEq]
    at hout
  exact absurd (frame_inj hout ▸ hpayload) (by decide)

end Rv32Gdb
