import Rv32Gdb.Equiv.DebugAccess
import Rv32Gdb.Equiv.StopPackets

/-!
# What the commands write

`IsData` is the text that the data of a packet may consist of: printable, and free of the
characters with a meaning of their own (`#`, `$`, `}` and `*`).  `answers_dispatch`: whatever the
packet, the callbacks and the state, a command writes at most one packet, of at most `4091` such
characters; none if it resumes the target; and only `QStartNoAckMode` changes the acknowledgement
mode.
-/

namespace Rv32Gdb

variable {x : Xlen} {σ : Type}

/-! ### Data characters -/

/-- A printable character that stands for itself in the data of a packet. -/
def isDataChar (c : Byte) : Bool :=
  0x20 ≤ c && c ≤ 0x7e && c != chr '#' && c != chr '$' && c != chr '}' && c != chr '*'

/-- Text of data characters. -/
def IsData (payload : List Byte) : Prop := ∀ c ∈ payload, isDataChar c

instance (payload : List Byte) : Decidable (IsData payload) :=
  decidable_of_iff (payload.all isDataChar) List.all_eq_true

theorem isData_nil : IsData [] := fun _ hc => by cases hc

/-- A literal is looked at character by character. -/
theorem isData_ascii (l : List Char) (h : l.all fun c => isDataChar (chr c)) :
    IsData (ascii (String.ofList l)) := by
  rw [ascii, String.toList_ofList]
  intro b hb
  obtain ⟨c, hc, rfl⟩ := List.mem_map.mp hb
  exact List.all_eq_true.mp h c hc

theorem isData_append {a b : List Byte} : IsData (a ++ b) ↔ IsData a ∧ IsData b :=
  List.forall_mem_append

theorem isDataChar_of_isxdigit {c : Byte} : isxdigit c → isDataChar c :=
  forall_byte (P := fun c => isxdigit c → isDataChar c) (by decide +kernel) c

theorem IsData.take {a : List Byte} (h : IsData a) (n : Nat) : IsData (a.take n) :=
  fun c hc => h c (List.mem_of_mem_take hc)

theorem isData_of_isxdigit {a : List Byte} (h : ∀ c ∈ a, isxdigit c) : IsData a :=
  fun c hc => isDataChar_of_isxdigit (h c hc)

theorem isData_hexText (n : Nat) : IsData (hexText n) :=
  isData_of_isxdigit fun _ hc => isxdigit_hexText hc

theorem isData_hexPad (k n : Nat) : IsData (hexPad k n) := by
  refine isData_append.mpr ⟨fun c hc => ?_, isData_hexText n⟩
  rw [List.eq_of_mem_replicate hc]
  decide

theorem isData_of_hexByte {a : List Byte} (h : ∀ c ∈ a, ∃ b, c ∈ hexByte b) : IsData a :=
  isData_of_isxdigit fun c hc => (h c hc).elim fun b hb => isxdigit_hexByte b c hb

theorem isData_threadIdText (multiprocess : Bool) (tid : Int) :
    IsData (threadIdText multiprocess tid) := by
  refine isData_append.mpr ⟨?_, isData_hexText _⟩
  split_ifs
  · exact isData_append.mpr ⟨isData_append.mpr ⟨isData_ascii _ (by decide), isData_hexText _⟩,
      isData_ascii _ (by decide)⟩
  · exact fun c hc => by cases hc

theorem isData_stopReplyPrefix (multiprocess : Bool) (signal tid : Int) :
    IsData (stopReplyPrefix multiprocess signal tid) := by
  have hsignal : IsData (hexByte (BitVec.ofInt 8 signal)) :=
    isData_of_hexByte fun c hc => ⟨_, hc⟩
  have htid := isData_threadIdText multiprocess tid
  unfold threadIdText at htid
  unfold stopReplyPrefix
  rw [isData_append] at htid
  simp only [isData_append]
  exact ⟨⟨⟨⟨⟨isData_ascii _ (by decide), hsignal⟩, isData_ascii _ (by decide)⟩, htid.1⟩, htid.2⟩,
    isData_ascii _ (by decide)⟩

theorem isData_stopReplyCause (swbreak : Bool) (watchAddr pcAddr : GdbAddr x) :
    IsData (stopReplyCause swbreak watchAddr pcAddr) := by
  unfold stopReplyCause
  split_ifs
  · decide
  · exact isData_append.mpr ⟨isData_append.mpr ⟨isData_ascii _ (by decide), isData_hexPad _ _⟩,
      isData_ascii _ (by decide)⟩
  · exact isData_append.mpr ⟨isData_append.mpr ⟨isData_ascii _ (by decide), isData_hexPad _ _⟩,
      isData_ascii _ (by decide)⟩
  · decide

theorem isData_stopReplyText (d : DebugState x) (signal tid : Int) (addr : GdbAddr x) :
    IsData (stopReplyText d signal tid addr) :=
  isData_append.mpr ⟨isData_stopReplyPrefix _ _ _, isData_stopReplyCause _ _ _⟩

theorem isData_targetXml (x : Xlen) : IsData (targetXml x) := by
  have harch : IsData x.targetArch := by cases x <;> exact isData_ascii _ (by decide)
  unfold targetXml
  simp only [isData_append]
  refine ⟨⟨⟨⟨⟨⟨?_, ?_⟩, ?_⟩, ?_⟩, harch⟩, ?_⟩, ?_⟩ <;> exact isData_ascii _ (by decide)

/-! ### The thread list -/

theorem isData_snprintfAt {cap size : Nat} {a a' : CharArray cap} {text : List Byte}
    (h : a.snprintfAt size text = .ok a') (ha : IsData a.data) (htext : IsData text) :
    IsData a'.data := by
  unfold CharArray.snprintfAt at h
  split_ifs at h
  · rwa [← Except.ok.inj h]
  · obtain ⟨a₁, hpush, hterm⟩ := exists_of_bind_eq_ok h
    obtain ⟨s, -, he⟩ := exists_of_bind_eq_ok hterm
    rw [← Except.ok.inj he, data_of_pushAll hpush]
    exact isData_append.mpr ⟨ha, htext.take _⟩

theorem isData_threadInfoLoop (multiprocess : Bool) {n h pos : Nat}
    {response : CharArray gdbBufferSize} {r : CharArray gdbBufferSize × Nat}
    (hloop : threadInfoLoop multiprocess n h response pos = .ok r)
    (hdata : IsData response.data) : IsData r.1.data := by
  induction n generalizing h response pos with
  | zero =>
    rwa [← Except.ok.inj hloop]
  | succ n ih =>
    rw [threadInfoLoop] at hloop
    split_ifs at hloop
    · obtain ⟨response₁, hprint, hrest⟩ := exists_of_bind_eq_ok hloop
      refine ih hrest (isData_snprintfAt hprint hdata ?_)
      exact isData_append.mpr ⟨isData_ascii _ (by decide), isData_threadIdText _ _⟩
    · rwa [← Except.ok.inj hloop]

theorem isData_threadInfo {multiprocess : Bool} {numHarts : Int} {payload : List Byte}
    (h : threadInfo multiprocess numHarts = .ok payload) : IsData payload := by
  obtain ⟨response, hprint, hrest⟩ := exists_of_bind_eq_ok h
  obtain ⟨r, hloop, he⟩ := exists_of_bind_eq_ok hrest
  have hfirst : IsData response.data := isData_snprintfAt hprint (fun c hc => by cases hc)
    (isData_append.mpr ⟨isData_ascii _ (by decide), isData_threadIdText _ _⟩)
  rw [← Except.ok.inj he]
  split_ifs
  · exact isData_threadInfoLoop multiprocess hloop hfirst
  · decide

/-! ### Answers -/

/-- The packets that the stub may write. -/
def wirePackets : Set (List Byte) :=
  {chunk | ∃ payload, IsData payload ∧ payload.length ≤ 4091 ∧ chunk = frame payload}

/-- What a command does to the connection besides `noAckMode`: it writes a packet or nothing. -/
def WritesReply (s s' : GdbStub) (reply : Option (List Byte)) : Prop :=
  (∀ chunk ∈ reply, chunk ∈ wirePackets) ∧ s'.output = s.output ++ reply.toList

/-- The two connections differ neither in what has been written nor in the acknowledgement mode. -/
structure SameWire (s s' : GdbStub) : Prop where
  output : s'.output = s.output
  noAckMode : s'.noAckMode = s.noAckMode

theorem SameWire.of_eq {s s' : GdbStub} (h : s' = s) : SameWire s s' := h ▸ ⟨rfl, rfl⟩

theorem SameWire.writes {s s' : GdbStub} (h : SameWire s s') : WritesReply s s' none :=
  ⟨fun _ hc => (by cases hc), h.output.trans (List.append_nil _).symm⟩

/-- At most one packet is written, and the acknowledgement mode stays. -/
def Replied (w w' : World x σ) : Prop :=
  (∃ reply, WritesReply w.stub w'.stub reply) ∧ w'.stub.noAckMode = w.stub.noAckMode

theorem writes_sendPacket {s s₁ : GdbStub} {payload : List Byte} (h : s₁.output = s.output)
    (hdata : IsData payload) : ∃ reply, WritesReply s (sendPacket s₁ payload) reply := by
  by_cases hlen : payload.length ≤ 4091
  · refine ⟨some (frame payload), ?_, ?_⟩
    · rintro chunk ⟨⟩
      exact ⟨payload, hdata, hlen, rfl⟩
    · rw [sendPacket_of_le hlen, ← h]
      rfl
  · refine ⟨none, fun _ hc => (by cases hc), ?_⟩
    rw [sendPacket_of_lt (not_le.mp hlen), h]
    exact (List.append_nil _).symm

theorem noAckMode_sendPacket (s : GdbStub) (payload : List Byte) :
    (sendPacket s payload).noAckMode = s.noAckMode := by
  unfold sendPacket
  split_ifs <;> rfl

theorem replied_send {w w₁ : World x σ} {payload : List Byte} (h : SameWire w.stub w₁.stub)
    (hdata : IsData payload) : Replied w (w₁.send payload) :=
  ⟨writes_sendPacket h.output hdata, (noAckMode_sendPacket _ _).trans h.noAckMode⟩

/-- A reply with a literal text. -/
theorem replied_ascii {w w₁ : World x σ} {l : List Char} (h : SameWire w.stub w₁.stub)
    (hl : l.all fun c => isDataChar (chr c)) : Replied w (w₁.send (ascii (String.ofList l))) :=
  replied_send h (isData_ascii l hl)

/-- The reply to what is not supported. -/
theorem replied_nil {w w₁ : World x σ} (h : SameWire w.stub w₁.stub) : Replied w (w₁.send []) :=
  replied_send h isData_nil

theorem replied_sendStopReason {w w₁ : World x σ} (signal : Int) (addr : GdbAddr x)
    (h : SameWire w.stub w₁.stub) : Replied w (gdbStubSendStopReason w₁ signal addr) := by
  have hlen := length_stopReplyText_le w₁.dbg signal w₁.dbg.replyThread addr
  have hdata := isData_stopReplyText w₁.dbg signal w₁.dbg.replyThread addr
  rw [Replied, stub_gdbStubSendStopReason, ← sendPacket_of_le (hlen.trans (by decide))]
  exact replied_send h hdata

/-! ### Queries -/

theorem replied_handleInterrupt (cb : GdbCallbacks x σ) (w : World x σ) :
    Replied w (handleInterrupt cb w) := by
  unfold handleInterrupt
  simp only
  split_ifs <;> exact replied_sendStopReason _ _ (.of_eq (by simp))

theorem isData_formatStopReply (d : DebugState x) (signal tid : Int) (swbreak : Bool)
    (watchAddr pcAddr : GdbAddr x) :
    IsData (formatStopReply d 128 signal tid swbreak watchAddr pcAddr) := by
  rw [formatStopReply_eq]
  exact isData_append.mpr ⟨isData_stopReplyPrefix _ _ _, isData_stopReplyCause _ _ _⟩

theorem replied_handleHaltReason (cb : GdbCallbacks x σ) (w : World x σ) :
    Replied w (handleHaltReason cb w) := by
  unfold handleHaltReason
  simp only
  split_ifs <;> exact replied_send (.of_eq (by simp)) (isData_formatStopReply _ _ _ _ _ _)

theorem replied_searchLoop (cb : GdbCallbacks x σ) (last : GdbAddr x) (pattern : List Byte)
    (fuel : Nat) (addr : GdbAddr x) {w w₁ : World x σ} (h : SameWire w.stub w₁.stub) :
    Keeps (Replied w) (searchLoop cb last pattern fuel addr w₁) := by
  induction fuel generalizing addr w₁ with
  | zero => exact keeps_error
  | succ fuel ih =>
    have hmatch : SameWire w.stub (matchPattern cb addr 0 pattern w₁).2.stub :=
      (stub_matchPattern cb addr 0 pattern w₁) ▸ h
    rw [searchLoop]
    simp only
    split_ifs
    · exact keeps_ok (replied_send hmatch
        (IsData.take (isData_append.mpr ⟨isData_ascii _ (by decide), isData_hexPad _ _⟩) _))
    · exact ih _ hmatch
    · exact keeps_ok (replied_ascii h (by decide))

theorem replied_handleSearchMemory (fuel : Nat) (cb : GdbCallbacks x σ) (w : World x σ) :
    Keeps (Replied w) (handleSearchMemory fuel cb w) := by
  unfold handleSearchMemory
  simp only
  split
  · exact keeps_ok (replied_ascii ⟨rfl, rfl⟩ (by decide))
  · split
    · exact keeps_ok (replied_ascii ⟨rfl, rfl⟩ (by decide))
    · split_ifs
      · exact keeps_ok (replied_ascii ⟨rfl, rfl⟩ (by decide))
      · exact replied_searchLoop cb _ _ _ _ ⟨rfl, rfl⟩

theorem replied_handleQSupported (w : World x σ) : Replied w (handleQSupported w) := by
  unfold handleQSupported
  refine replied_send ⟨rfl, rfl⟩ (isData_append.mpr ⟨?_, ?_⟩) <;> exact isData_ascii _ (by decide)

theorem replied_handleQuery (fuel : Nat) (cb : GdbCallbacks x σ) (w : World x σ) :
    Keeps (Replied w) (handleQuery fuel cb w) := by
  unfold handleQuery
  simp only
  repeat' refine iteInduction (fun _ => ?_) fun _ => ?_
  · exact keeps_ok (replied_handleQSupported w)
  · exact keeps_ok (replied_ascii ⟨rfl, rfl⟩ (by decide))
  · exact keeps_ok (replied_send ⟨rfl, rfl⟩
      (IsData.take (isData_append.mpr ⟨isData_ascii _ (by decide), isData_threadIdText _ _⟩) _))
  · exact keeps_bind fun _ hlist =>
      keeps_ok (replied_send (.of_eq (by simp)) (isData_threadInfo hlist))
  · exact keeps_ok (replied_ascii ⟨rfl, rfl⟩ (by decide))
  · exact keeps_ok (replied_send ⟨rfl, rfl⟩ (isData_targetXml x))
  · exact keeps_ok (replied_ascii ⟨rfl, rfl⟩ (by decide))
  · exact keeps_ok (replied_ascii ⟨rfl, rfl⟩ (by decide))
  · exact replied_handleSearchMemory fuel cb w
  · exact keeps_ok (replied_nil ⟨rfl, rfl⟩)

/-! ### Registers and memory -/

theorem replied_handleReadRegisters (cb : GdbCallbacks x σ) (w : World x σ) :
    Keeps (Replied w) (handleReadRegisters cb w) := by
  refine keeps_bind fun r hloop => keeps_bind fun p hpush => keeps_bind fun response hresponse => ?_
  obtain ⟨hstub, hdigits⟩ := readRegistersLoop_digits hloop (fun c hc => by cases hc)
  refine keeps_ok (replied_send (.of_eq hstub) (isData_of_hexByte fun c hc => ?_))
  rw [eq_data_of_terminate hresponse, data_of_pushAll hpush, List.mem_append] at hc
  rcases hc with hc | hc
  · exact hdigits c hc
  · exact exists_mem_hexByte_encodeHex hc

theorem replied_handleWriteRegisters (cb : GdbCallbacks x σ) (w : World x σ) :
    Keeps (Replied w) (handleWriteRegisters cb w) := by
  refine keeps_bind fun w₁ hloop => keeps_bind fun _ _ => ?_
  have hwire : SameWire w.stub w₁.stub := (stub_writeRegistersLoop hloop) ▸ ⟨rfl, rfl⟩
  exact keeps_ok (replied_ascii hwire (by decide))

theorem replied_sendRegister {w w₁ : World x σ} (value : GdbReg x)
    (h : SameWire w.stub w₁.stub) :
    Keeps (Replied w) (do
      let response ← (CharArray.empty 32).pushAll (encodeHex value x.regHexBytes)
      let response ← response.terminate
      .ok (w₁.send response)) := by
  refine keeps_bind fun p hpush => keeps_bind fun response hresponse => ?_
  refine keeps_ok (replied_send h (isData_of_hexByte fun c hc => ?_))
  rw [eq_data_of_terminate hresponse, data_of_pushAll hpush] at hc
  exact exists_mem_hexByte_encodeHex hc

theorem replied_handleReadSingleRegister (cb : GdbCallbacks x σ) (w : World x σ) :
    Keeps (Replied w) (handleReadSingleRegister cb w) := by
  unfold handleReadSingleRegister
  simp only
  split_ifs
  · exact keeps_ok (replied_ascii ⟨rfl, rfl⟩ (by decide))
  · exact replied_sendRegister _ ⟨rfl, rfl⟩
  · exact replied_sendRegister _ ⟨rfl, rfl⟩

theorem replied_handleWriteSingleRegister (cb : GdbCallbacks x σ) (w : World x σ) :
    Keeps (Replied w) (handleWriteSingleRegister cb w) := by
  unfold handleWriteSingleRegister
  split
  · exact keeps_ok (replied_ascii ⟨rfl, rfl⟩ (by decide))
  · refine keeps_bind fun _ _ => ?_
    split_ifs <;> exact keeps_ok (replied_ascii ⟨rfl, rfl⟩ (by decide))

theorem replied_handleReadMemory (cb : GdbCallbacks x σ) (w : World x σ) :
    Keeps (Replied w) (handleReadMemory cb w) := by
  unfold handleReadMemory
  split
  · exact keeps_ok (replied_ascii ⟨rfl, rfl⟩ (by decide))
  · simp only
    split_ifs
    · exact keeps_ok (replied_ascii ⟨rfl, rfl⟩ (by decide))
    · refine keeps_bind fun r hloop => keeps_bind fun response hresponse => ?_
      obtain ⟨hstub, digits, hdata, -, hdigits⟩ := readMemoryLoop_digits hloop
      have hwire : SameWire w.stub r.1.stub := hstub ▸ ⟨rfl, rfl⟩
      refine keeps_ok (replied_send hwire ?_)
      rw [eq_data_of_terminate hresponse, hdata]
      exact isData_of_hexByte hdigits

theorem replied_handleWriteMemory (cb : GdbCallbacks x σ) (w : World x σ) :
    Keeps (Replied w) (handleWriteMemory cb w) := by
  unfold handleWriteMemory
  split
  · refine keeps_bind fun w₁ hloop => ?_
    have hwire : SameWire w.stub w₁.stub := (stub_writeMemoryLoop hloop) ▸ ⟨rfl, rfl⟩
    exact keeps_ok (replied_ascii hwire (by decide))
  · exact keeps_ok (replied_ascii ⟨rfl, rfl⟩ (by decide))

theorem replied_handleWriteMemoryBinary (cb : GdbCallbacks x σ) (w : World x σ) :
    Keeps (Replied w) (handleWriteMemoryBinary cb w) := by
  unfold handleWriteMemoryBinary
  split
  · simp only
    split_ifs
    · exact keeps_ok (replied_ascii ⟨rfl, rfl⟩ (by decide))
    · refine keeps_bind fun r _ => ?_
      cases r <;> exact keeps_ok (replied_ascii ⟨rfl, rfl⟩ (by decide))
  · exact keeps_ok (replied_ascii ⟨rfl, rfl⟩ (by decide))

/-! ### Breakpoints, reset and threads -/

theorem replied_handleBreakpoint (w : World x σ) (insert : Bool) :
    Replied w (handleBreakpoint w insert) := by
  unfold handleBreakpoint
  simp only
  split
  · exact replied_ascii ⟨rfl, rfl⟩ (by decide)
  · split
    · exact replied_ascii ⟨rfl, rfl⟩ (by decide)
    · split_ifs
      all_goals first
        | exact replied_nil ⟨rfl, rfl⟩
        | exact replied_ascii ⟨rfl, rfl⟩ (by decide)

theorem replied_handleReset (cb : GdbCallbacks x σ) (w : World x σ) :
    Replied w (handleReset cb w) := by
  unfold handleReset
  refine replied_ascii (.of_eq ?_) (by decide)
  cases cb.reset with
  | none => simp [stub_clearRegisters]
  | some reset => simp

theorem replied_handleSetThread (cb : GdbCallbacks x σ) (w : World x σ) :
    Replied w (handleSetThread cb w) := by
  unfold handleSetThread
  simp only
  split_ifs <;> exact replied_ascii (.of_eq (by simp [stub_selectedThread])) (by decide)

theorem replied_handleThreadAlive (cb : GdbCallbacks x σ) (w : World x σ) :
    Replied w (handleThreadAlive cb w) := by
  unfold handleThreadAlive
  simp only
  split_ifs <;> exact replied_ascii (.of_eq (by simp)) (by decide)

/-- `vCont` answers unless it resumes the target, and then it writes nothing. -/
theorem handleVcont_writes {cb : GdbCallbacks x σ} {w w' : World x σ} {run : Bool}
    (h : handleVcont cb w = .ok (run, w')) :
    if run then SameWire w.stub w'.stub else Replied w w' := by
  have hsend : ∀ payload : List Byte, IsData payload →
      (.ok (false, w.send payload) : Result (Bool × World x σ)) = .ok (run, w') →
        if run then SameWire w.stub w'.stub else Replied w w' := by
    intro payload hdata he
    obtain ⟨rfl, rfl⟩ := Prod.mk.inj (Except.ok.inj he)
    exact replied_send ⟨rfl, rfl⟩ hdata
  unfold handleVcont at h
  simp only at h
  split_ifs at h
  · exact hsend _ (isData_ascii _ (by decide)) h
  · exact hsend _ isData_nil h
  · exact hsend _ (isData_ascii _ (by decide)) h
  · obtain ⟨r, hloop, herror⟩ := vcontLoop_eq_ok w.dbg
      (skipSemicolon (w.packetText.drop 5)) ⟨false, -1, -1, false⟩ le_rfl
    rw [hloop] at h
    cases r with
    | reply payload =>
      refine hsend payload ?_ h
      rcases herror payload rfl with rfl | rfl
      · exact isData_ascii _ (by decide)
      · exact isData_nil
    | actions s =>
      simp only [bind, Except.bind] at h
      split at h
      · exact hsend _ (isData_ascii _ (by decide)) h
      · obtain ⟨rfl, rfl⟩ := Prod.mk.inj (Except.ok.inj h)
        exact .of_eq (by simp)

/-! ### The dispatcher -/

/-- The packet asks for no-acknowledgement mode. -/
def asksNoAck (packet : List Byte) : Bool := strncmpEq packet (ascii "QStartNoAckMode")

/-- What a command does to the connection: it writes nothing if it resumes the target and at most
one packet otherwise, and the acknowledgements end with the packet that asks for it. -/
def CommandWrites (w : World x σ) (r : Result (Int × World x σ)) : Prop :=
  ∀ n w', r = .ok (n, w') → (∃ reply, WritesReply w.stub w'.stub reply ∧ (n = 1 → reply = none)) ∧
    w'.stub.noAckMode = (w.stub.noAckMode || asksNoAck w.packetText)

theorem asksNoAck_eq_false {w : World x σ} (h : byteAt w.stub.packetBuffer 0 ≠ chr 'Q') :
    asksNoAck w.packetText = false := by
  by_contra hask
  obtain ⟨t, ht⟩ := List.isPrefixOf_iff_prefix.mp (Bool.not_eq_false _ ▸ hask)
  exact h (byteAt_of_packetText ht.symm).1

theorem commandWrites_of_keeps {w : World x σ} {r : Result (World x σ)}
    (hcmd : byteAt w.stub.packetBuffer 0 ≠ chr 'Q') (h : Keeps (Replied w) r) :
    CommandWrites w (andReturnZero r) := by
  intro n w' he
  cases r with
  | error e => cases he
  | ok w₁ =>
    obtain ⟨rfl, rfl⟩ := Prod.mk.inj (Except.ok.inj he)
    obtain ⟨⟨reply, hreply⟩, hnoAck⟩ := h _ rfl
    exact ⟨⟨reply, hreply, fun hone => absurd hone (by decide)⟩, by
      rw [hnoAck, asksNoAck_eq_false hcmd, Bool.or_false]⟩

theorem commandWrites_handleGeneralSet (w : World x σ) :
    CommandWrites w (andReturnZero (.ok (handleGeneralSet w))) := by
  intro n w' he
  obtain ⟨rfl, rfl⟩ := Prod.mk.inj (Except.ok.inj he)
  unfold handleGeneralSet
  by_cases hask : strncmpEq w.packetText (ascii "QStartNoAckMode")
  · have hwrites : ∃ reply, WritesReply w.stub
        (sendPacket { w.stub with noAckMode := true } (ascii "OK")) reply :=
      writes_sendPacket rfl (isData_ascii _ (by decide))
    obtain ⟨reply, hreply⟩ := hwrites
    rw [if_pos hask, asksNoAck, hask, Bool.or_true]
    exact ⟨⟨reply, hreply, fun hone => absurd hone (by decide)⟩, noAckMode_sendPacket _ _⟩
  · obtain ⟨⟨reply, hreply⟩, hnoAck⟩ := replied_nil (w := w) ⟨rfl, rfl⟩
    rw [if_neg hask, asksNoAck, Bool.eq_false_of_not_eq_true hask, Bool.or_false]
    exact ⟨⟨reply, hreply, fun hone => absurd hone (by decide)⟩, hnoAck⟩

theorem commandWrites_of_sameWire {w w₁ : World x σ} {n : Int}
    (hcmd : byteAt w.stub.packetBuffer 0 ≠ chr 'Q') (h : SameWire w.stub w₁.stub) :
    CommandWrites w (.ok (n, w₁)) := by
  intro m w' he
  obtain ⟨-, rfl⟩ := Prod.mk.inj (Except.ok.inj he)
  exact ⟨⟨none, h.writes, fun _ => rfl⟩, by
    rw [h.noAckMode, asksNoAck_eq_false hcmd, Bool.or_false]⟩

theorem commandWrites_handleVcont (cb : GdbCallbacks x σ) {w : World x σ}
    (hcmd : byteAt w.stub.packetBuffer 0 ≠ chr 'Q') :
    CommandWrites w (do
      let (runCpu, w) ← handleVcont cb w
      .ok (if runCpu then 1 else 0, w)) := by
  intro n w' he
  obtain ⟨⟨run, w₁⟩, hv, he⟩ := exists_of_bind_eq_ok he
  obtain ⟨rfl, rfl⟩ := Prod.mk.inj (Except.ok.inj he)
  have hwrites := handleVcont_writes hv
  cases run with
  | true => exact commandWrites_of_sameWire hcmd hwrites _ _ rfl
  | false => exact commandWrites_of_keeps hcmd (keeps_ok hwrites) _ _ rfl

/-- Every command writes one packet at most, and none if it resumes the target. -/
theorem commandWrites_dispatch (fuel : Nat) (cb : GdbCallbacks x σ) (w : World x σ) :
    CommandWrites w (dispatch fuel cb w) := by
  have hne : ∀ {c : Byte}, byteAt w.stub.packetBuffer 0 = c → c ≠ chr 'Q' →
      byteAt w.stub.packetBuffer 0 ≠ chr 'Q' := fun hc hQ => hc ▸ hQ
  have hzero : ∀ {r : Result (World x σ)}, byteAt w.stub.packetBuffer 0 ≠ chr 'Q' →
      Keeps (Replied w) r → CommandWrites w (andReturnZero r) := commandWrites_of_keeps
  have hok : ∀ {v : World x σ}, Replied w v → Keeps (Replied w) (.ok v) := keeps_ok
  unfold dispatch
  extract_lets cmd
  -- one case for each command, in the order of the `switch`
  repeat' apply iteInduction (motive := CommandWrites w) <;> intro hcmd
  · exact hzero (hne hcmd (by decide)) (hok (replied_handleInterrupt cb w))
  · exact hzero (hne hcmd (by decide)) (hok (replied_handleHaltReason cb w))
  · exact hzero (hne hcmd (by decide)) (replied_handleQuery fuel cb w)
  · exact commandWrites_handleGeneralSet w
  · exact hzero (hne hcmd (by decide)) (replied_handleReadRegisters cb w)
  · exact hzero (hne hcmd (by decide)) (replied_handleWriteRegisters cb w)
  · exact hzero (hne hcmd (by decide)) (replied_handleReadMemory cb w)
  · exact hzero (hne hcmd (by decide)) (replied_handleWriteMemory cb w)
  · exact hzero (hne hcmd (by decide)) (replied_handleReadSingleRegister cb w)
  · exact hzero (hne hcmd (by decide)) (replied_handleWriteSingleRegister cb w)
  · exact hzero (hne hcmd (by decide)) (replied_handleWriteMemoryBinary cb w)
  · exact hzero (hne hcmd (by decide)) (hok (replied_handleReset cb w))
  · exact hzero (hne hcmd (by decide)) (hok (replied_handleSetThread cb w))
  · exact hzero (hne hcmd (by decide)) (hok (replied_handleThreadAlive cb w))
  · exact commandWrites_handleVcont cb (hne ‹cmd = chr 'v'› (by decide))
  · exact hzero (hne ‹cmd = chr 'v'› (by decide)) (hok (replied_nil ⟨rfl, rfl⟩))
  · exact commandWrites_of_sameWire (hne hcmd (by decide)) (.of_eq (by simp [handleContinue]))
  · exact commandWrites_of_sameWire (hne hcmd (by decide)) (.of_eq (by simp [handleStep]))
  · exact hzero (hne hcmd (by decide)) (hok (replied_handleBreakpoint w true))
  · exact hzero (hne hcmd (by decide)) (hok (replied_handleBreakpoint w false))
  · exact commandWrites_of_sameWire (hne hcmd (by decide)) ⟨rfl, rfl⟩
  · obtain ⟨⟨reply, hreply⟩, hnoAck⟩ := replied_send (w := w) ⟨rfl, rfl⟩
      (show IsData (ascii "OK") from isData_ascii _ (by decide))
    intro n w' he
    obtain ⟨rfl, rfl⟩ := Prod.mk.inj (Except.ok.inj he)
    refine ⟨⟨reply, hreply, fun hone => absurd hone (by decide)⟩, ?_⟩
    rw [asksNoAck_eq_false (hne hcmd (by decide)), Bool.or_false]
    exact hnoAck
  · exact hzero ‹¬cmd = chr 'Q'› (hok (replied_nil ⟨rfl, rfl⟩))

end Rv32Gdb
