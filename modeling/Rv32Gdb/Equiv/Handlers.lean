import Rv32Gdb.Equiv.MemoryWrite
import Rv32Gdb.Equiv.Stuck

/-!
# What the handlers reply

`Replies w r` says that a handler, started in `w`, sends one reply, or gets stuck in something
other than a store outside an array.  Every handler replies, with two exceptions:
`handleReadMemory` for three lengths and `qfThreadInfo` for too many harts
(`handleReadMemory_cases`, `handleThreadInfo_cases`).  `repliesIfZero_dispatch` collects the
commands.
-/

namespace Rv32Gdb

variable {x : Xlen} {σ : Type}

/-- The handler sends exactly one reply, or gets stuck elsewhere than in a store. -/
def Replies (w : World x σ) : Result (World x σ) → Prop
  | .error e => e ≠ .outOfBoundsWrite
  | .ok w' => ∃ payload, w'.stub.output = w.stub.output ++ [frame payload]

theorem replies_send {w w₁ : World x σ} {payload : List Byte}
    (hout : w₁.stub.output = w.stub.output) (h : payload.length ≤ 4091) :
    Replies w (.ok (w₁.send payload)) :=
  ⟨payload, by rw [output_send_of_le w₁ h, hout]⟩

theorem length_snprintf_le (size : Nat) (text : List Byte) :
    (snprintf size text).length ≤ size - 1 := by
  rw [snprintf, List.length_take]
  exact Nat.min_le_left _ _

/-- A reply formatted into a local buffer. -/
theorem replies_send_snprintf {w w₁ : World x σ} {size : Nat} (text : List Byte)
    (hout : w₁.stub.output = w.stub.output) (hsize : size ≤ 4092) :
    Replies w (.ok (w₁.send (snprintf size text))) :=
  replies_send hout (by have := length_snprintf_le size text; omega)

/-- A step that cannot store outside an array, then a reply. -/
theorem replies_bind {α : Type} {w : World x σ} {r : Result α} {f : α → Result (World x σ)}
    (hr : Avoids .outOfBoundsWrite r) (hf : ∀ a, r = .ok a → Replies w (f a)) :
    Replies w (r >>= f) := by
  cases r with
  | error e => exact fun he => hr (he ▸ rfl)
  | ok a => exact hf a rfl

/-! ### Stop replies and queries -/

theorem length_formatStopReply_le (d : DebugState x) (signal tid : Int) (swbreak : Bool)
    (watchAddr pcAddr : GdbAddr x) :
    (formatStopReply d 128 signal tid swbreak watchAddr pcAddr).length ≤ 4091 :=
  (length_snprintf_le _ _).trans (by decide)

theorem replies_gdbStubSendStopReason {w w₁ : World x σ} (signal : Int) (addr : GdbAddr x)
    (hout : w₁.stub.output = w.stub.output) :
    Replies w (.ok (gdbStubSendStopReason w₁ signal addr)) := by
  unfold gdbStubSendStopReason
  simp only
  split_ifs <;> exact replies_send hout (length_formatStopReply_le _ _ _ _ _ _)

theorem replies_handleInterrupt (cb : GdbCallbacks x σ) (w : World x σ) :
    Replies w (.ok (handleInterrupt cb w)) := by
  unfold handleInterrupt
  simp only
  split_ifs <;> exact replies_gdbStubSendStopReason _ _ (by simp)

theorem replies_handleHaltReason (cb : GdbCallbacks x σ) (w : World x σ) :
    Replies w (.ok (handleHaltReason cb w)) := by
  unfold handleHaltReason
  simp only
  split_ifs <;> exact replies_send (by simp) (length_formatStopReply_le _ _ _ _ _ _)

theorem stub_matchPattern (cb : GdbCallbacks x σ) (addr : GdbAddr x) (i : Nat)
    (pattern : List Byte) (w : World x σ) : (matchPattern cb addr i pattern w).2.stub = w.stub := by
  induction pattern using List.twoStepInduction generalizing i w with
  | nil => rfl
  | singleton c => rfl
  | cons_cons hi lo rest ih _ =>
    rw [matchPattern]
    simp only
    split_ifs
    · rfl
    · rw [ih]
      rfl

theorem replies_searchLoop (cb : GdbCallbacks x σ) (last : GdbAddr x) (pattern : List Byte)
    (fuel : Nat) (addr : GdbAddr x) {w w₁ : World x σ} (hout : w₁.stub.output = w.stub.output) :
    Replies w (searchLoop cb last pattern fuel addr w₁) := by
  induction fuel generalizing addr w₁ with
  | zero => exact (by decide : Stuck.outOfFuel ≠ .outOfBoundsWrite)
  | succ fuel ih =>
    have hstub := stub_matchPattern cb addr 0 pattern w₁
    rw [searchLoop]
    simp only
    split_ifs
    · exact replies_send_snprintf _ (by rw [hstub, hout]) (by decide)
    · exact ih _ (by rw [hstub, hout])
    · exact replies_send hout (by decide)

theorem replies_handleSearchMemory (fuel : Nat) (cb : GdbCallbacks x σ) (w : World x σ) :
    Replies w (handleSearchMemory fuel cb w) := by
  unfold handleSearchMemory
  simp only
  split
  · exact replies_send rfl (by decide)
  · split
    · exact replies_send rfl (by decide)
    · split_ifs
      · exact replies_send rfl (by decide)
      · exact replies_searchLoop cb _ _ fuel _ rfl

/-! ### The thread list -/

/-- The length of the list entries that `threadInfoLoop` writes for `n` harts from `h` on. -/
def threadIdsLength (multiprocess : Bool) : Nat → Nat → Nat
  | 0, _ => 0
  | n + 1, h => 1 + (threadIdText multiprocess h).length + threadIdsLength multiprocess n (h + 1)

theorem threadIdsLength_mono (multiprocess : Bool) {n m : Nat} (h : Nat) (hnm : n ≤ m) :
    threadIdsLength multiprocess n h ≤ threadIdsLength multiprocess m h := by
  induction n generalizing m h with
  | zero => exact Nat.zero_le _
  | succ n ih =>
    obtain ⟨m, rfl⟩ := Nat.exists_eq_add_of_le' (show 1 ≤ m by omega)
    have := ih (m := m) (h + 1) (by omega)
    rw [threadIdsLength, threadIdsLength]
    omega

/-- The loop either appends all entries or fills the buffer up to its terminator. -/
theorem threadInfoLoop_eq (multiprocess : Bool) (n h : Nat) (response : CharArray gdbBufferSize)
    {pos : Nat} (hpos : 0 < pos) (hlen : response.data.length = min pos (gdbBufferSize - 1)) :
    ∃ response' pos', threadInfoLoop multiprocess n h response pos = .ok (response', pos') ∧
      0 < pos' ∧ response.data <+: response'.data ∧ response'.data.length =
        min (pos + threadIdsLength multiprocess n h) (gdbBufferSize - 1) := by
  induction n generalizing h response pos with
  | zero => exact ⟨response, pos, rfl, hpos, List.prefix_rfl, hlen⟩
  | succ n ih =>
    rw [threadInfoLoop]
    by_cases hroom : pos < gdbBufferSize
    · obtain ⟨r, hr, hdata⟩ := response.snprintfAt_of_le (gdbBufferSize - pos)
        (ascii "," ++ threadIdText multiprocess h) (by omega) (by omega)
      have htext : (ascii "," ++ threadIdText multiprocess h).length =
          1 + (threadIdText multiprocess h).length := by
        rw [List.length_append]
        rfl
      obtain ⟨response', pos', hloop, hpos', hfront, hlen'⟩ := ih (h + 1) r
        (show 0 < pos + (ascii "," ++ threadIdText multiprocess h).length by omega) (by
          rw [hdata, List.length_append, List.length_take]
          omega)
      refine ⟨response', pos', ?_, hpos', ?_, ?_⟩
      · rw [if_pos ⟨hpos, hroom⟩]
        simp only [hr]
        exact hloop
      · exact (hdata ▸ List.prefix_append _ _).trans hfront
      · rw [hlen', threadIdsLength, htext]
        omega
    · refine ⟨response, pos, if_neg fun hc => hroom hc.2, hpos, List.prefix_rfl, ?_⟩
      omega

/-- The most harts for which the thread list fits the send buffer. -/
def threadInfoLimit (multiprocess : Bool) : Nat := if multiprocess then 623 else 1090

theorem threadIdsLength_add (multiprocess : Bool) (n m h : Nat) :
    threadIdsLength multiprocess (n + m) h =
      threadIdsLength multiprocess n h + threadIdsLength multiprocess m (h + n) := by
  induction n generalizing h with
  | zero => rw [Nat.zero_add, threadIdsLength, Nat.zero_add, Nat.add_zero]
  | succ n ih =>
    rw [Nat.add_right_comm, threadIdsLength, threadIdsLength, ih, Nat.add_assoc h,
      Nat.add_comm 1 n, ← Nat.add_assoc]

/-- The entries of the threads whose ids have `d + 1` digits. -/
theorem threadIdsLength_of_digits (multiprocess : Bool) {n h d : Nat} (hlow : 16 ^ d ≤ h)
    (hhigh : h + n ≤ 16 ^ (d + 1)) (hint : h + n ≤ 2 ^ 32) :
    threadIdsLength multiprocess n h = n * ((if multiprocess then 4 else 1) + (d + 1)) := by
  induction n generalizing h with
  | zero => rw [threadIdsLength, Nat.zero_mul]
  | succ n ih =>
    have hpos : 0 < 16 ^ d := Nat.pow_pos (by decide)
    have hdigits : (hexTextInt (h : Int)).length = d + 1 := by
      have hh : ((h : Int) % 2 ^ 32).toNat = h := by omega
      rw [hexTextInt, hh, hexText, if_neg (by omega), List.length_map, List.length_reverse,
        Nat.length_digits 16 h (by decide) (by omega),
        (Nat.log_eq_iff (Or.inr ⟨by decide, by omega⟩)).mpr ⟨hlow, by omega⟩]
    rw [threadIdsLength, ih (by omega) (by omega) (by omega), threadIdText, List.length_append,
      hdigits, Nat.succ_mul, Nat.add_comm, ← Nat.add_assoc 1]
    congr 2
    cases multiprocess <;> rfl

/-- The list of `threadInfoLimit` threads fits, and with one entry more it does not. -/
theorem threadIdsLength_threadInfoLimit (multiprocess : Bool) :
    (if multiprocess then 5 else 2) +
        threadIdsLength multiprocess (threadInfoLimit multiprocess - 1) 2 ≤ 4091 ∧
      4091 < (if multiprocess then 5 else 2) +
        threadIdsLength multiprocess (threadInfoLimit multiprocess) 2 := by
  -- the ids with one, two and three digits
  have hlen : ∀ n, 254 ≤ n → n < 4094 → threadIdsLength multiprocess n 2 =
      14 * ((if multiprocess then 4 else 1) + 1) + (240 * ((if multiprocess then 4 else 1) + 2) +
        (n - 254) * ((if multiprocess then 4 else 1) + 3)) := by
    intro n hlow hhigh
    obtain ⟨n, rfl⟩ := Nat.exists_eq_add_of_le hlow
    rw [show 254 + n = 14 + (240 + n) by omega, threadIdsLength_add, threadIdsLength_add,
      threadIdsLength_of_digits multiprocess (d := 0) (by decide) (by decide) (by decide),
      threadIdsLength_of_digits multiprocess (d := 1) (by decide) (by decide) (by decide),
      threadIdsLength_of_digits multiprocess (d := 2) (by decide) (by omega) (by omega)]
    rw [show 14 + (240 + n) - 254 = n by omega]
  have hlimit : threadInfoLimit multiprocess = if multiprocess then 623 else 1090 := rfl
  rw [hlen _ (by split_ifs at hlimit <;> omega) (by split_ifs at hlimit <;> omega),
    hlen _ (by split_ifs at hlimit <;> omega) (by split_ifs at hlimit <;> omega), hlimit]
  cases multiprocess <;> decide

/-- The reply to `qfThreadInfo` begins with `m`, and it fits the send buffer up to
`threadInfoLimit` harts. -/
theorem threadInfo_eq (multiprocess : Bool) (numHarts : Int) :
    ∃ payload, threadInfo multiprocess numHarts = .ok payload ∧
      payload.head? = some (chr 'm') ∧
      (payload.length ≤ 4091 ↔ numHarts ≤ threadInfoLimit multiprocess) := by
  set first := ascii "m" ++ threadIdText multiprocess 1 with hfirst
  have hfirstlen : first.length = if multiprocess then 5 else 2 := by
    cases multiprocess <;> decide
  have hfirstpos : 0 < first.length := by
    rw [hfirstlen]
    split_ifs <;> decide
  obtain ⟨response, hresponse, hdata⟩ := (CharArray.empty gdbBufferSize).snprintfAt_of_le
    gdbBufferSize first (by decide) (by simp [CharArray.empty])
  obtain ⟨response', pos', hloop, hpos', hfront, hlen'⟩ := threadInfoLoop_eq multiprocess
    (numHarts - 1).toNat 2 response hfirstpos (by
      rw [hdata, List.length_append, List.length_take, Nat.min_comm]
      exact Nat.zero_add _)
  refine ⟨response'.data, ?_, ?_, ?_⟩
  · unfold threadInfo
    simp only [← hfirst, hresponse, bind, Except.bind, hloop]
    rw [if_pos hpos']
  · obtain ⟨text, htext⟩ := hfront
    rw [← htext, hdata]
    rfl
  · rw [hlen']
    -- the two lengths around the limit, and monotonicity
    obtain ⟨hlow, hhigh⟩ := threadIdsLength_threadInfoLimit multiprocess
    rw [← hfirstlen] at hlow hhigh
    have hlimit : 1 ≤ threadInfoLimit multiprocess := by
      cases multiprocess <;> decide
    rw [gdbBufferSize]
    constructor
    · intro h
      by_contra hn
      have := threadIdsLength_mono multiprocess 2
        (show threadInfoLimit multiprocess ≤ (numHarts - 1).toNat by omega)
      omega
    · intro h
      have := threadIdsLength_mono multiprocess 2
        (show (numHarts - 1).toNat ≤ threadInfoLimit multiprocess - 1 by omega)
      omega

theorem replies_handleQSupported (w : World x σ) : Replies w (.ok (handleQSupported w)) :=
  replies_send rfl (by decide)

/-- The branch of `handle_query` for `qfThreadInfo`. -/
def handleThreadInfo (cb : GdbCallbacks x σ) (w : World x σ) : Result (World x σ) := do
  let (numHarts, w) := w.callOpt cb.getNumHarts 1
  let response ← threadInfo w.dbg.multiprocessActive numHarts
  .ok (w.send response)

theorem length_targetXml_le (x : Xlen) : (targetXml x).length ≤ 4091 := by
  simp only [targetXml, ascii, List.length_append, List.length_map, String.length_toList]
  cases x <;> decide

/-- `handle_query` replies, unless it is asked for a thread list. -/
theorem replies_handleQuery (fuel : Nat) (cb : GdbCallbacks x σ) {w : World x σ}
    (h : ¬strncmpEq w.packetText (ascii "qfThreadInfo")) : Replies w (handleQuery fuel cb w) := by
  unfold handleQuery
  simp only [if_neg h]
  repeat' refine iteInduction (fun _ => ?_) fun _ => ?_
  · exact replies_handleQSupported w
  · exact replies_send rfl (by decide)
  · exact replies_send_snprintf _ rfl (by decide)
  · exact replies_send rfl (by decide)
  · exact replies_send rfl (length_targetXml_le x)
  · exact replies_send rfl (by decide)
  · exact replies_send rfl (by decide)
  · exact replies_handleSearchMemory fuel cb w
  · exact replies_send rfl (by decide)

theorem handleQuery_threadInfo (fuel : Nat) (cb : GdbCallbacks x σ) {w : World x σ}
    (h : strncmpEq w.packetText (ascii "qfThreadInfo")) :
    handleQuery fuel cb w = handleThreadInfo cb w := by
  obtain ⟨t, ht⟩ := List.isPrefixOf_iff_prefix.mp h
  have hne : ∀ s ∈ [ascii "qSupported", ascii "qAttached", ascii "qC"],
      strncmpEq w.packetText s = false := by
    rw [← ht]
    intro s hs
    simp only [List.mem_cons, List.not_mem_nil, or_false] at hs
    rcases hs with rfl | rfl | rfl <;> rfl
  unfold handleQuery
  simp only [hne _ (List.mem_cons_self), hne (ascii "qAttached") (by simp),
    hne (ascii "qC") (by simp), h, if_true, Bool.false_eq_true, if_false]
  rfl

/-- The thread list is sent if and only if it fits the send buffer. -/
theorem handleThreadInfo_cases (cb : GdbCallbacks x σ) (w : World x σ) :
    let r := w.callOpt cb.getNumHarts 1
    ∃ payload, handleThreadInfo cb w = .ok (r.2.send payload) ∧
      payload.head? = some (chr 'm') ∧
      (payload.length ≤ 4091 ↔ r.1 ≤ threadInfoLimit r.2.dbg.multiprocessActive) := by
  intro r
  obtain ⟨payload, hok, hhead, hlen⟩ := threadInfo_eq r.2.dbg.multiprocessActive r.1
  refine ⟨payload, ?_, hhead, hlen⟩
  unfold handleThreadInfo
  show (do let response ← threadInfo r.2.dbg.multiprocessActive r.1; _) = _
  rw [hok]
  rfl

/-! ### Registers -/

theorem length_encodeHex (value : GdbReg x) (bytes : Nat) :
    (encodeHex value bytes).length = 2 * bytes := by
  unfold encodeHex
  induction bytes with
  | zero => rfl
  | succ n ih =>
    rw [List.range_succ, List.flatMap_append, List.length_append, ih, List.flatMap_singleton,
      length_hexByte]
    omega

theorem regHexBytes_le (x : Xlen) : x.regHexBytes ≤ 8 := by cases x <;> decide

theorem readRegistersLoop_eq (cb : GdbCallbacks x σ) (is : List Nat) (w : World x σ)
    (p : CharArray gdbBufferSize)
    (hroom : p.data.length + 2 * x.regHexBytes * is.length ≤ gdbBufferSize) :
    ∃ w' p', readRegistersLoop cb is w p = .ok (w', p') ∧ w'.stub = w.stub ∧
      p'.data.length = p.data.length + 2 * x.regHexBytes * is.length := by
  induction is generalizing w p with
  | nil => exact ⟨w, p, rfl, rfl, by simp⟩
  | cons i is ih =>
    rw [List.length_cons, Nat.mul_succ] at hroom
    set r := w.call fun c t => cb.readReg c t i
    obtain ⟨p₁, hpush, hdata⟩ := p.pushAll_of_le (encodeHex r.1 x.regHexBytes) (by
      rw [length_encodeHex]
      omega)
    have hlen₁ : p₁.data.length = p.data.length + 2 * x.regHexBytes := by
      rw [hdata, List.length_append, length_encodeHex]
    obtain ⟨w', p', hloop, hstub, hlen⟩ := ih r.2 p₁ (by omega)
    refine ⟨w', p', ?_, hstub, by rw [hlen, hlen₁, List.length_cons, Nat.mul_succ]; omega⟩
    rw [readRegistersLoop]
    show (do let p ← p.pushAll (encodeHex r.1 x.regHexBytes); readRegistersLoop cb is r.2 p) = _
    rw [hpush]
    exact hloop

theorem CharArray.terminate_of_lt {cap : Nat} (a : CharArray cap) (h : a.data.length < cap) :
    a.terminate = .ok a.data := if_pos h

theorem replies_handleReadRegisters (cb : GdbCallbacks x σ) (w : World x σ) :
    Replies w (handleReadRegisters cb w) := by
  have hbytes := regHexBytes_le x
  obtain ⟨w₁, p₁, hloop, hstub, hlen⟩ := readRegistersLoop_eq cb (List.range 32) w
    (CharArray.empty gdbBufferSize) (by
      simp only [CharArray.empty, List.length_nil, List.length_range, gdbBufferSize]
      omega)
  simp only [CharArray.empty, List.length_nil, List.length_range, Nat.zero_add] at hlen
  obtain ⟨p₂, hpush, hdata⟩ := p₁.pushAll_of_le (encodeHex (w₁.call cb.getPc).1 x.regHexBytes) (by
    rw [length_encodeHex]
    show _ ≤ 4096
    omega)
  have hlen₂ : p₂.data.length ≤ 4091 := by
    rw [hdata, List.length_append, length_encodeHex]
    omega
  have hok : handleReadRegisters cb w = .ok ((w₁.call cb.getPc).2.send p₂.data) := by
    unfold handleReadRegisters
    rw [hloop]
    show (do let p ← p₁.pushAll (encodeHex (w₁.call cb.getPc).1 x.regHexBytes); _) = _
    rw [hpush]
    show (do let response ← p₂.terminate; _) = _
    rw [p₂.terminate_of_lt (hlen₂.trans_lt (by decide))]
    rfl
  rw [hok]
  exact replies_send (by rw [World.stub_call, hstub]) hlen₂

theorem stub_writeRegistersLoop {cb : GdbCallbacks x σ} {is : List Nat} {w w' : World x σ}
    (h : writeRegistersLoop cb is w = .ok w') : w'.stub = w.stub := by
  induction is generalizing w with
  | nil => rw [← Except.ok.inj h]
  | cons i is ih =>
    rw [writeRegistersLoop] at h
    cases hparse : parseHexLe x (cstr w.stub.packetBuffer (1 + i * x.regHexChars))
        x.regHexChars with
    | error e =>
      rw [hparse] at h
      cases h
    | ok value =>
      rw [hparse] at h
      have hstub := ih (w := w.act fun c t => cb.writeReg c t i value) h
      exact hstub

theorem replies_handleWriteRegisters (cb : GdbCallbacks x σ) (w : World x σ) :
    Replies w (handleWriteRegisters cb w) := by
  refine replies_bind (avoids_writeRegistersLoop (by decide) _ _ _) fun w₁ h₁ => ?_
  refine replies_bind (avoids_parseHexLe (by decide) _ _) fun pc _ => ?_
  exact replies_send (by rw [World.stub_act, stub_writeRegistersLoop h₁]) (by decide)

/-- A register value fits the response buffer of `handle_read_single_register`. -/
theorem replies_sendRegister {w w₁ : World x σ} (value : GdbReg x)
    (hout : w₁.stub.output = w.stub.output) :
    Replies w (do
      let response ← (CharArray.empty 32).pushAll (encodeHex value x.regHexBytes)
      let response ← response.terminate
      .ok (w₁.send response)) := by
  have hbytes := regHexBytes_le x
  obtain ⟨p, hpush, hdata⟩ := (CharArray.empty 32).pushAll_of_le (encodeHex value x.regHexBytes)
    (by rw [length_encodeHex]; simp only [CharArray.empty, List.length_nil]; omega)
  have hlen : p.data.length = 2 * x.regHexBytes := by
    rw [hdata, List.length_append, length_encodeHex]
    exact Nat.zero_add _
  rw [hpush]
  show Replies w (do let response ← p.terminate; _)
  rw [p.terminate_of_lt (by omega)]
  exact replies_send hout (by omega)

theorem replies_handleReadSingleRegister (cb : GdbCallbacks x σ) (w : World x σ) :
    Replies w (handleReadSingleRegister cb w) := by
  unfold handleReadSingleRegister
  simp only
  split_ifs
  · exact replies_send rfl (by decide)
  · exact replies_sendRegister _ rfl
  · exact replies_sendRegister _ rfl

theorem replies_handleWriteSingleRegister (cb : GdbCallbacks x σ) (w : World x σ) :
    Replies w (handleWriteSingleRegister cb w) := by
  unfold handleWriteSingleRegister
  split
  · exact replies_send rfl (by decide)
  · refine replies_bind (avoids_parseHexLe (by decide) _ _) fun value _ => ?_
    split_ifs <;> exact replies_send rfl (by decide)

/-! ### Memory -/

theorem readMemoryLoop_eq (cb : GdbCallbacks x σ) (addr : GdbAddr x) (n i : Nat) (w : World x σ)
    (p : CharArray gdbBufferSize) (hroom : p.data.length + 2 * n ≤ gdbBufferSize) :
    ∃ w' p', readMemoryLoop cb addr n i w p = .ok (w', p') ∧ w'.stub = w.stub ∧
      p'.data.length = p.data.length + 2 * n := by
  induction n generalizing i w p with
  | zero => exact ⟨w, p, rfl, rfl, rfl⟩
  | succ n ih =>
    set r := w.call fun c t => cb.readMem c t (addr + BitVec.ofNat x.bits i) 1
    obtain ⟨p₁, hpush, hdata⟩ := p.pushAll_of_le (hexByte (r.1.setWidth 8)) (by
      rw [length_hexByte]
      omega)
    have hlen₁ : p₁.data.length = p.data.length + 2 := by
      rw [hdata, List.length_append, length_hexByte]
    obtain ⟨w', p', hloop, hstub, hlen⟩ := ih (i + 1) r.2 p₁ (by omega)
    refine ⟨w', p', ?_, hstub, by omega⟩
    rw [readMemoryLoop]
    show (do let p ← p.pushAll (hexByte (r.1.setWidth 8)); readMemoryLoop cb addr n (i + 1) r.2 p)
      = _
    rw [hpush]
    exact hloop

/-- `handle_read_memory`, by the length it is asked for: the reply of `2046` and `2047` bytes is
built but too long to be sent, and the terminator of the reply of `2048` bytes is stored outside
the response buffer. -/
theorem handleReadMemory_cases (cb : GdbCallbacks x σ) {w : World x σ} {addr len : List Byte}
    (h : cstr w.stub.packetBuffer 1 = addr ++ chr ',' :: len) (hcomma : chr ',' ∉ addr) :
    let n := hexValue len % 2 ^ x.bits
    (n = 2048 → handleReadMemory cb w = .error .outOfBoundsWrite) ∧
      (n = 2046 ∨ n = 2047 → ∃ w', handleReadMemory cb w = .ok w' ∧
        w'.stub.output = w.stub.output) ∧
      (n ≤ 2045 ∨ 2048 < n → ∃ w', handleReadMemory cb w = .ok w' ∧
        ∃ payload, w'.stub.output = w.stub.output ++ [frame payload]) := by
  intro n
  obtain ⟨comma, hfind, hpos, haddr, hlen⟩ := strchr_cut (by decide) h hcomma
  set buf := setByte w.stub.packetBuffer comma 0 with hbuf
  have hn : (parseHex x len len.length).toNat = n := by
    rw [parseHex_eq, List.take_length, BitVec.toNat_ofNat]
  by_cases hbig : n > gdbBufferSize / 2
  · have hbody : handleReadMemory cb w = .ok ((w.setBuffer buf).send (ascii "E02")) := by
      unfold handleReadMemory
      simp only [hfind]
      rw [← hbuf, haddr, hlen 0, hn, if_pos hbig]
    have hbig' : 2048 < n := hbig
    refine ⟨fun _ => by omega, fun _ => by omega, fun _ => ⟨_, hbody, ascii "E02", ?_⟩⟩
    exact output_send_of_le _ (by decide)
  -- 2048 bytes pass the check, but leave no room for the terminator
  have hsmall : n ≤ 2048 := not_lt.mp hbig
  obtain ⟨w₁, p₁, hloop, hstub, hp⟩ := readMemoryLoop_eq cb (parseHex x addr (comma - 1)) n 0
    (w.setBuffer buf) (CharArray.empty gdbBufferSize) (by
      show 0 + 2 * n ≤ 4096
      omega)
  have hbody : handleReadMemory cb w = (do
      let response ← p₁.terminate
      .ok (w₁.send response)) := by
    unfold handleReadMemory
    simp only [hfind]
    rw [← hbuf, haddr, hlen 0, hn, if_neg hbig, hloop]
    rfl
  have hp' : p₁.data.length = 2 * n := hp.trans (Nat.zero_add _)
  have hout : w₁.stub.output = w.stub.output := by
    rw [hstub]
    rfl
  have hfits : n ≤ 2047 → handleReadMemory cb w = .ok (w₁.send p₁.data) := by
    intro h
    rw [hbody, p₁.terminate_of_lt (by rw [hp', gdbBufferSize]; omega)]
    rfl
  refine ⟨fun h => ?_, fun h => ⟨_, hfits (by omega), ?_⟩,
    fun h => ⟨_, hfits (by omega), p₁.data, ?_⟩⟩
  · rw [hbody, CharArray.terminate, if_neg (by rw [hp', gdbBufferSize]; omega)]
    rfl
  · rw [World.send, sendPacket_of_lt (by omega)]
    exact hout
  · rw [output_send_of_le _ (by omega), hout]

theorem replies_handleWriteMemory (cb : GdbCallbacks x σ) (w : World x σ) :
    Replies w (handleWriteMemory cb w) := by
  unfold handleWriteMemory
  split
  · refine replies_bind (avoids_writeMemoryLoop (by decide) _ _ _ _ _ _) fun w₁ h₁ => ?_
    exact replies_send (by rw [stub_writeMemoryLoop h₁]; rfl) (by decide)
  · exact replies_send rfl (by decide)

/-- The decoder stores at most `dstLen` bytes. -/
theorem decodeRspBinary_ne_outOfBoundsWrite {cap dstLen : Nat} (hcap : dstLen ≤ cap)
    (src : List Byte) (dst : CharArray cap) :
    decodeRspBinary dstLen src dst ≠ .error .outOfBoundsWrite := by
  -- one case for each way through an iteration; three of them store
  fun_induction decodeRspBinary dstLen src dst
  case case3 dst hroom prev count rest hlast n ih =>
    obtain ⟨dst', hpush, -⟩ := dst.pushAll_of_le (List.replicate n prev)
      (by rw [List.length_replicate]; omega)
    rw [hpush]
    exact ih dst'
  case case6 dst hroom e rest hstar ih =>
    obtain ⟨dst', hpush, -⟩ := dst.push_of_lt (e ^^^ 0x20) (by omega)
    rw [hpush]
    exact ih dst'
  case case7 c rest dst hroom hstar hbrace ih =>
    obtain ⟨dst', hpush, -⟩ := dst.push_of_lt c (by omega)
    rw [hpush]
    exact ih dst'
  all_goals exact avoids_ok _

theorem replies_handleWriteMemoryBinary (cb : GdbCallbacks x σ) (w : World x σ) :
    Replies w (handleWriteMemoryBinary cb w) := by
  unfold handleWriteMemoryBinary
  split
  · simp only
    split_ifs with hlen
    · exact replies_send rfl (by decide)
    · refine replies_bind (decodeRspBinary_ne_outOfBoundsWrite (by omega) _ _) fun r _ => ?_
      cases r <;> exact replies_send rfl (by decide)
  · exact replies_send rfl (by decide)

/-! ### Breakpoints, reset and threads -/

theorem replies_handleBreakpoint (w : World x σ) (insert : Bool) :
    Replies w (.ok (handleBreakpoint w insert)) := by
  have hreply : ∀ ok : Bool, (if ok then ascii "OK" else ascii "E01").length ≤ 4091 := by decide
  unfold handleBreakpoint
  simp only
  split
  · exact replies_send rfl (by decide)
  · split
    · exact replies_send rfl (by decide)
    · split_ifs <;> exact replies_send rfl (by first | exact hreply _ | decide)

theorem stub_clearRegisters (cb : GdbCallbacks x σ) (is : List Nat) (w : World x σ) :
    (clearRegisters cb is w).stub = w.stub := by
  induction is generalizing w with
  | nil => rfl
  | cons i is ih => rw [clearRegisters, ih, World.stub_act]

theorem replies_handleReset (cb : GdbCallbacks x σ) (w : World x σ) :
    Replies w (.ok (handleReset cb w)) := by
  unfold handleReset
  refine replies_send ?_ (by decide)
  cases cb.reset with
  | none => simp [stub_clearRegisters]
  | some reset => simp

theorem replies_handleGeneralSet (w : World x σ) : Replies w (.ok (handleGeneralSet w)) := by
  unfold handleGeneralSet
  split_ifs <;> exact replies_send rfl (by decide)

theorem stub_selectedThread (cb : GdbCallbacks x σ) (w : World x σ) (tid : Int) :
    (selectedThread cb w tid).2.stub = w.stub := by
  unfold selectedThread
  simp only
  split_ifs <;> simp

theorem replies_handleSetThread (cb : GdbCallbacks x σ) (w : World x σ) :
    Replies w (.ok (handleSetThread cb w)) := by
  unfold handleSetThread
  simp only
  split_ifs <;> exact replies_send (by simp [stub_selectedThread]) (by decide)

theorem replies_handleThreadAlive (cb : GdbCallbacks x σ) (w : World x σ) :
    Replies w (.ok (handleThreadAlive cb w)) := by
  unfold handleThreadAlive
  simp only
  split_ifs <;> exact replies_send (by simp) (by decide)

/-! ### `vCont` -/

theorem length_skipSignal_le (action : Byte) (actions : List Byte) :
    (skipSignal action actions).length ≤ actions.length := by
  unfold skipSignal
  split_ifs with h
  · split
    · split_ifs <;> simp
      omega
    · exact le_rfl
  · exact le_rfl

theorem length_skipSemicolon_le (actions : List Byte) :
    (skipSemicolon actions).length ≤ actions.length := by
  cases actions with
  | nil => exact le_rfl
  | cons c rest =>
    rw [skipSemicolon]
    split_ifs <;> simp

/-- A thread id that is accepted fits `spec_buf`. -/
theorem vcontSpec_cases (actions : List Byte) :
    vcontSpec actions = .ok none ∨
      ∃ ids next, vcontSpec actions = .ok (some (ids, next)) ∧ next.length ≤ actions.length := by
  cases actions with
  | nil => exact Or.inr ⟨_, _, rfl, le_rfl⟩
  | cons c spec =>
    simp only [vcontSpec]
    split_ifs with hc hlen
    · exact Or.inl rfl
    · obtain ⟨p, hpush, hdata⟩ := (CharArray.empty 32).pushAll_of_le
        (spec.takeWhile (· ≠ chr ';')) (by simp only [CharArray.empty, List.length_nil]; omega)
      have hfits : p.data.length < 32 := by
        rw [hdata]
        simpa [CharArray.empty] using hlen
      rw [hpush]
      refine Or.inr ⟨parseThreadSpec p.data, spec.dropWhile (· ≠ chr ';'), ?_, ?_⟩
      · show (do let spec ← p.terminate; _) = _
        rw [p.terminate_of_lt hfits]
        rfl
      · exact (List.dropWhile_sublist _).length_le.trans (Nat.le_succ _)
    · exact Or.inr ⟨_, _, rfl, le_rfl⟩

theorem eq_of_vcontAction {d : DebugState x} {action : Byte} {pid tid : Int} {s : VcontState}
    {payload : List Byte} (h : vcontAction d action pid tid s = .reply payload) :
    payload = ascii "E01" ∨ payload = [] := by
  unfold vcontAction at h
  simp only at h
  split_ifs at h
  all_goals
    obtain rfl := VcontOutcome.reply.inj h
    decide

/-- The action loop ends, with an error if with a reply. -/
theorem vcontLoop_eq_ok (d : DebugState x) {fuel : Nat} (actions : List Byte) (s : VcontState)
    (h : actions.length ≤ fuel) :
    ∃ r, vcontLoop d fuel actions s = .ok r ∧ ∀ payload, r = .reply payload →
      payload = ascii "E01" ∨ payload = [] := by
  have hE01 : ∀ payload, VcontOutcome.reply (ascii "E01") = .reply payload →
      payload = ascii "E01" ∨ payload = [] :=
    fun payload he => Or.inl (VcontOutcome.reply.inj he).symm
  induction fuel generalizing actions s with
  | zero =>
    obtain rfl := List.length_eq_zero_iff.mp (Nat.le_zero.mp h)
    exact ⟨_, rfl, nofun⟩
  | succ fuel ih =>
    cases actions with
    | nil => exact ⟨_, rfl, nofun⟩
    | cons action actions =>
      rw [vcontLoop]
      rcases vcontSpec_cases (skipSignal action actions) with hspec | ⟨ids, next, hspec, hlen⟩
      · rw [hspec]
        exact ⟨_, rfl, hE01⟩
      · rw [hspec]
        have hskip := length_skipSignal_le action actions
        have hsemi := length_skipSemicolon_le next
        rw [List.length_cons] at h
        simp only [bind, Except.bind]
        split_ifs
        · exact ⟨_, rfl, hE01⟩
        · split
          · next payload hact =>
            refine ⟨_, rfl, fun payload' he => ?_⟩
            obtain rfl := VcontOutcome.reply.inj he
            exact eq_of_vcontAction hact
          · exact ih _ _ (by omega)

/-- `handle_vcont` replies, or runs the target without a reply. -/
theorem handleVcont_cases (cb : GdbCallbacks x σ) (w : World x σ) :
    ∃ run w', handleVcont cb w = .ok (run, w') ∧ (run = false → Replies w (.ok w')) := by
  have hreply : ∀ payload : List Byte, payload.length ≤ 4091 →
      ∃ run w', (.ok (false, w.send payload) : Result (Bool × World x σ)) = .ok (run, w') ∧
        (run = false → Replies w (.ok w')) :=
    fun payload h => ⟨false, _, rfl, fun _ => replies_send rfl h⟩
  unfold handleVcont
  simp only
  split_ifs
  · exact hreply _ (by decide)
  · exact hreply _ (by decide)
  · exact hreply _ (by decide)
  · obtain ⟨r, hloop, herror⟩ := vcontLoop_eq_ok w.dbg
      (skipSemicolon (w.packetText.drop 5)) ⟨false, -1, -1, false⟩ le_rfl
    rw [hloop]
    cases r with
    | reply payload =>
      refine hreply payload ?_
      rcases herror payload rfl with rfl | rfl <;> decide
    | actions s =>
      simp only [bind, Except.bind]
      split
      · exact hreply _ (by decide)
      · exact ⟨true, _, rfl, nofun⟩

/-! ### The dispatcher -/

theorem andReturnZero_eq_ok_iff {r : Result (World x σ)} {w : World x σ} :
    andReturnZero r = .ok (0, w) ↔ r = .ok w := by
  cases r with
  | error e => exact iff_of_false (fun h => by cases h) fun h => by cases h
  | ok v =>
    refine ⟨fun h => ?_, fun h => by rw [h]; rfl⟩
    rw [(Prod.mk.inj (Except.ok.inj h)).2]

/-- `Replies` for the commands: what matters is whether `0` is returned. -/
def RepliesIfZero (w : World x σ) (r : Result (Int × World x σ)) : Prop :=
  r ≠ .error .outOfBoundsWrite ∧
    ∀ w', r = .ok (0, w') → ∃ payload, w'.stub.output = w.stub.output ++ [frame payload]

theorem repliesIfZero_andReturnZero {w : World x σ} {r : Result (World x σ)} (h : Replies w r) :
    RepliesIfZero w (andReturnZero r) := by
  cases r with
  | error e => exact ⟨fun he => h (Except.error.inj he), fun w' he => by cases he⟩
  | ok w₁ =>
    refine ⟨fun he => (by cases he), fun w' he => ?_⟩
    obtain rfl : w₁ = w' := congrArg Prod.snd (Except.ok.inj he)
    exact h

theorem repliesIfZero_of_ne {w w₁ : World x σ} {n : Int} (hn : n ≠ 0) :
    RepliesIfZero w (.ok (n, w₁)) :=
  ⟨nofun, fun _ he => absurd (congrArg Prod.fst (Except.ok.inj he)) hn⟩

/-- Every command replies if it returns `0`, except for memory reads and thread lists. -/
theorem repliesIfZero_dispatch (fuel : Nat) (cb : GdbCallbacks x σ) {w : World x σ}
    (hm : byteAt w.stub.packetBuffer 0 ≠ chr 'm')
    (hq : ¬strncmpEq w.packetText (ascii "qfThreadInfo")) :
    RepliesIfZero w (dispatch fuel cb w) := by
  have hzero : ∀ {r : Result (World x σ)}, Replies w r → RepliesIfZero w (andReturnZero r) :=
    repliesIfZero_andReturnZero
  unfold dispatch
  extract_lets cmd
  -- one case for each command, in the order of the `switch`
  repeat' apply iteInduction (motive := RepliesIfZero w) <;> intro hcmd
  · exact hzero (replies_handleInterrupt cb w)
  · exact hzero (replies_handleHaltReason cb w)
  · exact hzero (replies_handleQuery fuel cb hq)
  · exact hzero (replies_handleGeneralSet w)
  · exact hzero (replies_handleReadRegisters cb w)
  · exact hzero (replies_handleWriteRegisters cb w)
  · exact absurd hcmd hm
  · exact hzero (replies_handleWriteMemory cb w)
  · exact hzero (replies_handleReadSingleRegister cb w)
  · exact hzero (replies_handleWriteSingleRegister cb w)
  · exact hzero (replies_handleWriteMemoryBinary cb w)
  · exact hzero (replies_handleReset cb w)
  · exact hzero (replies_handleSetThread cb w)
  · exact hzero (replies_handleThreadAlive cb w)
  · obtain ⟨run, w', hok, hfalse⟩ := handleVcont_cases cb w
    rw [hok]
    cases run with
    | true => exact repliesIfZero_of_ne (by decide)
    | false => exact hzero (hfalse rfl)
  · exact hzero (replies_send rfl (by decide))
  · exact repliesIfZero_of_ne (by decide)
  · exact repliesIfZero_of_ne (by decide)
  · exact hzero (replies_handleBreakpoint w true)
  · exact hzero (replies_handleBreakpoint w false)
  · exact repliesIfZero_of_ne (by decide)
  · exact repliesIfZero_of_ne (by decide)
  · exact hzero (replies_send rfl (by decide))

theorem dispatch_m (fuel : Nat) (cb : GdbCallbacks x σ) {w : World x σ}
    (h : byteAt w.stub.packetBuffer 0 = chr 'm') :
    dispatch fuel cb w = andReturnZero (handleReadMemory cb w) := by
  unfold dispatch
  simp only [h]
  rfl

/-- The first character of a text that is not empty is in front of the rest. -/
theorem byteAt_of_packetText {w : World x σ} {c : Byte} {t : List Byte}
    (h : w.packetText = c :: t) :
    byteAt w.stub.packetBuffer 0 = c ∧ cstr w.stub.packetBuffer 1 = t := by
  rw [World.packetText, cstr_eq] at h
  split_ifs at h
  exact List.cons.inj h

theorem handleQuery_searchMemory (fuel : Nat) (cb : GdbCallbacks x σ) {w : World x σ}
    (h : strncmpEq w.packetText (ascii "qSearch:memory:")) :
    handleQuery fuel cb w = handleSearchMemory fuel cb w := by
  obtain ⟨t, ht⟩ := List.isPrefixOf_iff_prefix.mp h
  unfold handleQuery
  simp only [← ht]
  rfl

theorem dispatch_searchMemory (fuel : Nat) (cb : GdbCallbacks x σ) {w : World x σ}
    (h : strncmpEq w.packetText (ascii "qSearch:memory:")) :
    dispatch fuel cb w = andReturnZero (handleSearchMemory fuel cb w) := by
  obtain ⟨t, ht⟩ := List.isPrefixOf_iff_prefix.mp h
  have hq : byteAt w.stub.packetBuffer 0 = chr 'q' := (byteAt_of_packetText ht.symm).1
  rw [← handleQuery_searchMemory fuel cb h]
  unfold dispatch
  simp only [hq]
  rfl

theorem dispatch_threadInfo (fuel : Nat) (cb : GdbCallbacks x σ) {w : World x σ}
    (h : strncmpEq w.packetText (ascii "qfThreadInfo")) :
    dispatch fuel cb w = andReturnZero (handleThreadInfo cb w) := by
  obtain ⟨t, ht⟩ := List.isPrefixOf_iff_prefix.mp h
  have hq : byteAt w.stub.packetBuffer 0 = chr 'q' := (byteAt_of_packetText ht.symm).1
  rw [← handleQuery_threadInfo fuel cb h]
  unfold dispatch
  simp only [hq]
  rfl

end Rv32Gdb
