import Rv32Gdb.Equiv.Invariant
import Rv32Gdb.Equiv.Execution

/-!
# Error replies

`unchanged_of_errorReply`: a packet that is answered by an error or by the empty reply changes
neither the target nor the debug state nor the mode of acknowledgement, and does not resume the
target.
-/

namespace Rv32Gdb

variable {x : Xlen} {σ : Type}

/-- The replies that say that a command has failed or is not supported. -/
def IsErrorReply (payload : List Byte) : Prop :=
  payload = ascii "E01" ∨ payload = ascii "E02" ∨ payload = ascii "E03" ∨ payload = []

instance : DecidablePred IsErrorReply := fun _ => inferInstanceAs (Decidable (_ ∨ _ ∨ _ ∨ _))

theorem frame_inj {p q : List Byte} (h : frame p = frame q) : p = q :=
  (List.append_inj' (List.cons.inj h).2 (by simp [length_hexByte])).1

/-! ### What a handler does -/

/-- Neither the target nor the debug state nor the mode of acknowledgement has changed. -/
def Unchanged (w w' : World x σ) : Prop :=
  w'.toTarget = w.toTarget ∧ w'.stub.noAckMode = w.stub.noAckMode

/-- What has been written is no error. -/
def WritesNoError (w w' : World x σ) : Prop :=
  ∃ new, w'.stub.output = w.stub.output ++ new ∧
    ∀ payload, IsErrorReply payload → frame payload ∉ new

theorem writesNoError_of_output_eq {w w' : World x σ} (h : w'.stub.output = w.stub.output) :
    WritesNoError w w' :=
  ⟨[], by rw [h, List.append_nil], fun _ _ => List.not_mem_nil⟩

theorem writesNoError_of_write {w w' : World x σ} {q : List Byte}
    (h : w'.stub.output = w.stub.output ++ [frame q]) (hq : ¬IsErrorReply q) :
    WritesNoError w w' :=
  ⟨[frame q], h, fun _ hpayload hmem =>
    hq (frame_inj (List.mem_singleton.mp hmem) ▸ hpayload)⟩

/-- Sending a reply that is no error. -/
theorem writesNoError_send {w w₁ : World x σ} {payload : List Byte}
    (h : w₁.stub.output = w.stub.output) (hpayload : ¬IsErrorReply payload) :
    WritesNoError w (w₁.send payload) := by
  by_cases hlen : payload.length ≤ 4091
  · refine writesNoError_of_write ?_ hpayload
    rw [output_send_of_le _ hlen, h]
  · refine writesNoError_of_output_eq ?_
    rw [World.send, sendPacket_of_lt (not_le.mp hlen)]
    exact h

theorem unchanged_send {w w₁ : World x σ} (h : Unchanged w w₁) (payload : List Byte) :
    Unchanged w (w₁.send payload) := by
  refine ⟨h.1, ?_⟩
  unfold World.send sendPacket
  split_ifs <;> exact h.2

/-- A handler that fails changes nothing. -/
def ErrorsKeep (w : World x σ) (r : Result (World x σ)) : Prop :=
  ∀ w', r = .ok w' → Unchanged w w' ∨ WritesNoError w w'

theorem errorsKeep_ok {w w' : World x σ} (h : Unchanged w w' ∨ WritesNoError w w') :
    ErrorsKeep w (.ok w') := fun _ he => Except.ok.inj he ▸ h

theorem errorsKeep_error {w : World x σ} {e : Stuck} : ErrorsKeep w (.error e) :=
  fun _ he => nomatch he

/-- A reply without an effect. -/
theorem errorsKeep_send {w w₁ : World x σ} (payload : List Byte) (h : Unchanged w w₁) :
    ErrorsKeep w (.ok (w₁.send payload)) := errorsKeep_ok (Or.inl (unchanged_send h payload))

/-- A reply that is no error. -/
theorem errorsKeep_send_of_not {w w₁ : World x σ} {payload : List Byte}
    (h : w₁.stub.output = w.stub.output) (hpayload : ¬IsErrorReply payload) :
    ErrorsKeep w (.ok (w₁.send payload)) := errorsKeep_ok (Or.inr (writesNoError_send h hpayload))

theorem errorsKeep_bind {α : Type} {w : World x σ} {r : Result α} {f : α → Result (World x σ)}
    (hf : ∀ a, r = .ok a → ErrorsKeep w (f a)) : ErrorsKeep w (r >>= f) := by
  cases r with
  | error e => exact errorsKeep_error
  | ok a => exact hf a rfl

/-- A payload whose first character is not `E` is no error. -/
theorem not_isErrorReply_cons {c : Byte} (hc : c ≠ chr 'E') (payload : List Byte) :
    ¬IsErrorReply (c :: payload) := by
  rintro (h | h | h | h)
  · exact hc (List.cons.inj h).1
  · exact hc (List.cons.inj h).1
  · exact hc (List.cons.inj h).1
  · cases h

/-! ### Stop replies and queries -/

/-- A stop reply begins with `T`. -/
theorem not_isErrorReply_stopReply (multiprocess : Bool) (signal tid : Int) (cause : List Byte) :
    ¬IsErrorReply (stopReplyPrefix multiprocess signal tid ++ cause) := by
  have hfront : ∃ text, stopReplyPrefix multiprocess signal tid = chr 'T' :: text := by
    simp [stopReplyPrefix, ascii]
  obtain ⟨text, htext⟩ := hfront
  rw [htext, List.cons_append]
  exact not_isErrorReply_cons (by decide) _

theorem writesNoError_gdbStubSendStopReason {w w₁ : World x σ} (signal : Int) (addr : GdbAddr x)
    (h : w₁.stub = w.stub) : WritesNoError w (gdbStubSendStopReason w₁ signal addr) := by
  refine writesNoError_of_write ?_ (not_isErrorReply_stopReply w₁.dbg.multiprocessActive signal
    w₁.dbg.replyThread (stopReplyCause w₁.dbg.breakpointHit w₁.dbg.lastWatchpointAddr addr))
  rw [stub_gdbStubSendStopReason, h]
  rfl

theorem errorsKeep_handleInterrupt (cb : GdbCallbacks x σ) (w : World x σ) :
    ErrorsKeep w (.ok (handleInterrupt cb w)) := by
  refine errorsKeep_ok (Or.inr ?_)
  unfold handleInterrupt
  simp only
  split_ifs <;> exact writesNoError_gdbStubSendStopReason _ _ (by simp)

theorem errorsKeep_handleHaltReason (cb : GdbCallbacks x σ) (w : World x σ) :
    ErrorsKeep w (.ok (handleHaltReason cb w)) := by
  have hstop : ∀ (d : DebugState x) (signal tid : Int) (swbreak : Bool) (a b : GdbAddr x),
      ¬IsErrorReply (formatStopReply d 128 signal tid swbreak a b) := by
    intro d signal tid swbreak a b
    rw [formatStopReply_eq]
    exact not_isErrorReply_stopReply _ _ _ _
  unfold handleHaltReason
  simp only
  split_ifs <;> exact errorsKeep_send_of_not rfl (hstop _ _ _ _ _ _)

/-- The reply of a search that has found something. -/
theorem not_isErrorReply_found (text : List Byte) :
    ¬IsErrorReply (snprintf 48 (ascii "1," ++ text)) :=
  not_isErrorReply_cons (c := chr '1') (by decide) ((chr ',' :: text).take 46)

theorem errorsKeep_searchLoop (cb : GdbCallbacks x σ) (last : GdbAddr x) (pattern : List Byte)
    (fuel : Nat) (addr : GdbAddr x) {w w₁ : World x σ} (h : w₁.stub.output = w.stub.output) :
    ErrorsKeep w (searchLoop cb last pattern fuel addr w₁) := by
  induction fuel generalizing addr w₁ with
  | zero => exact errorsKeep_error
  | succ fuel ih =>
    have hmatch := congrArg GdbStub.output (stub_matchPattern cb addr 0 pattern w₁)
    rw [searchLoop]
    simp only
    split_ifs
    · exact errorsKeep_send_of_not (hmatch.trans h) (not_isErrorReply_found _)
    · exact ih _ (hmatch.trans h)
    · exact errorsKeep_send_of_not h (by decide)

theorem errorsKeep_handleSearchMemory (fuel : Nat) (cb : GdbCallbacks x σ) (w : World x σ) :
    ErrorsKeep w (handleSearchMemory fuel cb w) := by
  unfold handleSearchMemory
  simp only
  split
  · exact errorsKeep_send _ ⟨rfl, rfl⟩
  · split
    · exact errorsKeep_send _ ⟨rfl, rfl⟩
    · split_ifs
      · exact errorsKeep_send _ ⟨rfl, rfl⟩
      · exact errorsKeep_searchLoop cb _ _ _ _ rfl

theorem errorsKeep_handleQSupported (w : World x σ) :
    ErrorsKeep w (.ok (handleQSupported w)) := by
  unfold handleQSupported
  exact errorsKeep_send_of_not rfl (not_isErrorReply_cons (c := chr 'P') (by decide) _)

theorem errorsKeep_handleQuery (fuel : Nat) (w : EmuWorld) :
    ErrorsKeep w (handleQuery fuel emuCallbacks w) := by
  unfold handleQuery
  repeat' refine iteInduction (fun _ => ?_) fun _ => ?_
  · exact errorsKeep_handleQSupported w
  · exact errorsKeep_send _ ⟨rfl, rfl⟩
  · exact errorsKeep_send _ ⟨rfl, rfl⟩
  · exact errorsKeep_bind fun _ _ => errorsKeep_send _ ⟨rfl, rfl⟩
  · exact errorsKeep_send _ ⟨rfl, rfl⟩
  · exact errorsKeep_send _ ⟨rfl, rfl⟩
  · exact errorsKeep_send _ ⟨rfl, rfl⟩
  · exact errorsKeep_send _ ⟨rfl, rfl⟩
  · exact errorsKeep_handleSearchMemory fuel _ w
  · exact errorsKeep_send _ ⟨rfl, rfl⟩

theorem errorsKeep_handleGeneralSet (w : World x σ) : ErrorsKeep w (.ok (handleGeneralSet w)) := by
  unfold handleGeneralSet
  split_ifs
  · exact errorsKeep_send_of_not rfl (by decide)
  · exact errorsKeep_send _ ⟨rfl, rfl⟩

/-! ### Registers and memory -/

theorem readRegistersLoop_emuCallbacks {is : List Nat} {w w' : EmuWorld}
    {p p' : CharArray gdbBufferSize} (hloop : readRegistersLoop emuCallbacks is w p = .ok (w', p')) :
    w' = w := by
  induction is generalizing p with
  | nil => exact (Prod.mk.inj (Except.ok.inj hloop)).1.symm
  | cons i is ih =>
    have hbody : (p.pushAll (encodeHex (x := .x32) (gdbReadReg w.toTarget i) Xlen.x32.regHexBytes)
        >>= readRegistersLoop emuCallbacks is w) = .ok (w', p') := hloop
    cases hpush : p.pushAll (encodeHex (x := .x32) (gdbReadReg w.toTarget i)
        Xlen.x32.regHexBytes) with
    | error e =>
      rw [hpush] at hbody
      cases hbody
    | ok p₁ =>
      rw [hpush] at hbody
      exact ih hbody

theorem errorsKeep_handleReadRegisters (w : EmuWorld) :
    ErrorsKeep w (handleReadRegisters emuCallbacks w) := by
  refine errorsKeep_bind fun r hr => errorsKeep_bind fun _ _ => errorsKeep_bind fun _ _ => ?_
  obtain ⟨w', p'⟩ := r
  obtain rfl := readRegistersLoop_emuCallbacks hr
  exact errorsKeep_send _ ⟨rfl, rfl⟩

theorem errorsKeep_handleWriteRegisters (cb : GdbCallbacks x σ) (w : World x σ) :
    ErrorsKeep w (handleWriteRegisters cb w) := by
  refine errorsKeep_bind fun w₁ hloop => errorsKeep_bind fun _ _ => ?_
  have hstub := congrArg GdbStub.output (stub_writeRegistersLoop hloop)
  exact errorsKeep_send_of_not hstub (by decide)

theorem errorsKeep_handleReadSingleRegister (w : EmuWorld) :
    ErrorsKeep w (handleReadSingleRegister emuCallbacks w) := by
  unfold handleReadSingleRegister
  simp only
  split_ifs
  · exact errorsKeep_send _ ⟨rfl, rfl⟩
  · exact errorsKeep_bind fun _ _ => errorsKeep_bind fun _ _ => errorsKeep_send _ ⟨rfl, rfl⟩
  · exact errorsKeep_bind fun _ _ => errorsKeep_bind fun _ _ => errorsKeep_send _ ⟨rfl, rfl⟩

theorem errorsKeep_handleWriteSingleRegister (cb : GdbCallbacks x σ) (w : World x σ) :
    ErrorsKeep w (handleWriteSingleRegister cb w) := by
  unfold handleWriteSingleRegister
  split
  · exact errorsKeep_send _ ⟨rfl, rfl⟩
  · refine errorsKeep_bind fun _ _ => ?_
    split_ifs
    · exact errorsKeep_send _ ⟨rfl, rfl⟩
    · exact errorsKeep_send_of_not rfl (by decide)
    · exact errorsKeep_send_of_not rfl (by decide)

theorem data_of_pushAll {cap : Nat} {a a' : CharArray cap} {s : List Byte}
    (h : a.pushAll s = .ok a') : a'.data = a.data ++ s := by
  induction s generalizing a with
  | nil =>
    obtain rfl := Except.ok.inj h
    rw [List.append_nil]
  | cons c s ih =>
    rw [CharArray.pushAll, CharArray.push] at h
    split_ifs at h
    · rw [ih h, List.append_assoc]
      rfl
    · cases h

theorem ne_of_mem_hexByte {b c : Byte} (hc : c ∈ hexByte b) : c ≠ chr 'E' := by
  have hdigit : ∀ {v : Byte}, v.toNat < 16 → intToHex v ≠ chr 'E' := by
    have hall : ∀ n < 16, intToHex (BitVec.ofNat 8 n) ≠ chr 'E' := by decide +kernel
    intro v hv
    have := hall v.toNat hv
    rwa [BitVec.ofNat_toNat, BitVec.setWidth_eq] at this
  rw [hexByte, List.mem_pair] at hc
  rcases hc with rfl | rfl
  · exact hdigit (toNat_high_lt b)
  · exact hdigit (toNat_low_lt b)

/-- The reply of a memory read consists of the digits of bytes. -/
theorem readMemoryLoop_digits {cb : GdbCallbacks x σ} {addr : GdbAddr x} {n i : Nat}
    {w w' : World x σ} {p p' : CharArray gdbBufferSize}
    (hloop : readMemoryLoop cb addr n i w p = .ok (w', p')) :
    w'.stub = w.stub ∧ ∃ digits, p'.data = p.data ++ digits ∧ digits.length = 2 * n ∧
      ∀ c ∈ digits, ∃ b, c ∈ hexByte b := by
  induction n generalizing i w p with
  | zero =>
    obtain ⟨rfl, rfl⟩ := Prod.mk.inj (Except.ok.inj hloop)
    exact ⟨rfl, [], (List.append_nil _).symm, rfl, nofun⟩
  | succ n ih =>
    set r := w.call fun c t => cb.readMem c t (addr + BitVec.ofNat x.bits i) 1 with hr
    have hbody : (p.pushAll (hexByte (r.1.setWidth 8)) >>= readMemoryLoop cb addr n (i + 1) r.2) =
        .ok (w', p') := hloop
    cases hpush : p.pushAll (hexByte (r.1.setWidth 8)) with
    | error e =>
      rw [hpush] at hbody
      cases hbody
    | ok p₁ =>
      rw [hpush] at hbody
      obtain ⟨hstub, digits, hdata, hlen, hdigits⟩ := ih hbody
      refine ⟨hstub, hexByte (r.1.setWidth 8) ++ digits, ?_, ?_, fun c hc => ?_⟩
      · rw [hdata, data_of_pushAll hpush, List.append_assoc]
      · rw [List.length_append, hlen, length_hexByte]
        omega
      · rcases List.mem_append.mp hc with hc | hc
        · exact ⟨_, hc⟩
        · exact hdigits c hc

theorem errorsKeep_handleReadMemory (cb : GdbCallbacks x σ) (w : World x σ) :
    ErrorsKeep w (handleReadMemory cb w) := by
  unfold handleReadMemory
  split
  · exact errorsKeep_send _ ⟨rfl, rfl⟩
  · simp only
    split_ifs
    · exact errorsKeep_send _ ⟨rfl, rfl⟩
    · generalize BitVec.toNat (parseHex x _ _) = n
      refine errorsKeep_bind fun r hr => errorsKeep_bind fun response hresponse => ?_
      obtain ⟨w', p'⟩ := r
      -- nothing is read for the empty reply
      cases n with
      | zero =>
        obtain ⟨rfl, rfl⟩ := Prod.mk.inj (Except.ok.inj hr)
        exact errorsKeep_send _ ⟨rfl, rfl⟩
      | succ n =>
        obtain ⟨hstub, digits, hdata, hlen, hdigits⟩ := readMemoryLoop_digits hr
        have hout := congrArg GdbStub.output hstub
        have hresponse' : response = digits := by
          rw [CharArray.terminate] at hresponse
          split_ifs at hresponse
          rw [← Except.ok.inj hresponse, hdata]
          rfl
        refine errorsKeep_send_of_not hout ?_
        rw [hresponse']
        cases digits with
        | nil => exact absurd hlen (by simp)
        | cons c digits =>
          obtain ⟨b, hc⟩ := hdigits c List.mem_cons_self
          exact not_isErrorReply_cons (ne_of_mem_hexByte hc) _

theorem errorsKeep_handleWriteMemory (cb : GdbCallbacks x σ) (w : World x σ) :
    ErrorsKeep w (handleWriteMemory cb w) := by
  unfold handleWriteMemory
  split
  · refine errorsKeep_bind fun w₁ hloop => ?_
    have hstub := congrArg GdbStub.output (stub_writeMemoryLoop hloop)
    exact errorsKeep_send_of_not hstub (by decide)
  · exact errorsKeep_send _ ⟨rfl, rfl⟩

theorem errorsKeep_handleWriteMemoryBinary (cb : GdbCallbacks x σ) (w : World x σ) :
    ErrorsKeep w (handleWriteMemoryBinary cb w) := by
  unfold handleWriteMemoryBinary
  split
  · simp only
    split_ifs
    · exact errorsKeep_send _ ⟨rfl, rfl⟩
    · refine errorsKeep_bind fun r _ => ?_
      cases r with
      | none => exact errorsKeep_send _ ⟨rfl, rfl⟩
      | some bytes => exact errorsKeep_send_of_not rfl (by decide)
  · exact errorsKeep_send _ ⟨rfl, rfl⟩

/-! ### Breakpoints, reset and threads -/

/-- A table that refuses is left as it is. -/
theorem outcome_cases {α : Type} (old : α) (new : Option α) :
    (outcome old new).1 = true ∨ (outcome old new).2 = old := by
  cases new with
  | none => exact Or.inr rfl
  | some new => exact Or.inl rfl

theorem errorsKeep_handleBreakpoint (w : World x σ) (insert : Bool) :
    ErrorsKeep w (.ok (handleBreakpoint w insert)) := by
  have hreply : ∀ {w₁ : World x σ} {r : Bool × DebugState x}, w₁.stub.output = w.stub.output →
      w₁.stub.noAckMode = w.stub.noAckMode → w₁.toTarget = w.toTarget →
      (r.1 = true ∨ r.2 = w₁.dbg) → ErrorsKeep w (.ok ((w₁.updDbg fun _ => r.2).send
        (if r.1 then ascii "OK" else ascii "E01"))) := by
    intro w₁ r hout hack htarget hr
    by_cases hok : r.1
    · rw [if_pos hok]
      exact errorsKeep_send_of_not hout (by decide)
    · refine errorsKeep_send _ ⟨?_, hack⟩
      rw [← htarget, hr.resolve_left hok]
      rfl
  unfold handleBreakpoint
  simp only
  split
  · exact errorsKeep_send _ ⟨rfl, rfl⟩
  · split
    · exact errorsKeep_send _ ⟨rfl, rfl⟩
    · repeat' refine iteInduction (motive := fun w' => ErrorsKeep w (.ok w')) (fun _ => ?_) fun _ => ?_
      · refine hreply rfl rfl rfl ?_
        split_ifs <;> exact outcome_cases _ _
      · refine hreply rfl rfl rfl ?_
        split_ifs <;> exact outcome_cases _ _
      · exact errorsKeep_send _ ⟨rfl, rfl⟩

theorem errorsKeep_handleReset (cb : GdbCallbacks x σ) (w : World x σ) :
    ErrorsKeep w (.ok (handleReset cb w)) := by
  unfold handleReset
  refine errorsKeep_send_of_not ?_ (by decide)
  cases cb.reset with
  | none => simp [stub_clearRegisters]
  | some reset => rfl

/-- With a valid process id, `Hc` cannot fail after it has stored the thread. -/
theorem resolveContinueThread_ne {pid : Int} (h : threadPidValid pid) (tid : Int) :
    resolveContinueThread pid tid ≠ -2 := by
  unfold resolveContinueThread
  rw [h]
  simp only [Bool.not_true, Bool.false_eq_true, if_false]
  split_ifs <;> omega

theorem errorsKeep_handleSetThread (w : EmuWorld) :
    ErrorsKeep w (.ok (handleSetThread emuCallbacks w)) := by
  unfold handleSetThread
  simp only
  split_ifs with hop hpid hg hrange hct
  · exact errorsKeep_send _ ⟨rfl, rfl⟩
  · exact errorsKeep_send _ ⟨rfl, rfl⟩
  · rw [snd_selectedThread]
    exact errorsKeep_send _ ⟨rfl, rfl⟩
  · rw [snd_selectedThread]
    exact errorsKeep_send_of_not rfl (by decide)
  · exact absurd hct (resolveContinueThread_ne (by simpa using hpid) _)
  · exact errorsKeep_send_of_not rfl (by decide)

theorem errorsKeep_handleThreadAlive (w : EmuWorld) :
    ErrorsKeep w (.ok (handleThreadAlive emuCallbacks w)) := by
  unfold handleThreadAlive
  simp only
  split_ifs <;> exact errorsKeep_send _ ⟨rfl, rfl⟩

/-! ### The resume callback -/

/-- The callbacks with another resume callback. -/
def GdbCallbacks.withResume (cb : GdbCallbacks x σ)
    (resume : Option (Bool → Target x σ → Target x σ)) : GdbCallbacks x σ :=
  { cb with resume := resume }

section withResume

variable (cb : GdbCallbacks x σ) (resume : Option (Bool → Target x σ → Target x σ))

theorem matchPattern_withResume (addr : GdbAddr x) (i : Nat) (pattern : List Byte)
    (w : World x σ) :
    matchPattern (cb.withResume resume) addr i pattern w = matchPattern cb addr i pattern w := by
  induction pattern using List.twoStepInduction generalizing i w with
  | nil => rfl
  | singleton c => rfl
  | cons_cons hi lo rest ih _ =>
    rw [matchPattern, matchPattern]
    simp only [ih]
    rfl

theorem searchLoop_withResume (last : GdbAddr x) (pattern : List Byte) (fuel : Nat)
    (addr : GdbAddr x) (w : World x σ) :
    searchLoop (cb.withResume resume) last pattern fuel addr w =
      searchLoop cb last pattern fuel addr w := by
  induction fuel generalizing addr w with
  | zero => rfl
  | succ fuel ih =>
    rw [searchLoop, searchLoop]
    simp only [matchPattern_withResume, ih]

theorem readRegistersLoop_withResume (is : List Nat) (w : World x σ)
    (p : CharArray gdbBufferSize) :
    readRegistersLoop (cb.withResume resume) is w p = readRegistersLoop cb is w p := by
  induction is generalizing w p with
  | nil => rfl
  | cons i is ih =>
    rw [readRegistersLoop, readRegistersLoop]
    simp only [ih]
    rfl

theorem writeRegistersLoop_withResume (is : List Nat) (w : World x σ) :
    writeRegistersLoop (cb.withResume resume) is w = writeRegistersLoop cb is w := by
  induction is generalizing w with
  | nil => rfl
  | cons i is ih =>
    rw [writeRegistersLoop, writeRegistersLoop]
    simp only [ih]
    rfl

theorem readMemoryLoop_withResume (addr : GdbAddr x) (n i : Nat) (w : World x σ)
    (p : CharArray gdbBufferSize) :
    readMemoryLoop (cb.withResume resume) addr n i w p = readMemoryLoop cb addr n i w p := by
  induction n generalizing i w p with
  | zero => rfl
  | succ n ih =>
    rw [readMemoryLoop, readMemoryLoop]
    simp only [ih]
    rfl

theorem writeMemoryLoop_withResume (addr : GdbAddr x) (data n i : Nat) (w : World x σ) :
    writeMemoryLoop (cb.withResume resume) addr data n i w =
      writeMemoryLoop cb addr data n i w := by
  induction n generalizing i w with
  | zero => rfl
  | succ n ih =>
    rw [writeMemoryLoop, writeMemoryLoop]
    simp only [ih]
    rfl

theorem writeBytes_withResume (connected : Bool) (addr : GdbAddr x) (i : Nat) (d : List Byte)
    (t : Target x σ) :
    writeBytes (cb.withResume resume) connected addr i d t =
      writeBytes cb connected addr i d t := by
  induction d generalizing i t with
  | nil => rfl
  | cons b d ih =>
    rw [writeBytes, writeBytes, ih]
    rfl

theorem clearRegisters_withResume (is : List Nat) (w : World x σ) :
    clearRegisters (cb.withResume resume) is w = clearRegisters cb is w := by
  induction is generalizing w with
  | nil => rfl
  | cons i is ih =>
    rw [clearRegisters, clearRegisters, ih]
    rfl

/-- Only `vCont`, `c` and `s` call it. -/
theorem dispatch_withResume (fuel : Nat) {w : World x σ}
    (hv : byteAt w.stub.packetBuffer 0 ≠ chr 'v') (hc : byteAt w.stub.packetBuffer 0 ≠ chr 'c')
    (hs : byteAt w.stub.packetBuffer 0 ≠ chr 's') :
    dispatch fuel (cb.withResume resume) w = dispatch fuel cb w := by
  unfold dispatch
  simp only [if_neg hv, if_neg hc, if_neg hs]
  have hquery : handleQuery fuel (cb.withResume resume) w = handleQuery fuel cb w := by
    unfold handleQuery handleSearchMemory
    simp only [searchLoop_withResume]
    rfl
  have hread : handleReadRegisters (cb.withResume resume) w = handleReadRegisters cb w := by
    unfold handleReadRegisters
    simp only [readRegistersLoop_withResume]
    rfl
  have hwrite : handleWriteRegisters (cb.withResume resume) w = handleWriteRegisters cb w := by
    unfold handleWriteRegisters
    simp only [writeRegistersLoop_withResume]
    rfl
  have hmem : handleReadMemory (cb.withResume resume) w = handleReadMemory cb w := by
    unfold handleReadMemory
    simp only [readMemoryLoop_withResume]
  have hstore : handleWriteMemory (cb.withResume resume) w = handleWriteMemory cb w := by
    unfold handleWriteMemory
    simp only [writeMemoryLoop_withResume]
  have hbinary :
      handleWriteMemoryBinary (cb.withResume resume) w = handleWriteMemoryBinary cb w := by
    unfold handleWriteMemoryBinary
    simp only [writeBytes_withResume]
  have hreset : handleReset (cb.withResume resume) w = handleReset cb w := by
    unfold handleReset
    simp only [clearRegisters_withResume]
    rfl
  rw [hquery, hread, hwrite, hmem, hstore, hbinary, hreset]
  rfl

end withResume

/-! ### The dispatcher -/

/-- A command that fails changes nothing. -/
def FailsAtomically (w : World x σ) (r : Result (Int × World x σ)) : Prop :=
  ∀ n w', r = .ok (n, w') → n = 0 ∧ Unchanged w w' ∨ WritesNoError w w'

theorem failsAtomically_andReturnZero {w : World x σ} {r : Result (World x σ)}
    (h : ErrorsKeep w r) : FailsAtomically w (andReturnZero r) := by
  intro n w' he
  cases r with
  | error e => cases he
  | ok w₁ =>
    obtain ⟨rfl, rfl⟩ := Prod.mk.inj (Except.ok.inj he)
    exact (h w₁ rfl).imp_left fun h => ⟨rfl, h⟩

theorem failsAtomically_of_output_eq {w w₁ : World x σ} {m : Int}
    (h : w₁.stub.output = w.stub.output) : FailsAtomically w (.ok (m, w₁)) := by
  intro n w' he
  obtain ⟨-, rfl⟩ := Prod.mk.inj (Except.ok.inj he)
  exact Or.inr (writesNoError_of_output_eq h)

/-- `vCont` replies, whatever the resume callback, or runs the target without a reply. -/
theorem handleVcont_eq (w : World x σ) :
    (∃ payload, ∀ cb : GdbCallbacks x σ, handleVcont cb w = .ok (false, w.send payload)) ∨
      ∀ cb : GdbCallbacks x σ, ∃ w', handleVcont cb w = .ok (true, w') ∧ w'.stub = w.stub := by
  unfold handleVcont
  simp only
  split_ifs
  · exact Or.inl ⟨_, fun _ => rfl⟩
  · exact Or.inl ⟨_, fun _ => rfl⟩
  · exact Or.inl ⟨_, fun _ => rfl⟩
  · obtain ⟨r, hloop, -⟩ := vcontLoop_eq_ok w.dbg
      (skipSemicolon (w.packetText.drop 5)) ⟨false, -1, -1, false⟩ le_rfl
    simp only [hloop, bind, Except.bind]
    cases r with
    | reply payload => exact Or.inl ⟨payload, fun _ => rfl⟩
    | actions s =>
      simp only
      split_ifs
      · exact Or.inl ⟨_, fun _ => rfl⟩
      all_goals exact Or.inr fun cb => ⟨_, rfl, by rw [World.stub_actOpt, World.stub_updDbg]⟩

/-- The commands with their handlers; some of these fail atomically only if their callbacks do not
change the target. -/
theorem failsAtomically_dispatch_of (fuel : Nat) (cb : GdbCallbacks x σ) {w : World x σ}
    (hquery : ErrorsKeep w (handleQuery fuel cb w))
    (hregs : ErrorsKeep w (handleReadRegisters cb w))
    (hreg : ErrorsKeep w (handleReadSingleRegister cb w))
    (hthread : ErrorsKeep w (.ok (handleSetThread cb w)))
    (halive : ErrorsKeep w (.ok (handleThreadAlive cb w))) :
    FailsAtomically w (dispatch fuel cb w) := by
  have hzero : ∀ {r : Result (World x σ)}, ErrorsKeep w r → FailsAtomically w (andReturnZero r) :=
    failsAtomically_andReturnZero
  have hsend : ∀ payload, ErrorsKeep w (.ok (w.send payload)) :=
    fun payload => errorsKeep_send payload ⟨rfl, rfl⟩
  unfold dispatch
  extract_lets cmd
  -- one case for each command, in the order of the `switch`
  repeat' apply iteInduction (motive := FailsAtomically w) <;> intro hcmd
  · exact hzero (errorsKeep_handleInterrupt cb w)
  · exact hzero (errorsKeep_handleHaltReason cb w)
  · exact hzero hquery
  · exact hzero (errorsKeep_handleGeneralSet w)
  · exact hzero hregs
  · exact hzero (errorsKeep_handleWriteRegisters cb w)
  · exact hzero (errorsKeep_handleReadMemory cb w)
  · exact hzero (errorsKeep_handleWriteMemory cb w)
  · exact hzero hreg
  · exact hzero (errorsKeep_handleWriteSingleRegister cb w)
  · exact hzero (errorsKeep_handleWriteMemoryBinary cb w)
  · exact hzero (errorsKeep_handleReset cb w)
  · exact hzero hthread
  · exact hzero halive
  · rcases handleVcont_eq w with ⟨payload, hv⟩ | hv
    · rw [hv]
      exact hzero (hsend payload)
    · obtain ⟨w', hok, hstub⟩ := hv cb
      rw [hok]
      exact failsAtomically_of_output_eq (congrArg GdbStub.output hstub)
  · exact hzero (hsend _)
  · refine failsAtomically_of_output_eq ?_
    rw [handleContinue, World.stub_actOpt, World.stub_updDbg]
  · refine failsAtomically_of_output_eq ?_
    rw [handleStep, World.stub_actOpt, World.stub_updDbg]
  · exact hzero (errorsKeep_handleBreakpoint w true)
  · exact hzero (errorsKeep_handleBreakpoint w false)
  · exact failsAtomically_of_output_eq rfl
  · intro n w' he
    obtain ⟨-, rfl⟩ := Prod.mk.inj (Except.ok.inj he)
    have hok : ¬IsErrorReply (ascii "OK") := by decide
    exact Or.inr (writesNoError_send rfl hok)
  · exact hzero (hsend _)

theorem failsAtomically_dispatch (fuel : Nat) (w : EmuWorld) :
    FailsAtomically w (dispatch fuel emuCallbacks w) :=
  failsAtomically_dispatch_of fuel emuCallbacks (errorsKeep_handleQuery fuel w)
    (errorsKeep_handleReadRegisters w) (errorsKeep_handleReadSingleRegister w)
    (errorsKeep_handleSetThread w) (errorsKeep_handleThreadAlive w)

/-- A command that fails does not call the resume callback. -/
theorem dispatch_withResume_of_error (fuel : Nat) {w w' : EmuWorld} {n : Int}
    (hret : dispatch fuel emuCallbacks w = .ok (n, w')) (herror : ¬WritesNoError w w')
    (resume : Option (Bool → Machine → Machine)) :
    dispatch fuel (emuCallbacks.withResume resume) w = .ok (n, w') := by
  -- `c`, `s` and a `vCont` that resumes write nothing, hence no error
  by_cases hc : byteAt w.stub.packetBuffer 0 = chr 'c'
  · have hdispatch : dispatch fuel emuCallbacks w = .ok (1, handleContinue emuCallbacks w) := by
      unfold dispatch
      simp only [hc]
      rfl
    rw [hdispatch] at hret
    obtain ⟨-, rfl⟩ := Prod.mk.inj (Except.ok.inj hret)
    exact absurd (writesNoError_of_output_eq rfl) herror
  by_cases hs : byteAt w.stub.packetBuffer 0 = chr 's'
  · have hdispatch : dispatch fuel emuCallbacks w = .ok (1, handleStep emuCallbacks w) := by
      unfold dispatch
      simp only [hs]
      rfl
    rw [hdispatch] at hret
    obtain ⟨-, rfl⟩ := Prod.mk.inj (Except.ok.inj hret)
    exact absurd (writesNoError_of_output_eq rfl) herror
  by_cases hv : byteAt w.stub.packetBuffer 0 = chr 'v'
  · have hdispatch : ∀ cb : GdbCallbacks .x32 Emu, dispatch fuel cb w =
        if strncmpEq w.packetText (ascii "vCont") then do
          let (runCpu, w) ← handleVcont cb w
          .ok (if runCpu then 1 else 0, w)
        else .ok (0, w.send []) := by
      intro cb
      unfold dispatch
      simp only [hv]
      rfl
    rw [hdispatch] at hret ⊢
    split_ifs at hret ⊢
    · rcases handleVcont_eq w with ⟨payload, heq⟩ | heq
      · rw [heq] at hret ⊢
        exact hret
      · obtain ⟨w₁, hok, hstub⟩ := heq emuCallbacks
        rw [hok] at hret
        obtain ⟨-, rfl⟩ := Prod.mk.inj (Except.ok.inj hret)
        exact absurd (writesNoError_of_output_eq (congrArg GdbStub.output hstub)) herror
    · exact hret
  · rw [dispatch_withResume _ _ fuel hv hc hs, hret]

/-! ### Receiving -/

/-- Receiving writes acknowledgements only, and keeps their mode. -/
structure SignFrame (s s' : GdbStub) : Prop where
  noAckMode : s'.noAckMode = s.noAckMode
  output : ∃ signs, s'.output = s.output ++ signs ∧ ∀ c ∈ signs, c = [chr '+'] ∨ c = [chr '-']

theorem SignFrame.of_output_eq {s s' : GdbStub} (hack : s'.noAckMode = s.noAckMode)
    (hout : s'.output = s.output) : SignFrame s s' :=
  ⟨hack, [], by rw [hout, List.append_nil], fun _ hc => absurd hc List.not_mem_nil⟩

theorem SignFrame.of_write {s s' : GdbStub} {sign : List Byte} (hack : s'.noAckMode = s.noAckMode)
    (hsign : sign = [chr '+'] ∨ sign = [chr '-'])
    (hout : s'.output = s.output ++ [sign]) : SignFrame s s' :=
  ⟨hack, [sign], hout, fun _ hc => List.mem_singleton.mp hc ▸ hsign⟩

theorem SignFrame.of_poke {s s' : GdbStub} {i : Nat} {b : Byte} {received : Bool}
    {f : GdbStub → Result (Bool × GdbStub)} (h : (s.poke i b >>= f) = .ok (received, s'))
    (hf : ∀ s₁, f s₁ = .ok (received, s') → SignFrame s₁ s') : SignFrame s s' := by
  unfold GdbStub.poke at h
  split_ifs at h
  · have hs := hf _ h
    exact ⟨hs.noAckMode, hs.output⟩
  · cases h

theorem signFrame_receiveLoop (input : List Byte) (s : GdbStub) (st : RecvState) {s' : GdbStub}
    {received : Bool} (h : receiveLoop s st input = .ok (received, s')) : SignFrame s s' := by
  induction input generalizing s st with
  | nil =>
    have hend : receiveLoop s st [] = .ok (false, { s with
        input := [], consecutiveFailures := s.consecutiveFailures + 1 }) := by
      cases st <;> rfl
    rw [hend] at h
    obtain ⟨-, rfl⟩ := Prod.mk.inj (Except.ok.inj h)
    exact SignFrame.of_output_eq rfl rfl
  | cons c rest ih =>
    cases st with
    | waitStart =>
      rw [receiveLoop] at h
      split_ifs at h
      · exact ih s _ h
      · refine SignFrame.of_poke h fun s₁ h₁ => ?_
        obtain ⟨-, rfl⟩ := Prod.mk.inj (Except.ok.inj h₁)
        exact SignFrame.of_output_eq rfl rfl
      · exact ih s _ h
    | readData index =>
      rw [receiveLoop] at h
      split_ifs at h
      · refine SignFrame.of_poke h fun s₁ h₁ => ?_
        have hs := ih _ _ h₁
        exact ⟨hs.noAckMode, hs.output⟩
      · exact SignFrame.of_poke h fun s₁ h₁ => ih s₁ _ h₁
      · exact ih s _ h
    | readChecksum index expected sum =>
      simp only [receiveLoop] at h
      split_ifs at h
      · obtain ⟨-, rfl⟩ := Prod.mk.inj (Except.ok.inj h)
        exact SignFrame.of_output_eq rfl rfl
      · obtain ⟨-, rfl⟩ := Prod.mk.inj (Except.ok.inj h)
        exact SignFrame.of_write rfl (Or.inr rfl) rfl
      · obtain ⟨-, rfl⟩ := Prod.mk.inj (Except.ok.inj h)
        exact SignFrame.of_output_eq rfl rfl
      · obtain ⟨-, rfl⟩ := Prod.mk.inj (Except.ok.inj h)
        exact SignFrame.of_write rfl (Or.inl rfl) rfl
      · exact ih s _ h

theorem SignFrame.not_mem {s s' : GdbStub} (h : SignFrame s s') {payload : List Byte}
    {new : List (List Byte)} (hout : s'.output = s.output ++ new) : frame payload ∉ new := by
  obtain ⟨signs, hsigns, hall⟩ := h.output
  obtain rfl := List.append_cancel_left (hsigns.symm.trans hout)
  intro hmem
  rcases hall _ hmem with h | h
  · exact absurd (List.cons.inj h).1 (by decide)
  · exact absurd (List.cons.inj h).1 (by decide)

/-- A packet that is answered by an error or by the empty reply leaves everything as it was, and
the same happens with every other resume callback: it is not called. -/
theorem unchanged_of_errorReply (fuel : Nat) {w w' : EmuWorld} {n : Int}
    {new : List (List Byte)} {payload : List Byte}
    (hret : gdbStubProcess fuel emuCallbacks w = .ok (n, w'))
    (hout : w'.stub.output = w.stub.output ++ new) (hmem : frame payload ∈ new)
    (herror : IsErrorReply payload) :
    w'.toTarget = w.toTarget ∧ w'.stub.noAckMode = w.stub.noAckMode ∧ n = 0 ∧
      ∀ resume, gdbStubProcess fuel (emuCallbacks.withResume resume) w = .ok (n, w') := by
  -- an error is a packet, and none of the signs that `receive_packet` writes
  have hsilent : ∀ {s : GdbStub}, SignFrame w.stub s → w'.stub ≠ s := by
    rintro s hs rfl
    exact hs.not_mem hout hmem
  unfold gdbStubProcess at hret ⊢
  split_ifs at hret ⊢ with hconn hfail
  · obtain ⟨-, rfl⟩ := Prod.mk.inj (Except.ok.inj hret)
    exact absurd rfl (hsilent (SignFrame.of_output_eq rfl rfl))
  · obtain ⟨-, rfl⟩ := Prod.mk.inj (Except.ok.inj hret)
    exact absurd rfl (hsilent (SignFrame.of_output_eq rfl rfl))
  obtain ⟨received, stub, hrecv, -⟩ := receivePacket_cases w.stub
  have hsigns := signFrame_receiveLoop _ _ _ hrecv
  rw [hrecv] at hret ⊢
  cases received with
  | false =>
    obtain ⟨-, rfl⟩ := Prod.mk.inj (Except.ok.inj hret)
    exact absurd rfl (hsilent hsigns)
  | true =>
    have hdispatch : dispatch fuel emuCallbacks { w with stub := stub } = .ok (n, w') := hret
    have hwrites : ¬WritesNoError { w with stub := stub } w' := by
      rintro ⟨replies, hreplies, hnone⟩
      obtain ⟨signs, hsout, -⟩ := hsigns.output
      obtain rfl : new = signs ++ replies := by
        refine List.append_cancel_left (hout.symm.trans ?_)
        rw [hreplies, hsout, List.append_assoc]
      rcases List.mem_append.mp hmem with hmem | hmem
      · exact hsigns.not_mem hsout hmem
      · exact hnone payload herror hmem
    rcases failsAtomically_dispatch fuel _ n w' hdispatch with ⟨rfl, htarget, hack⟩ | h
    · exact ⟨htarget, hack.trans hsigns.noAckMode, rfl, fun resume =>
        dispatch_withResume_of_error fuel hdispatch hwrites resume⟩
    · exact absurd h hwrites

/-- A program with two harts, and a `vCont` packet whose second action is not supported. -/
def unsupportedVcontWorld : EmuWorld :=
  (loadedSession 2 (frame (ascii "vCont;s:p1.2;x"))).world

theorem unchanged_unsupportedVcont :
    ∃ w', gdbStubProcess 0 emuCallbacks unsupportedVcontWorld = .ok (0, w') ∧
      w'.toTarget = unsupportedVcontWorld.toTarget := by
  have hret : ∃ w', gdbStubProcess 0 emuCallbacks unsupportedVcontWorld = .ok (0, w') ∧
      w'.stub.output = [] ++ [[chr '+'], frame []] := by
    refine ⟨_, rfl, ?_⟩
    decide +kernel
  obtain ⟨w', hret, hout⟩ := hret
  exact ⟨w', hret, (unchanged_of_errorReply 0 hret hout
    (List.mem_cons_of_mem _ List.mem_cons_self) (Or.inr (Or.inr (Or.inr rfl)))).1⟩

end Rv32Gdb
