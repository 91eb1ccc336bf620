import Rv32Gdb.Equiv.Errors
import Rv32Gdb.Equiv.Session

/-!
# Commands that send no stop reply

`writesNoStop_dispatch`: apart from `?` and the Ctrl-C byte no command writes a stop reply, since
the reply of every other one is `PlainReply`.
-/

namespace Rv32Gdb

variable {x : Xlen} {σ : Type}

/-- A payload that differs from a stop reply in its first or in its fifth character. -/
def PlainReply (payload : List Byte) : Prop :=
  payload.head? ≠ some (chr 'T') ∨ payload[4]? ≠ some (chr 'h')

instance (payload : List Byte) : Decidable (PlainReply payload) :=
  inferInstanceAs (Decidable (_ ∨ _))

theorem not_namesThread_frame {payload : List Byte} (h : PlainReply payload) (tid : Int) :
    ¬NamesThread tid (frame payload) := by
  rintro ⟨cause, multiprocess, signal, hframe⟩
  obtain rfl := frame_inj hframe
  rcases h with h | h <;> exact h rfl

theorem plainReply_cons {c : Byte} (hc : c ≠ chr 'T') (payload : List Byte) :
    PlainReply (c :: payload) := Or.inl fun h => hc (Option.some.inj h)

theorem plainReply_of_head? {c : Byte} {payload : List Byte} (h : payload.head? = some c)
    (hc : c ≠ chr 'T') : PlainReply payload := Or.inl fun h' =>
  hc (Option.some.inj (h.symm.trans h'))

/-- The digits of some bytes. -/
theorem plainReply_digits {payload : List Byte} (h : ∀ c ∈ payload, ∃ b, c ∈ hexByte b) :
    PlainReply payload := by
  refine Or.inl fun hhead => ?_
  obtain ⟨b, hb⟩ := h _ (List.mem_of_mem_head? hhead)
  exact absurd (isxdigit_hexByte b _ hb) (by decide)

/-- No stop reply is written between the two worlds. -/
def NoStopBetween (w w' : World x σ) : Prop :=
  ∃ new, w'.stub.output = w.stub.output ++ new ∧ ∀ chunk ∈ new, ∀ tid, ¬NamesThread tid chunk

/-- A handler that writes no stop reply. -/
def WritesNoStop (w : World x σ) (r : Result (World x σ)) : Prop :=
  ∀ w', r = .ok w' → NoStopBetween w w'

theorem noStopBetween_of_output_eq {w w' : World x σ} (h : w'.stub.output = w.stub.output) :
    NoStopBetween w w' := ⟨[], by rw [h, List.append_nil], nofun⟩

theorem noStopBetween_send {w w₁ : World x σ} {payload : List Byte}
    (h : w₁.stub.output = w.stub.output) (hplain : PlainReply payload) :
    NoStopBetween w (w₁.send payload) := by
  by_cases hlen : payload.length ≤ 4091
  · refine ⟨[frame payload], by rw [output_send_of_le _ hlen, h], fun chunk hchunk => ?_⟩
    rw [List.mem_singleton.mp hchunk]
    exact not_namesThread_frame hplain
  · refine noStopBetween_of_output_eq ?_
    rw [World.send, sendPacket_of_lt (not_le.mp hlen)]
    exact h

theorem writesNoStop_send {w w₁ : World x σ} {payload : List Byte}
    (h : w₁.stub.output = w.stub.output) (hplain : PlainReply payload) :
    WritesNoStop w (.ok (w₁.send payload)) :=
  fun _ he => Except.ok.inj he ▸ noStopBetween_send h hplain

theorem writesNoStop_bind {α : Type} {w : World x σ} {r : Result α} {f : α → Result (World x σ)}
    (hf : ∀ a, r = .ok a → WritesNoStop w (f a)) : WritesNoStop w (r >>= f) := by
  cases r with
  | error e => exact fun w' he => by cases he
  | ok a => exact hf a rfl

/-! ### Queries -/

theorem writesNoStop_searchLoop (cb : GdbCallbacks x σ) (last : GdbAddr x) (pattern : List Byte)
    (fuel : Nat) (addr : GdbAddr x) {w w₁ : World x σ} (h : w₁.stub.output = w.stub.output) :
    WritesNoStop w (searchLoop cb last pattern fuel addr w₁) := by
  induction fuel generalizing addr w₁ with
  | zero => exact fun w' he => by cases he
  | succ fuel ih =>
    have hmatch := congrArg GdbStub.output (stub_matchPattern cb addr 0 pattern w₁)
    rw [searchLoop]
    simp only
    split_ifs
    · exact writesNoStop_send (hmatch.trans h)
        (plainReply_cons (c := chr '1') (by decide) ((chr ',' :: addrText addr).take 46))
    · exact ih _ (hmatch.trans h)
    · exact writesNoStop_send h (by decide)

theorem writesNoStop_handleSearchMemory (fuel : Nat) (cb : GdbCallbacks x σ) (w : World x σ) :
    WritesNoStop w (handleSearchMemory fuel cb w) := by
  unfold handleSearchMemory
  simp only
  split
  · exact writesNoStop_send rfl (by decide)
  · split
    · exact writesNoStop_send rfl (by decide)
    · split_ifs
      · exact writesNoStop_send rfl (by decide)
      · exact writesNoStop_searchLoop cb _ _ _ _ rfl

theorem writesNoStop_handleQuery (fuel : Nat) (cb : GdbCallbacks x σ) (w : World x σ) :
    WritesNoStop w (handleQuery fuel cb w) := by
  by_cases hlist : strncmpEq w.packetText (ascii "qfThreadInfo")
  · obtain ⟨payload, hok, hhead, -⟩ := handleThreadInfo_cases cb w
    rw [handleQuery_threadInfo fuel cb hlist, hok]
    exact writesNoStop_send (by simp) (plainReply_of_head? hhead (by decide))
  unfold handleQuery
  simp only [if_neg hlist]
  repeat' refine iteInduction (fun _ => ?_) fun _ => ?_
  · exact writesNoStop_send rfl (plainReply_cons (c := chr 'P') (by decide) _)
  · exact writesNoStop_send rfl (by decide)
  · exact writesNoStop_send rfl (plainReply_cons (c := chr 'Q') (by decide) _)
  · exact writesNoStop_send rfl (by decide)
  · exact writesNoStop_send rfl (plainReply_cons (c := chr 'l') (by decide) _)
  · exact writesNoStop_send rfl (by decide)
  · exact writesNoStop_send rfl (by decide)
  · exact writesNoStop_handleSearchMemory fuel cb w
  · exact writesNoStop_send rfl (by decide)

theorem noStopBetween_handleGeneralSet (w : World x σ) : NoStopBetween w (handleGeneralSet w) := by
  unfold handleGeneralSet
  split_ifs <;> exact noStopBetween_send rfl (by decide)

/-! ### Registers and memory -/

theorem exists_mem_hexByte_encodeHex {value : GdbReg x} {bytes : Nat} {c : Byte}
    (hc : c ∈ encodeHex value bytes) : ∃ b, c ∈ hexByte b := by
  obtain ⟨_, -, hc⟩ := List.mem_flatMap.mp hc
  exact ⟨_, hc⟩

/-- The reply of a register read consists of the digits of bytes. -/
theorem readRegistersLoop_digits {cb : GdbCallbacks x σ} {is : List Nat} {w w' : World x σ}
    {p p' : CharArray gdbBufferSize} (hloop : readRegistersLoop cb is w p = .ok (w', p'))
    (hp : ∀ c ∈ p.data, ∃ b, c ∈ hexByte b) :
    w'.stub = w.stub ∧ ∀ c ∈ p'.data, ∃ b, c ∈ hexByte b := by
  induction is generalizing w p with
  | nil =>
    obtain ⟨rfl, rfl⟩ := Prod.mk.inj (Except.ok.inj hloop)
    exact ⟨rfl, hp⟩
  | cons i is ih =>
    set r := w.call fun c t => cb.readReg c t i with hr
    have hbody : (p.pushAll (encodeHex r.1 x.regHexBytes) >>= readRegistersLoop cb is r.2) =
        .ok (w', p') := hloop
    cases hpush : p.pushAll (encodeHex r.1 x.regHexBytes) with
    | error e =>
      rw [hpush] at hbody
      cases hbody
    | ok p₁ =>
      rw [hpush] at hbody
      refine ih (w := r.2) hbody fun c hc => ?_
      rw [data_of_pushAll hpush, List.mem_append] at hc
      rcases hc with hc | hc
      · exact hp c hc
      · exact exists_mem_hexByte_encodeHex hc

theorem eq_data_of_terminate {cap : Nat} {a : CharArray cap} {s : List Byte}
    (h : a.terminate = .ok s) : s = a.data := by
  rw [CharArray.terminate] at h
  split_ifs at h
  exact (Except.ok.inj h).symm

theorem writesNoStop_handleReadRegisters (cb : GdbCallbacks x σ) (w : World x σ) :
    WritesNoStop w (handleReadRegisters cb w) := by
  refine writesNoStop_bind fun r hloop => writesNoStop_bind fun p hpush =>
    writesNoStop_bind fun response hresponse => ?_
  obtain ⟨hstub, hdigits⟩ := readRegistersLoop_digits hloop nofun
  refine writesNoStop_send (congrArg GdbStub.output hstub) (plainReply_digits fun c hc => ?_)
  rw [eq_data_of_terminate hresponse, data_of_pushAll hpush, List.mem_append] at hc
  rcases hc with hc | hc
  · exact hdigits c hc
  · exact exists_mem_hexByte_encodeHex hc

theorem writesNoStop_handleWriteRegisters (cb : GdbCallbacks x σ) (w : World x σ) :
    WritesNoStop w (handleWriteRegisters cb w) := by
  refine writesNoStop_bind fun w₁ hloop => writesNoStop_bind fun _ _ => ?_
  have hout := congrArg GdbStub.output (stub_writeRegistersLoop hloop)
  exact writesNoStop_send hout (by decide)

theorem writesNoStop_sendRegister {w w₁ : World x σ} (value : GdbReg x)
    (hout : w₁.stub.output = w.stub.output) :
    WritesNoStop w (do
      let response ← (CharArray.empty 32).pushAll (encodeHex value x.regHexBytes)
      let response ← response.terminate
      .ok (w₁.send response)) := by
  refine writesNoStop_bind fun p hpush => writesNoStop_bind fun response hresponse => ?_
  refine writesNoStop_send hout (plainReply_digits fun c hc => ?_)
  rw [eq_data_of_terminate hresponse, data_of_pushAll hpush] at hc
  exact exists_mem_hexByte_encodeHex hc

theorem writesNoStop_handleReadSingleRegister (cb : GdbCallbacks x σ) (w : World x σ) :
    WritesNoStop w (handleReadSingleRegister cb w) := by
  unfold handleReadSingleRegister
  simp only
  split_ifs
  · exact writesNoStop_send rfl (by decide)
  · exact writesNoStop_sendRegister _ rfl
  · exact writesNoStop_sendRegister _ rfl

theorem writesNoStop_handleWriteSingleRegister (cb : GdbCallbacks x σ) (w : World x σ) :
    WritesNoStop w (handleWriteSingleRegister cb w) := by
  unfold handleWriteSingleRegister
  split
  · exact writesNoStop_send rfl (by decide)
  · refine writesNoStop_bind fun _ _ => ?_
    split_ifs <;> exact writesNoStop_send rfl (by decide)

theorem writesNoStop_handleReadMemory (cb : GdbCallbacks x σ) (w : World x σ) :
    WritesNoStop w (handleReadMemory cb w) := by
  unfold handleReadMemory
  split
  · exact writesNoStop_send rfl (by decide)
  · simp only
    split_ifs
    · exact writesNoStop_send rfl (by decide)
    · refine writesNoStop_bind fun r hloop => writesNoStop_bind fun response hresponse => ?_
      obtain ⟨hstub, digits, hdata, -, hdigits⟩ := readMemoryLoop_digits hloop
      have hout := congrArg GdbStub.output hstub
      refine writesNoStop_send hout (plainReply_digits ?_)
      rw [eq_data_of_terminate hresponse, hdata]
      exact hdigits

theorem writesNoStop_handleWriteMemory (cb : GdbCallbacks x σ) (w : World x σ) :
    WritesNoStop w (handleWriteMemory cb w) := by
  unfold handleWriteMemory
  split
  · refine writesNoStop_bind fun w₁ hloop => ?_
    have hout := congrArg GdbStub.output (stub_writeMemoryLoop hloop)
    exact writesNoStop_send hout (by decide)
  · exact writesNoStop_send rfl (by decide)

theorem writesNoStop_handleWriteMemoryBinary (cb : GdbCallbacks x σ) (w : World x σ) :
    WritesNoStop w (handleWriteMemoryBinary cb w) := by
  unfold handleWriteMemoryBinary
  split
  · simp only
    split_ifs
    · exact writesNoStop_send rfl (by decide)
    · refine writesNoStop_bind fun r _ => ?_
      cases r <;> exact writesNoStop_send rfl (by decide)
  · exact writesNoStop_send rfl (by decide)

/-! ### Breakpoints, reset and threads -/

theorem noStopBetween_handleBreakpoint (w : World x σ) (insert : Bool) :
    NoStopBetween w (handleBreakpoint w insert) := by
  have hreply : ∀ ok : Bool, PlainReply (if ok then ascii "OK" else ascii "E01") := by decide
  unfold handleBreakpoint
  simp only
  split
  · exact noStopBetween_send rfl (by decide)
  · split
    · exact noStopBetween_send rfl (by decide)
    · split_ifs <;> exact noStopBetween_send rfl (by first | exact hreply _ | decide)

theorem noStopBetween_handleReset (cb : GdbCallbacks x σ) (w : World x σ) :
    NoStopBetween w (handleReset cb w) := by
  unfold handleReset
  refine noStopBetween_send ?_ (by decide)
  cases cb.reset with
  | none => simp [stub_clearRegisters]
  | some reset => simp

theorem noStopBetween_handleSetThread (cb : GdbCallbacks x σ) (w : World x σ) :
    NoStopBetween w (handleSetThread cb w) := by
  unfold handleSetThread
  simp only
  split_ifs <;> exact noStopBetween_send (by simp [stub_selectedThread]) (by decide)

theorem noStopBetween_handleThreadAlive (cb : GdbCallbacks x σ) (w : World x σ) :
    NoStopBetween w (handleThreadAlive cb w) := by
  unfold handleThreadAlive
  simp only
  split_ifs <;> exact noStopBetween_send (by simp) (by decide)

theorem noStopBetween_handleVcont {cb : GdbCallbacks x σ} {w w' : World x σ} {run : Bool}
    (h : handleVcont cb w = .ok (run, w')) : NoStopBetween w w' := by
  have hsend : ∀ payload : List Byte, PlainReply payload →
      (.ok (false, w.send payload) : Result (Bool × World x σ)) = .ok (run, w') →
        NoStopBetween w w' := by
    intro payload hplain he
    obtain ⟨-, rfl⟩ := Prod.mk.inj (Except.ok.inj he)
    exact noStopBetween_send rfl hplain
  unfold handleVcont at h
  simp only at h
  split_ifs at h
  · exact hsend _ (by decide) h
  · exact hsend _ (by decide) h
  · exact hsend _ (by decide) h
  · obtain ⟨r, hloop, herror⟩ := vcontLoop_eq_ok w.dbg
      (skipSemicolon (w.packetText.drop 5)) ⟨false, -1, -1, false⟩ le_rfl
    rw [hloop] at h
    cases r with
    | reply payload =>
      refine hsend payload ?_ h
      rcases herror payload rfl with rfl | rfl <;> decide
    | actions s =>
      simp only [bind, Except.bind] at h
      split at h
      · exact hsend _ (by decide) h
      · obtain ⟨-, rfl⟩ := Prod.mk.inj (Except.ok.inj h)
        exact noStopBetween_of_output_eq (by simp)

/-! ### The dispatcher -/

/-- `WritesNoStop` for the commands. -/
def CommandWritesNoStop (w : World x σ) (r : Result (Int × World x σ)) : Prop :=
  ∀ n w', r = .ok (n, w') → NoStopBetween w w'

theorem commandWritesNoStop_andReturnZero {w : World x σ} {r : Result (World x σ)}
    (h : WritesNoStop w r) : CommandWritesNoStop w (andReturnZero r) := by
  intro n w' he
  cases r with
  | error e => cases he
  | ok w₁ =>
    obtain ⟨-, rfl⟩ := Prod.mk.inj (Except.ok.inj he)
    exact h _ rfl

/-- Every command but `?` and the Ctrl-C byte writes no stop reply. -/
theorem writesNoStop_dispatch (fuel : Nat) (cb : GdbCallbacks x σ) {w : World x σ}
    (hquery : byteAt w.stub.packetBuffer 0 ≠ chr '?')
    (hint : byteAt w.stub.packetBuffer 0 ≠ 0x03) : CommandWritesNoStop w (dispatch fuel cb w) := by
  have hzero : ∀ {r : Result (World x σ)}, WritesNoStop w r →
      CommandWritesNoStop w (andReturnZero r) := commandWritesNoStop_andReturnZero
  have hok : ∀ {v : World x σ}, NoStopBetween w v → WritesNoStop w (.ok v) :=
    fun h _ he => Except.ok.inj he ▸ h
  have hret : ∀ {m : Int} {v : World x σ}, NoStopBetween w v →
      CommandWritesNoStop w (.ok (m, v)) := by
    intro m v h n w' he
    obtain ⟨-, rfl⟩ := Prod.mk.inj (Except.ok.inj he)
    exact h
  unfold dispatch
  extract_lets cmd
  -- one case for each command, in the order of the `switch`
  repeat' apply iteInduction (motive := CommandWritesNoStop w) <;> intro hcmd
  · exact absurd hcmd hint
  · exact absurd hcmd hquery
  · exact hzero (writesNoStop_handleQuery fuel cb w)
  · exact hzero (hok (noStopBetween_handleGeneralSet w))
  · exact hzero (writesNoStop_handleReadRegisters cb w)
  · exact hzero (writesNoStop_handleWriteRegisters cb w)
  · exact hzero (writesNoStop_handleReadMemory cb w)
  · exact hzero (writesNoStop_handleWriteMemory cb w)
  · exact hzero (writesNoStop_handleReadSingleRegister cb w)
  · exact hzero (writesNoStop_handleWriteSingleRegister cb w)
  · exact hzero (writesNoStop_handleWriteMemoryBinary cb w)
  · exact hzero (hok (noStopBetween_handleReset cb w))
  · exact hzero (hok (noStopBetween_handleSetThread cb w))
  · exact hzero (hok (noStopBetween_handleThreadAlive cb w))
  · intro n w' he
    cases hv : handleVcont cb w with
    | error e =>
      rw [hv] at he
      cases he
    | ok r =>
      rw [hv] at he
      obtain ⟨-, rfl⟩ := Prod.mk.inj (Except.ok.inj he)
      exact noStopBetween_handleVcont hv
  · exact hret (noStopBetween_send rfl (by decide))
  · exact hret (noStopBetween_of_output_eq (by simp [handleContinue]))
  · exact hret (noStopBetween_of_output_eq (by simp [handleStep]))
  · exact hzero (hok (noStopBetween_handleBreakpoint w true))
  · exact hzero (hok (noStopBetween_handleBreakpoint w false))
  · exact hret (noStopBetween_of_output_eq rfl)
  · exact hret (noStopBetween_send rfl (show PlainReply (ascii "OK") by decide))
  · exact hret (noStopBetween_send rfl (by decide))

end Rv32Gdb
