import Rv32Gdb.Equiv.Requests

/-!
# What lies behind a packet in the buffer

A packet is received over what the buffer held before, and the rest of that stays behind its NUL.
`sameOutcome_dispatch`: the commands do not depend on it, `G` and `M` with too few digits apart.
-/

namespace Rv32Gdb

variable {x : Xlen} {σ : Type}

/-! ### Agreeing buffers -/

/-- `b'` is `b` up to the NUL at position `n`. -/
structure AgreeTo (n : Nat) (b b' : Fin gdbBufferSize → Byte) : Prop where
  eq : ∀ i ≤ n, byteAt b' i = byteAt b i
  nul : byteAt b n = 0#8

namespace AgreeTo

variable {n : Nat} {b b' : Fin gdbBufferSize → Byte}

theorem cstr_eq (h : AgreeTo n b b') {i : Nat} (hi : i ≤ n) : cstr b' i = cstr b i := by
  have hall : ∀ k i, i + k = n → cstr b' i = cstr b i := by
    intro k
    induction k with
    | zero =>
      rintro i rfl
      have hnul : byteAt b i = 0#8 := h.nul
      rw [Rv32Gdb.cstr_eq, Rv32Gdb.cstr_eq b, h.eq i le_rfl, if_pos hnul, if_pos hnul]
    | succ k ih =>
      intro i hik
      rw [Rv32Gdb.cstr_eq, Rv32Gdb.cstr_eq b, h.eq i (by omega), ih (i + 1) (by omega)]
  exact hall (n - i) i (by omega)

theorem length_cstr_le (h : AgreeTo n b b') {i : Nat} (hi : i ≤ n) :
    i + (cstr b i).length ≤ n := by
  by_contra hlt
  have hget := byteAt_cstr (show n - i < (cstr b i).length by omega)
  rw [Nat.add_sub_cancel' hi, h.nul] at hget
  exact not_mem_cstr b i (hget ▸ List.getElem_mem _)

theorem strchr_eq (h : AgreeTo n b b') {i : Nat} (hi : i ≤ n) (c : Byte) :
    strchr b' i c = strchr b i c := by
  have hstr := h.cstr_eq hi
  unfold strchr
  by_cases hc : c ∈ cstr b i
  · rw [dif_pos (hstr ▸ hc), dif_pos hc, Option.some_inj]
    exact Fin.ext (congrArg (fun s => i + List.idxOf c s) hstr)
  · rw [dif_neg (hstr ▸ hc), dif_neg hc]

theorem strchr_lt (h : AgreeTo n b b') {i : Nat} (hi : i ≤ n) {c : Byte}
    {p : Fin gdbBufferSize} (hp : strchr b i c = some p) : p.val < n := by
  unfold strchr at hp
  split_ifs at hp with hc
  have hidx := List.idxOf_lt_length_of_mem hc
  have hlen := h.length_cstr_le hi
  obtain rfl := Option.some.inj hp
  show i + (cstr b i).idxOf c < n
  omega

/-- A NUL in both buffers. -/
theorem setByte (h : AgreeTo n b b') (p : Fin gdbBufferSize) :
    AgreeTo n (setByte b p 0) (setByte b' p 0) := by
  refine ⟨fun i hi => ?_, ?_⟩
  · rw [byteAt_setByte, byteAt_setByte, h.eq i hi]
  · rw [byteAt_setByte, h.nul]
    exact ite_self _

theorem nulAt (h : AgreeTo n b b') (ps : List Nat) : AgreeTo n (nulAt ps b) (nulAt ps b') := by
  have hbyte : ∀ (b : Fin gdbBufferSize → Byte) i,
      byteAt (Rv32Gdb.nulAt ps b) i = if i ∈ ps then 0 else byteAt b i := by
    intro b i
    unfold byteAt Rv32Gdb.nulAt
    split_ifs <;> rfl
  refine ⟨fun i hi => ?_, ?_⟩
  · rw [hbyte, hbyte, h.eq i hi]
  · rw [hbyte, h.nul]
    exact ite_self _

end AgreeTo

/-! ### Worlds and outcomes -/

/-- `w'` is `w` but for the buffer behind position `n`. -/
def SameTo (n : Nat) (w w' : World x σ) : Prop :=
  ∃ b, AgreeTo n w.stub.packetBuffer b ∧ w' = w.setBuffer b

/-- The same return value and the same world but for the buffer behind position `n`, or the same
error, which is not a read outside the buffer. -/
def SameOutcome (n : Nat) (r r' : Result (Int × World x σ)) : Prop :=
  (∃ e, e ≠ .outOfBoundsRead ∧ r = .error e ∧ r' = .error e) ∨
    ∃ i w w', r = .ok (i, w) ∧ r' = .ok (i, w') ∧ SameTo n w w'

/-- `f` does not look at the buffer and does not change it. -/
def Blind (f : World x σ → Result (World x σ)) : Prop :=
  ∀ w b, f (w.setBuffer b) = (f w).map fun v => v.setBuffer b

theorem Blind.packetBuffer_eq {f : World x σ → Result (World x σ)} (hf : Blind f)
    {w v : World x σ} (h : f w = .ok v) : v.stub.packetBuffer = w.stub.packetBuffer := by
  have hself := hf w w.stub.packetBuffer
  rw [show w.setBuffer w.stub.packetBuffer = w from rfl, h] at hself
  rw [Except.ok.inj hself]
  rfl

theorem SameOutcome.error {n : Nat} {e : Stuck} {α : Type} {r : Result α} (hr : r = .error e)
    (h : Avoids .outOfBoundsRead r) :
    SameOutcome n (.error e : Result (Int × World x σ)) (.error e) :=
  Or.inl ⟨e, fun he => h (he ▸ hr), rfl, rfl⟩

theorem sameOutcome_of_blind {f : World x σ → Result (World x σ)} (hf : Blind f) {n : Nat}
    {w w' : World x σ} (h : SameTo n w w') (hin : Avoids .outOfBoundsRead (f w)) :
    SameOutcome n (andReturnZero (f w)) (andReturnZero (f w')) := by
  obtain ⟨b, hb, rfl⟩ := h
  rw [hf w b]
  cases hret : f w with
  | error e => exact .error hret hin
  | ok v =>
    refine Or.inr ⟨0, v, v.setBuffer b, rfl, rfl, b, ?_, rfl⟩
    rwa [hf.packetBuffer_eq hret]

/-! ### Operations that do not see the buffer -/

theorem send_setBuffer (w : World x σ) (b : Fin gdbBufferSize → Byte) (payload : List Byte) :
    (w.setBuffer b).send payload = (w.send payload).setBuffer b := by
  unfold World.send sendPacket
  split_ifs <;> rfl

theorem actOpt_setBuffer (w : World x σ) (b : Fin gdbBufferSize → Byte)
    (f : Option (Bool → Target x σ → Target x σ)) :
    (w.setBuffer b).actOpt f = (w.actOpt f).setBuffer b := by
  cases f <;> rfl

theorem callOpt_setBuffer {α : Type} (w : World x σ) (b : Fin gdbBufferSize → Byte)
    (f : Option (Bool → Target x σ → α × Target x σ)) (default : α) :
    (w.setBuffer b).callOpt f default =
      ((w.callOpt f default).1, (w.callOpt f default).2.setBuffer b) := by
  cases f <;> rfl

theorem blind_send (payload : List Byte) : Blind fun w : World x σ => .ok (w.send payload) :=
  fun w b => congrArg Except.ok (send_setBuffer w b payload)

/-- Sending a text that is computed before. -/
theorem bind_send_setBuffer (r : Result (List Byte)) (w : World x σ)
    (b : Fin gdbBufferSize → Byte) :
    (r >>= fun response => .ok ((w.setBuffer b).send response)) =
      Except.map (fun v => v.setBuffer b) (r >>= fun response => .ok (w.send response)) := by
  cases r with
  | error e => rfl
  | ok response => exact blind_send response w b

/-- Sending the digits of a register. -/
theorem sendRegister_setBuffer (value : GdbReg x) (w : World x σ)
    (b : Fin gdbBufferSize → Byte) :
    (do
      let response ← (CharArray.empty 32).pushAll (encodeHex value x.regHexBytes)
      let response ← response.terminate
      .ok ((w.setBuffer b).send response)) =
    Except.map (fun v => v.setBuffer b) (do
      let response ← (CharArray.empty 32).pushAll (encodeHex value x.regHexBytes)
      let response ← response.terminate
      .ok (w.send response)) := by
  cases (CharArray.empty 32).pushAll (encodeHex value x.regHexBytes) with
  | error e => rfl
  | ok p => exact bind_send_setBuffer p.terminate w b

theorem readMemoryLoop_setBuffer (cb : GdbCallbacks x σ) (addr : GdbAddr x) (n i : Nat)
    (w : World x σ) (p : CharArray gdbBufferSize) (b : Fin gdbBufferSize → Byte) :
    readMemoryLoop cb addr n i (w.setBuffer b) p =
      (readMemoryLoop cb addr n i w p).map fun r => (r.1.setBuffer b, r.2) := by
  induction n generalizing i w p with
  | zero => rfl
  | succ n ih =>
    set r := w.call fun c t => cb.readMem c t (addr + BitVec.ofNat x.bits i) 1 with hr
    show (p.pushAll (hexByte (r.1.setWidth 8)) >>= fun p =>
      readMemoryLoop cb addr n (i + 1) (r.2.setBuffer b) p) = Except.map _
        (p.pushAll (hexByte (r.1.setWidth 8)) >>= fun p => readMemoryLoop cb addr n (i + 1) r.2 p)
    cases p.pushAll (hexByte (r.1.setWidth 8)) with
    | error e => rfl
    | ok p => exact ih (i + 1) r.2 p

/-- A request is done without a look at the buffer, unless its data are there. -/
theorem blind_perform (cb : GdbCallbacks x σ) {r : Request}
    (hr : ∀ addr len data, r ≠ .writeMemory addr len data) : Blind (perform cb r) := by
  intro w b
  cases r with
  | readMemory addr len =>
    rw [perform, perform]
    split_ifs
    · exact blind_send _ w b
    · rw [readMemoryLoop_setBuffer]
      cases readMemoryLoop cb (BitVec.ofNat x.bits addr) len 0 w (CharArray.empty gdbBufferSize) with
      | error e => rfl
      | ok r =>
        exact bind_send_setBuffer r.2.terminate r.1 b
  -- only `M` takes its data from the buffer later
  | writeMemory addr len data => exact absurd rfl (hr addr len data)
  | writeMemoryBinary addr len data =>
    rw [perform, perform]
    split_ifs
    · exact blind_send _ w b
    · cases decodeRspBinary len data (CharArray.empty gdbBufferSize) with
      | error e => rfl
      | ok bytes =>
        cases bytes with
        | none => exact blind_send _ w b
        | some bytes =>
          exact blind_send _ (w.act fun c t =>
            writeBytes cb c (BitVec.ofNat x.bits addr) 0 bytes.data t) b
  | breakpoint insert type addr len =>
    rw [perform, perform]
    show Except.ok ((breakpointRequest w.dbg _ _ _ _).elim _ _) = _
    cases breakpointRequest w.dbg insert type (BitVec.ofNat x.bits addr)
        (BitVec.ofNat x.bits len) with
    | none => exact blind_send _ w b
    | some r => exact blind_send _ (w.updDbg fun _ => r.2) b
  | readRegister regNum =>
    rw [perform, perform]
    split_ifs
    · exact blind_send _ w b
    · exact sendRegister_setBuffer _ (w.call fun c t => cb.readReg c t regNum.toNat).2 b
    · exact sendRegister_setBuffer _ (w.call cb.getPc).2 b
  | writeRegister regNum value =>
    rw [perform, perform]
    split_ifs
    · exact blind_send _ w b
    · exact blind_send _ (w.act fun c t =>
        cb.writeReg c t regNum.toNat (BitVec.ofNat x.bits value)) b
    · exact blind_send _ (w.act fun c t => cb.setPc c t (BitVec.ofNat x.bits value)) b

/-! ### Memory writes -/

/-- A loop that reads behind the buffer gets stuck. -/
theorem writeMemoryLoop_eq_error (cb : GdbCallbacks x σ) (addr : GdbAddr x) {data n i : Nat}
    (hstart : data + 2 * i ≤ gdbBufferSize) (hend : gdbBufferSize < data + 2 * (i + n))
    (w : World x σ) : writeMemoryLoop cb addr data n i w = .error .outOfBoundsRead := by
  have hsize : gdbBufferSize < 2 ^ 31 := by decide
  induction n generalizing i w with
  | zero => omega
  | succ n ih =>
    obtain ⟨hhi, hlo⟩ := dataIndex_eq x data (i := i) (by omega)
    rw [writeMemoryLoop, hhi, hlo, GdbStub.peek, GdbStub.peek]
    by_cases h1 : data + 2 * i < gdbBufferSize
    · rw [dif_pos h1]
      by_cases h2 : data + 2 * i + 1 < gdbBufferSize
      · rw [dif_pos h2]
        exact ih (by omega) (by omega) _
      · rw [dif_neg h2]
        rfl
    · rw [dif_neg h1]
      rfl

/-- A loop that stays in the buffer. -/
theorem avoids_writeMemoryLoop_of_le (cb : GdbCallbacks x σ) (addr : GdbAddr x) {data n i : Nat}
    (hend : data + 2 * (i + n) ≤ gdbBufferSize) (w : World x σ) :
    Avoids .outOfBoundsRead (writeMemoryLoop cb addr data n i w) := by
  have hsize : gdbBufferSize < 2 ^ 31 := by decide
  induction n generalizing i w with
  | zero => exact avoids_ok _
  | succ n ih =>
    obtain ⟨hhi, hlo⟩ := dataIndex_eq x data (i := i) (by omega)
    rw [writeMemoryLoop, hhi, hlo, GdbStub.peek, GdbStub.peek, dif_pos (by omega),
      dif_pos (by omega)]
    exact ih (by omega) _

/-- `M` does not see what lies behind the packet if its digits are in the packet. -/
theorem sameOutcome_writeMemory (cb : GdbCallbacks x σ) {n addr len data : Nat}
    {w w' : World x σ} (h : SameTo n w w') (hn : n < gdbBufferSize)
    (hpos : data + 2 * len ≤ n + 1) :
    SameOutcome n (andReturnZero (perform cb (.writeMemory addr len data) w))
      (andReturnZero (perform cb (.writeMemory addr len data) w')) := by
  have hsize : gdbBufferSize < 2 ^ 31 := by decide
  obtain ⟨b, hb, rfl⟩ := h
  rw [perform, perform, writeMemoryLoop_congr]
  · have hin := avoids_writeMemoryLoop_of_le cb (BitVec.ofNat x.bits addr)
      (show data + 2 * (0 + len) ≤ gdbBufferSize by omega) w
    cases hloop : writeMemoryLoop cb (BitVec.ofNat x.bits addr) data len 0 w with
    | error e => exact .error hloop hin
    | ok v =>
      have hstub := stub_writeMemoryLoop hloop
      refine Or.inr ⟨0, v.send (ascii "OK"), (v.setBuffer b).send (ascii "OK"), rfl, rfl, b, ?_,
        send_setBuffer _ _ _⟩
      have hbuf : (v.send (ascii "OK")).stub.packetBuffer = w.stub.packetBuffer := by
        rw [(blind_send (ascii "OK")).packetBuffer_eq (w := v) rfl, hstub]
      rwa [hbuf]
  · intro k _ hk p hp
    obtain ⟨hhi, hlo⟩ := dataIndex_eq x data (i := k) (by omega)
    rw [hhi, hlo, List.mem_pair] at hp
    exact hb.eq p (by omega)

/-! ### Register writes -/

/-- `G` reads the digits of the registers at fixed positions. -/
theorem sameOutcome_writeRegisters (cb : GdbCallbacks x σ) {n : Nat} {w w' : World x σ}
    (h : SameTo n w w') (hpos : 32 * x.regHexChars < n) :
    SameOutcome n (andReturnZero (handleWriteRegisters cb w))
      (andReturnZero (handleWriteRegisters cb w')) := by
  obtain ⟨b, hb, rfl⟩ := h
  -- each register is read from a position up to which the buffers agree
  have hloop : ∀ (is : List Nat) (v : World x σ), (∀ i ∈ is, i < 32) →
      v.stub.packetBuffer = w.stub.packetBuffer →
      writeRegistersLoop cb is (v.setBuffer b) =
        (writeRegistersLoop cb is v).map fun u => u.setBuffer b := by
    intro is
    induction is with
    | nil => exact fun _ _ _ => rfl
    | cons i is ih =>
      intro v his hv
      have hi := his i List.mem_cons_self
      have hstr : cstr b (1 + i * x.regHexChars) =
          cstr v.stub.packetBuffer (1 + i * x.regHexChars) := by
        rw [hv]
        refine hb.cstr_eq ?_
        have := Nat.mul_le_mul_right x.regHexChars hi.le
        omega
      rw [writeRegistersLoop, writeRegistersLoop]
      show (parseHexLe x (cstr b _) _ >>= _) = _
      rw [hstr]
      cases parseHexLe x (cstr v.stub.packetBuffer (1 + i * x.regHexChars)) x.regHexChars with
      | error e => rfl
      | ok value =>
        exact ih (v.act fun c t => cb.writeReg c t i value)
          (fun j hj => his j (List.mem_cons_of_mem _ hj)) hv
  unfold handleWriteRegisters
  rw [hloop _ w (fun i hi => List.mem_range.mp hi) rfl]
  cases hrun : writeRegistersLoop cb (List.range 32) w with
  | error e => exact .error hrun (avoids_writeRegistersLoop (by decide) _ _ _)
  | ok v =>
    have hstub := stub_writeRegistersLoop hrun
    have hstr : cstr b (1 + 32 * x.regHexChars) =
        cstr v.stub.packetBuffer (1 + 32 * x.regHexChars) := by
      rw [hstub]
      exact hb.cstr_eq (by omega)
    show SameOutcome n (andReturnZero (parseHexLe x _ _ >>= _))
      (andReturnZero (parseHexLe x (cstr b _) _ >>= _))
    rw [hstr]
    cases hpc : parseHexLe x (cstr v.stub.packetBuffer (1 + 32 * x.regHexChars))
        x.regHexChars with
    | error e => exact .error hpc (avoids_parseHexLe (by decide) _ _)
    | ok pc =>
      refine sameOutcome_of_blind (blind_send (ascii "OK")) (w := v.act fun c t => cb.setPc c t pc)
        ⟨b, ?_, rfl⟩ (avoids_ok _)
      show AgreeTo n v.stub.packetBuffer b
      rwa [hstub]

/-! ### The other handlers -/

theorem gdbStubSendStopReason_setBuffer (w : World x σ) (signal : Int) (addr : GdbAddr x)
    (b : Fin gdbBufferSize → Byte) :
    gdbStubSendStopReason (w.setBuffer b) signal addr =
      (gdbStubSendStopReason w signal addr).setBuffer b := by
  unfold gdbStubSendStopReason
  simp only [apply_ite fun v : World x σ => v.setBuffer b, ← send_setBuffer]
  rfl

theorem blind_handleInterrupt (cb : GdbCallbacks x σ) :
    Blind fun w => .ok (handleInterrupt cb w) := by
  intro w b
  refine congrArg Except.ok ?_
  have hhalt := actOpt_setBuffer (w.updDbg fun d => { d with shouldStop := true }) b cb.haltCpus
  unfold handleInterrupt
  rw [show (w.setBuffer b).updDbg (fun d => { d with shouldStop := true }) =
    (w.updDbg fun d => { d with shouldStop := true }).setBuffer b from rfl]
  simp only [hhalt, ← gdbStubSendStopReason_setBuffer, apply_ite fun v : World x σ => v.setBuffer b]
  rfl

theorem clearRegisters_setBuffer (cb : GdbCallbacks x σ) (is : List Nat) (w : World x σ)
    (b : Fin gdbBufferSize → Byte) :
    clearRegisters cb is (w.setBuffer b) = (clearRegisters cb is w).setBuffer b := by
  induction is generalizing w with
  | nil => rfl
  | cons i is ih => exact ih (w.act fun c t => cb.writeReg c t i 0)

theorem blind_handleHaltReason (cb : GdbCallbacks x σ) :
    Blind fun w => .ok (handleHaltReason cb w) := by
  intro w b
  refine congrArg Except.ok ?_
  unfold handleHaltReason
  simp only [apply_ite fun v : World x σ => v.setBuffer b, ← send_setBuffer]
  rfl

theorem blind_handleReset (cb : GdbCallbacks x σ) : Blind fun w => .ok (handleReset cb w) := by
  intro w b
  refine congrArg Except.ok ?_
  have hclear := clearRegisters_setBuffer cb (List.range' 1 31) (w.act fun c t => cb.setPc c t 0) b
  unfold handleReset
  cases cb.reset with
  | some reset =>
    simp only [← send_setBuffer]
    rfl
  | none =>
    rw [show (w.setBuffer b).act (fun c t => cb.setPc c t 0) =
      (w.act fun c t => cb.setPc c t 0).setBuffer b from rfl]
    simp only [hclear, ← send_setBuffer]
    rfl

theorem readRegistersLoop_setBuffer (cb : GdbCallbacks x σ) (is : List Nat) (w : World x σ)
    (p : CharArray gdbBufferSize) (b : Fin gdbBufferSize → Byte) :
    readRegistersLoop cb is (w.setBuffer b) p =
      (readRegistersLoop cb is w p).map fun r => (r.1.setBuffer b, r.2) := by
  induction is generalizing w p with
  | nil => rfl
  | cons i is ih =>
    set r := w.call fun c t => cb.readReg c t i with hr
    show (p.pushAll (encodeHex r.1 x.regHexBytes) >>= fun p =>
      readRegistersLoop cb is (r.2.setBuffer b) p) = Except.map _
        (p.pushAll (encodeHex r.1 x.regHexBytes) >>= fun p => readRegistersLoop cb is r.2 p)
    cases p.pushAll (encodeHex r.1 x.regHexBytes) with
    | error e => rfl
    | ok p => exact ih r.2 p

theorem blind_handleReadRegisters (cb : GdbCallbacks x σ) : Blind (handleReadRegisters cb) := by
  intro w b
  unfold handleReadRegisters
  rw [readRegistersLoop_setBuffer]
  cases readRegistersLoop cb (List.range 32) w (CharArray.empty gdbBufferSize) with
  | error e => rfl
  | ok r =>
    set q := r.1.call cb.getPc with hq
    show (r.2.pushAll (encodeHex q.1 x.regHexBytes) >>= fun p => p.terminate >>= fun response =>
      .ok ((q.2.setBuffer b).send response)) = Except.map _
        (r.2.pushAll (encodeHex q.1 x.regHexBytes) >>= fun p => p.terminate >>= fun response =>
          .ok (q.2.send response))
    cases r.2.pushAll (encodeHex q.1 x.regHexBytes) with
    | error e => rfl
    | ok p => exact bind_send_setBuffer p.terminate q.2 b

/-- What a handler does with a text that stands in the packet. -/
theorem handleGeneralSet_setBuffer {w : World x σ} {b : Fin gdbBufferSize → Byte}
    (h : cstr b 0 = w.packetText) :
    handleGeneralSet (w.setBuffer b) = (handleGeneralSet w).setBuffer b := by
  unfold handleGeneralSet
  rw [show (w.setBuffer b).packetText = w.packetText from h]
  simp only [apply_ite fun v : World x σ => v.setBuffer b, ← send_setBuffer]
  rfl

theorem selectedThread_setBuffer (cb : GdbCallbacks x σ) (w : World x σ)
    (b : Fin gdbBufferSize → Byte) (tid : Int) :
    selectedThread cb (w.setBuffer b) tid =
      ((selectedThread cb w tid).1, (selectedThread cb w tid).2.setBuffer b) := by
  unfold selectedThread
  split_ifs with h
  · simp only [callOpt_setBuffer]
    split_ifs <;> rfl
  · rfl

theorem handleSetThread_setBuffer (cb : GdbCallbacks x σ) {w : World x σ}
    {b : Fin gdbBufferSize → Byte} (hop : byteAt b 1 = byteAt w.stub.packetBuffer 1)
    (hstr : byteAt w.stub.packetBuffer 1 ≠ 0#8 → cstr b 2 = cstr w.stub.packetBuffer 2) :
    handleSetThread cb (w.setBuffer b) = (handleSetThread cb w).setBuffer b := by
  unfold handleSetThread
  rw [show byteAt (w.setBuffer b).stub.packetBuffer 1 = byteAt w.stub.packetBuffer 1 from hop]
  rw [show cstr (w.setBuffer b).stub.packetBuffer 2 = cstr b 2 from rfl]
  by_cases hnul : byteAt w.stub.packetBuffer 1 = 0#8
  · rw [hnul]
    simp only [callOpt_setBuffer, apply_ite fun v : World x σ => v.setBuffer b, ← send_setBuffer]
    rfl
  · rw [hstr hnul]
    simp only [callOpt_setBuffer, selectedThread_setBuffer,
      apply_ite fun v : World x σ => v.setBuffer b, ← send_setBuffer, ← actOpt_setBuffer]
    rfl

theorem handleThreadAlive_setBuffer (cb : GdbCallbacks x σ) {w : World x σ}
    {b : Fin gdbBufferSize → Byte} (hstr : cstr b 1 = cstr w.stub.packetBuffer 1) :
    handleThreadAlive cb (w.setBuffer b) = (handleThreadAlive cb w).setBuffer b := by
  have hstr' : ∀ v : World x σ, v.stub = w.stub →
      cstr (v.setBuffer b).stub.packetBuffer 1 = cstr v.stub.packetBuffer 1 := by
    intro v hv
    rw [hv]
    exact hstr
  unfold handleThreadAlive
  simp only [callOpt_setBuffer, hstr' _ (World.stub_callOpt w _ _),
    apply_ite fun v : World x σ => v.setBuffer b, ← send_setBuffer]

/-! ### Queries -/

theorem matchPattern_setBuffer (cb : GdbCallbacks x σ) (addr : GdbAddr x) (i : Nat)
    (s : List Byte) (w : World x σ) (b : Fin gdbBufferSize → Byte) :
    matchPattern cb addr i s (w.setBuffer b) =
      ((matchPattern cb addr i s w).1, (matchPattern cb addr i s w).2.setBuffer b) := by
  induction s using hexPairs.induct generalizing i w with
  | case1 hi lo rest ih =>
    set r := w.call fun c t => cb.readMem c t (addr + BitVec.ofNat x.bits i) 1 with hr
    have hstep : matchPattern cb addr i (hi :: lo :: rest) w =
        if hexPair hi lo ≠ r.1.setWidth 8 then (false, r.2)
        else matchPattern cb addr (i + 1) rest r.2 := rfl
    have hstep' : matchPattern cb addr i (hi :: lo :: rest) (w.setBuffer b) =
        if hexPair hi lo ≠ r.1.setWidth 8 then (false, r.2.setBuffer b)
        else matchPattern cb addr (i + 1) rest (r.2.setBuffer b) := rfl
    rw [hstep, hstep']
    split_ifs
    · rfl
    · exact ih (i + 1) r.2
  | case2 s hs =>
    rcases s with _ | ⟨c, _ | ⟨d, s⟩⟩
    · rfl
    · rfl
    · exact (hs c d s rfl).elim

theorem blind_searchLoop (cb : GdbCallbacks x σ) (last : GdbAddr x) (pattern : List Byte)
    (fuel : Nat) (addr : GdbAddr x) : Blind (searchLoop cb last pattern fuel addr) := by
  induction fuel generalizing addr with
  | zero => exact fun _ _ => rfl
  | succ fuel ih =>
    intro w b
    rw [searchLoop, searchLoop, matchPattern_setBuffer]
    by_cases hle : addr ≤ last
    · rw [if_pos hle, if_pos hle]
      simp only
      split_ifs
      · exact blind_send _ (matchPattern cb addr 0 pattern w).2 b
      · exact ih (addr + 1) (matchPattern cb addr 0 pattern w).2 b
    · rw [if_neg hle, if_neg hle]
      exact blind_send _ w b

theorem sameOutcome_handleSearchMemory (fuel : Nat) (cb : GdbCallbacks x σ) {n : Nat}
    {w : World x σ} {b : Fin gdbBufferSize → Byte} (hb : AgreeTo n w.stub.packetBuffer b)
    (hn : 15 ≤ n) :
    SameOutcome n (andReturnZero (handleSearchMemory fuel cb w))
      (andReturnZero (handleSearchMemory fuel cb (w.setBuffer b))) := by
  have hsend : ∀ payload, SameOutcome n (andReturnZero (.ok (w.send payload)))
      (andReturnZero (.ok ((w.setBuffer b).send payload))) := fun payload =>
    sameOutcome_of_blind (blind_send payload) ⟨b, hb, rfl⟩ (avoids_ok _)
  unfold handleSearchMemory
  simp only
  rw [show strchr (w.setBuffer b).stub.packetBuffer 15 (chr ':') =
    strchr w.stub.packetBuffer 15 (chr ':') from hb.strchr_eq hn _]
  cases hfind1 : strchr w.stub.packetBuffer 15 (chr ':') with
  | none => exact hsend _
  | some colon1 =>
    have hlt1 := hb.strchr_lt hn hfind1
    simp only
    rw [show strchr (w.setBuffer b).stub.packetBuffer (colon1 + 1) (chr ':') =
      strchr w.stub.packetBuffer (colon1 + 1) (chr ':') from hb.strchr_eq hlt1 _]
    cases hfind2 : strchr w.stub.packetBuffer (colon1 + 1) (chr ':') with
    | none => exact hsend _
    | some colon2 =>
      have hlt2 := hb.strchr_lt hlt1 hfind2
      have hcut := (hb.setByte colon1).setByte colon2
      have hstart := hcut.cstr_eq hn
      have hlen := hcut.cstr_eq (Nat.succ_le_of_lt hlt1)
      have hpattern := hcut.cstr_eq (Nat.succ_le_of_lt hlt2)
      simp only
      rw [show (w.setBuffer b).stub.packetBuffer = b from rfl, hstart, hlen, hpattern]
      split_ifs
      · exact sameOutcome_of_blind (blind_send _) ⟨_, hcut, rfl⟩ (avoids_ok _)
      · exact sameOutcome_of_blind (blind_searchLoop cb _ _ _ _) ⟨_, hcut, rfl⟩
          (avoids_searchLoop (by decide) _ _ _ _ _ _)

theorem ite_map_congr {α : Type} {c : Prop} [Decidable c] {f : α → α} {r₁ r₂ r₁' r₂' : Result α}
    (h₁ : c → r₁' = r₁.map f) (h₂ : ¬c → r₂' = r₂.map f) :
    (if c then r₁' else r₂') = (if c then r₁ else r₂).map f := by
  split_ifs with h
  · exact h₁ h
  · exact h₂ h

/-- A query other than a search depends on the text of the packet. -/
theorem handleQuery_setBuffer (fuel : Nat) (cb : GdbCallbacks x σ) {w : World x σ}
    {b : Fin gdbBufferSize → Byte} (h : cstr b 0 = w.packetText)
    (hsearch : ¬strncmpEq w.packetText (ascii "qSearch:memory:")) :
    handleQuery fuel cb (w.setBuffer b) = (handleQuery fuel cb w).map fun v => v.setBuffer b := by
  have hsend : ∀ payload, (.ok ((w.setBuffer b).send payload) : Result (World x σ)) =
      (Except.ok (w.send payload)).map fun v => v.setBuffer b := fun payload =>
    blind_send payload w b
  have htext : (w.setBuffer b).packetText = w.packetText := h
  unfold handleQuery
  simp only [htext]
  refine ite_map_congr (fun _ => ?_) fun _ => ?_
  · refine congrArg Except.ok ?_
    unfold handleQSupported
    simp only [htext, ← send_setBuffer]
    rfl
  refine ite_map_congr (fun _ => hsend _) fun _ => ?_
  refine ite_map_congr (fun _ => hsend _) fun _ => ?_
  refine ite_map_congr (fun _ => ?_) fun _ => ?_
  · rw [callOpt_setBuffer]
    exact bind_send_setBuffer (threadInfo _ _) (w.callOpt cb.getNumHarts 1).2 b
  rw [if_neg hsearch, if_neg hsearch]
  repeat' refine ite_map_congr (fun _ => hsend _) fun _ => ?_
  exact hsend _

/-! ### Resuming -/

theorem handleContinue_setBuffer (cb : GdbCallbacks x σ) (w : World x σ)
    (b : Fin gdbBufferSize → Byte) :
    handleContinue cb (w.setBuffer b) = (handleContinue cb w).setBuffer b := by
  rw [handleContinue, handleContinue, ← actOpt_setBuffer]
  rfl

theorem handleStep_setBuffer (cb : GdbCallbacks x σ) (w : World x σ)
    (b : Fin gdbBufferSize → Byte) :
    handleStep cb (w.setBuffer b) = (handleStep cb w).setBuffer b := by
  rw [handleStep, handleStep, ← actOpt_setBuffer]
  rfl

theorem handleVcont_setBuffer (cb : GdbCallbacks x σ) {w : World x σ}
    {b : Fin gdbBufferSize → Byte} (h : cstr b 0 = w.packetText) :
    handleVcont cb (w.setBuffer b) =
      (handleVcont cb w).map fun r => (r.1, r.2.setBuffer b) := by
  have hsend : ∀ payload,
      (.ok (false, (w.setBuffer b).send payload) : Result (Bool × World x σ)) =
      (Except.ok (false, w.send payload)).map fun r => (r.1, r.2.setBuffer b) := by
    intro payload
    rw [send_setBuffer]
    rfl
  have htext : (w.setBuffer b).packetText = w.packetText := h
  unfold handleVcont
  simp only [htext]
  split_ifs
  · exact hsend _
  · exact hsend _
  · exact hsend _
  · rw [show (w.setBuffer b).dbg = w.dbg from rfl]
    cases vcontLoop w.dbg _ (skipSemicolon (w.packetText.drop 5)) ⟨false, -1, -1, false⟩ with
    | error e => rfl
    | ok outcome =>
      cases outcome with
      | reply payload => exact hsend payload
      | actions s =>
        by_cases haction : s.haveAction
        · simp only [haction, bind, Except.bind, Bool.not_true, Bool.false_eq_true, if_false]
          refine congrArg (fun v : World x σ => Except.ok (true, v)) ?_
          rw [← actOpt_setBuffer]
          rfl
        · simp only [haction, bind, Except.bind, Bool.not_false, if_true]
          exact hsend _

/-! ### The dispatcher -/

/-- A packet other than those with numeric fields, `G` and searches depends on its text. -/
theorem dispatch_setBuffer (fuel : Nat) (cb : GdbCallbacks x σ) {n : Nat} {w : World x σ}
    {b : Fin gdbBufferSize → Byte} (hb : AgreeTo n w.stub.packetBuffer b)
    (hnum : ∀ k : NumericPacket, byteAt w.stub.packetBuffer 0 ≠ k.command)
    (hG : byteAt w.stub.packetBuffer 0 ≠ chr 'G')
    (hsearch : ¬strncmpEq w.packetText (ascii "qSearch:memory:")) :
    dispatch fuel cb (w.setBuffer b) =
      (dispatch fuel cb w).map fun r => (r.1, r.2.setBuffer b) := by
  have hok : ∀ {v v' : World x σ} (i : Int), v' = v.setBuffer b →
      (.ok (i, v') : Result (Int × World x σ)) =
      (Except.ok (i, v)).map fun r => (r.1, r.2.setBuffer b) := by
    rintro v v' i rfl
    rfl
  have hzero : ∀ {r r' : Result (World x σ)}, r' = r.map (fun v => v.setBuffer b) →
      andReturnZero r' = (andReturnZero r).map fun r => (r.1, r.2.setBuffer b) := by
    rintro r r' rfl
    cases r <;> rfl
  have hzero' : ∀ {v v' : World x σ}, v' = v.setBuffer b → andReturnZero (.ok v') =
      (andReturnZero (.ok v)).map fun r => (r.1, r.2.setBuffer b) := fun h => hok 0 h
  have htext : (w.setBuffer b).packetText = w.packetText := hb.cstr_eq (Nat.zero_le n)
  -- behind a command there is at least one more byte on which the buffers agree
  have hpos : byteAt w.stub.packetBuffer 0 ≠ 0#8 → 1 ≤ n := by
    intro h
    by_contra hn
    obtain rfl : n = 0 := by omega
    exact h hb.nul
  unfold dispatch
  simp only [htext]
  rw [show byteAt (w.setBuffer b).stub.packetBuffer 0 = byteAt w.stub.packetBuffer 0 from
    hb.eq 0 (Nat.zero_le n)]
  -- one case for each command, in the order of the `switch`
  repeat' refine ite_map_congr (fun hcmd => ?_) fun _ => ?_
  · exact hzero (blind_handleInterrupt cb w b)
  · exact hzero (blind_handleHaltReason cb w b)
  · exact hzero (handleQuery_setBuffer fuel cb htext hsearch)
  · exact hzero' (handleGeneralSet_setBuffer htext)
  · exact hzero (blind_handleReadRegisters cb w b)
  · exact absurd hcmd hG
  · exact absurd hcmd (hnum .m)
  · exact absurd hcmd (hnum .M)
  · exact absurd hcmd (hnum .p)
  · exact absurd hcmd (hnum .P)
  · exact absurd hcmd (hnum .X)
  · exact hzero (blind_handleReset cb w b)
  · have h1 := hpos (by rw [hcmd]; decide)
    refine hzero' (handleSetThread_setBuffer cb (hb.eq 1 h1) fun hop => hb.cstr_eq ?_)
    by_contra hn
    obtain rfl : n = 1 := by omega
    exact hop hb.nul
  · exact hzero' (handleThreadAlive_setBuffer cb (hb.cstr_eq (hpos (by rw [hcmd]; decide))))
  · rw [handleVcont_setBuffer cb (hb.cstr_eq (Nat.zero_le n))]
    cases handleVcont cb w <;> rfl
  · exact hok 0 (send_setBuffer w b [])
  · exact hok 1 (handleContinue_setBuffer cb w b)
  · exact hok 1 (handleStep_setBuffer cb w b)
  · exact absurd hcmd (hnum .Z)
  · exact absurd hcmd (hnum .z)
  · exact hok (-1) rfl
  · refine hok (-1) ?_
    rw [send_setBuffer]
    rfl
  · exact hok 0 (send_setBuffer w b [])

/-! ### Reads -/

theorem avoids_readRequest (k : NumericPacket) (s : List Byte) :
    Avoids .outOfBoundsRead (readRequest x k s) := by
  cases k with
  | P =>
    rw [readRequest]
    cases cutAt (chr '=') s with
    | none => exact avoids_ok _
    | some r => exact avoids_ite (avoids_error (by decide)) (avoids_ok _)
  | _ => exact avoids_ok _

/-- Only an `M` packet writes memory from the buffer. -/
theorem eq_M_of_readRequest {k : NumericPacket} {s : List Byte} {addr len data : Nat}
    (h : readRequest x k s = .ok (some (.writeMemory addr len data))) : k = .M := by
  cases k with
  | M => rfl
  | m =>
    obtain ⟨r, -, hr⟩ := Option.map_eq_some_iff.mp (Except.ok.inj h)
    cases hr
  | X =>
    obtain ⟨r, -, hr⟩ := Option.map_eq_some_iff.mp (Except.ok.inj h)
    cases hr
  | Z =>
    obtain ⟨r, -, hr⟩ := Option.bind_eq_some_iff.mp (Except.ok.inj h)
    obtain ⟨q, -, hq⟩ := Option.map_eq_some_iff.mp hr
    cases hq
  | z =>
    obtain ⟨r, -, hr⟩ := Option.bind_eq_some_iff.mp (Except.ok.inj h)
    obtain ⟨q, -, hq⟩ := Option.map_eq_some_iff.mp hr
    cases hq
  | p => cases Option.some.inj (Except.ok.inj h)
  | P =>
    rw [readRequest] at h
    cases hcut : cutAt (chr '=') s with
    | none =>
      rw [hcut] at h
      cases Except.ok.inj h
    | some r =>
      rw [hcut] at h
      simp only at h
      split_ifs at h
      cases Option.some.inj (Except.ok.inj h)

theorem avoids_handleSearchMemory (fuel : Nat) (cb : GdbCallbacks x σ) (w : World x σ) :
    Avoids .outOfBoundsRead (handleSearchMemory fuel cb w) := by
  unfold handleSearchMemory
  simp only
  cases strchr w.stub.packetBuffer 15 (chr ':') with
  | none => exact avoids_ok _
  | some colon1 =>
    simp only
    cases strchr w.stub.packetBuffer (colon1 + 1) (chr ':') with
    | none => exact avoids_ok _
    | some colon2 => exact avoids_ite (avoids_ok _) (avoids_searchLoop (by decide) _ _ _ _ _ _)

theorem avoids_handleReadRegisters (cb : GdbCallbacks x σ) (w : World x σ) :
    Avoids .outOfBoundsRead (handleReadRegisters cb w) :=
  avoids_bind (avoids_readRegistersLoop (by decide) _ _ _ _) fun _ =>
    avoids_bind (avoids_pushAll (by decide) _ _) fun _ =>
      avoids_bind (avoids_terminate (by decide) _) fun _ => avoids_ok _

theorem avoids_handleQuery (fuel : Nat) (cb : GdbCallbacks x σ) (w : World x σ) :
    Avoids .outOfBoundsRead (handleQuery fuel cb w) := by
  unfold handleQuery
  simp only
  repeat' refine avoids_ite ?_ ?_
  all_goals first
    | exact avoids_ok _
    | exact avoids_handleSearchMemory fuel cb w
    | exact avoids_bind (avoids_threadInfo (by decide) _ _) fun _ => avoids_ok _

theorem avoids_handleVcont (cb : GdbCallbacks x σ) (w : World x σ) :
    Avoids .outOfBoundsRead (handleVcont cb w) := by
  unfold handleVcont
  refine avoids_ite (avoids_ok _) (avoids_ite (avoids_ok _) (avoids_ite (avoids_ok _)
    (avoids_bind (avoids_vcontLoop (by decide) (by decide) _ _ _ _) fun outcome => ?_)))
  cases outcome with
  | reply payload => exact avoids_ok _
  | actions s => exact avoids_ite (avoids_ok _) (avoids_ok _)

/-- No other command reads the buffer outside its bounds. -/
theorem avoids_dispatch (fuel : Nat) (cb : GdbCallbacks x σ) {w : World x σ}
    (hnum : ∀ k : NumericPacket, byteAt w.stub.packetBuffer 0 ≠ k.command)
    (hG : byteAt w.stub.packetBuffer 0 ≠ chr 'G') :
    Avoids .outOfBoundsRead (dispatch fuel cb w) := by
  unfold dispatch
  simp only
  repeat' refine avoids_cond (fun hcmd => ?_) fun _ => ?_
  · exact avoids_ok _
  · exact avoids_ok _
  · exact avoids_andReturnZero (avoids_handleQuery fuel cb w)
  · exact avoids_ok _
  · exact avoids_andReturnZero (avoids_handleReadRegisters cb w)
  · exact absurd hcmd hG
  · exact absurd hcmd (hnum .m)
  · exact absurd hcmd (hnum .M)
  · exact absurd hcmd (hnum .p)
  · exact absurd hcmd (hnum .P)
  · exact absurd hcmd (hnum .X)
  · exact avoids_ok _
  · exact avoids_ok _
  · exact avoids_ok _
  · exact avoids_bind (avoids_handleVcont cb w) fun _ => avoids_ok _
  all_goals exact avoids_ok _

/-! ### Two runs -/

theorem sameOutcome_of_map {n : Nat} {w : World x σ} {b : Fin gdbBufferSize → Byte}
    (hb : AgreeTo n w.stub.packetBuffer b) {f : World x σ → Result (Int × World x σ)}
    (hin : Avoids .outOfBoundsRead (f w)) (hf : ∀ b', AgreeTo n w.stub.packetBuffer b' →
      f (w.setBuffer b') = (f w).map fun r => (r.1, r.2.setBuffer b')) :
    SameOutcome n (f w) (f (w.setBuffer b)) := by
  have hself := hf w.stub.packetBuffer ⟨fun _ _ => rfl, hb.nul⟩
  rw [show w.setBuffer w.stub.packetBuffer = w from rfl] at hself
  rw [hf b hb]
  cases hret : f w with
  | error e => exact .error hret hin
  | ok r =>
    rw [hret] at hself
    refine Or.inr ⟨r.1, r.2, r.2.setBuffer b, rfl, rfl, b, ?_, rfl⟩
    have hbuf : r.2 = r.2.setBuffer w.stub.packetBuffer :=
      congrArg Prod.snd (Except.ok.inj hself)
    rw [hbuf]
    exact hb

/-- The digits that `M` reads are in the packet of `n` characters. -/
def MemoryDataIn (x : Xlen) (n : Nat) (s : List Byte) : Prop :=
  ∀ addr len data, readRequest x .M s = .ok (some (.writeMemory addr len data)) →
    data + 2 * len ≤ n + 1

/-- A packet with numeric fields does not see what lies behind it, `M` with enough digits. -/
theorem sameOutcome_numeric (fuel : Nat) (cb : GdbCallbacks x σ) {n : Nat} {w : World x σ}
    {b : Fin gdbBufferSize → Byte} (hb : AgreeTo n w.stub.packetBuffer b) (hn : n < gdbBufferSize)
    {k : NumericPacket} (hcmd : byteAt w.stub.packetBuffer 0 = k.command)
    (hM : k = .M → MemoryDataIn x n (cstr w.stub.packetBuffer 1)) :
    SameOutcome n (dispatch fuel cb w) (dispatch fuel cb (w.setBuffer b)) := by
  have h1 : 1 ≤ n := by
    by_contra h
    obtain rfl : n = 0 := by omega
    refine absurd (hcmd.symm.trans hb.nul) ?_
    cases k <;> decide
  obtain ⟨ps, hps⟩ := dispatch_eq_answer fuel cb k (cstr w.stub.packetBuffer 1)
  rw [(hps w hcmd rfl).1, (hps (w.setBuffer b) ((hb.eq 0 (Nat.zero_le n)).trans hcmd)
    (hb.cstr_eq h1)).1]
  have hsame : SameTo n (w.setBuffer (nulAt ps w.stub.packetBuffer))
      ((w.setBuffer b).setBuffer (nulAt ps b)) := ⟨_, hb.nulAt ps, rfl⟩
  have hblind : ∀ {f : World x σ → Result (World x σ)}, Blind f →
      (∀ v, Avoids .outOfBoundsRead (f v)) → SameOutcome n
        (andReturnZero (f (w.setBuffer (nulAt ps w.stub.packetBuffer))))
        (andReturnZero (f ((w.setBuffer b).setBuffer (nulAt ps b)))) := fun hf hin =>
    sameOutcome_of_blind hf hsame (hin _)
  cases hread : readRequest x k (cstr w.stub.packetBuffer 1) with
  | error e => exact .error hread (avoids_readRequest _ _)
  | ok r =>
    rcases r with _ | r
    · exact hblind (blind_send (ascii "E01")) fun _ => avoids_ok _
    · by_cases hdata : ∃ addr len data, r = .writeMemory addr len data
      · obtain ⟨addr, len, data, rfl⟩ := hdata
        obtain rfl := eq_M_of_readRequest hread
        exact sameOutcome_writeMemory cb hsame hn (hM rfl addr len data hread)
      · have hno : ∀ addr len data, r ≠ .writeMemory addr len data := fun addr len data h =>
          hdata ⟨addr, len, data, h⟩
        exact hblind (blind_perform cb hno) fun v => avoids_perform (by decide) cb (Or.inr hno) v

/-- What the commands do does not depend on what lies behind the packet, `G` and `M` with too few
digits apart. -/
theorem sameOutcome_dispatch (fuel : Nat) (cb : GdbCallbacks x σ) {n : Nat} {w w' : World x σ}
    (h : SameTo n w w') (hn : n < gdbBufferSize)
    (hG : byteAt w.stub.packetBuffer 0 = chr 'G' → 32 * x.regHexChars < n)
    (hM : byteAt w.stub.packetBuffer 0 = chr 'M' →
      MemoryDataIn x n (cstr w.stub.packetBuffer 1)) :
    SameOutcome n (dispatch fuel cb w) (dispatch fuel cb w') := by
  obtain ⟨b, hb, rfl⟩ := h
  have hfirst : byteAt (w.setBuffer b).stub.packetBuffer 0 = byteAt w.stub.packetBuffer 0 :=
    hb.eq 0 (Nat.zero_le n)
  by_cases hnum : ∃ k : NumericPacket, byteAt w.stub.packetBuffer 0 = k.command
  · obtain ⟨k, hk⟩ := hnum
    exact sameOutcome_numeric fuel cb hb hn hk fun hkM => hM (hk.trans (by rw [hkM]; rfl))
  · rw [not_exists] at hnum
    by_cases hregs : byteAt w.stub.packetBuffer 0 = chr 'G'
    · rw [dispatch_G fuel cb hregs, dispatch_G fuel cb (hfirst.trans hregs)]
      exact sameOutcome_writeRegisters cb ⟨b, hb, rfl⟩ (hG hregs)
    · by_cases hsearch : strncmpEq w.packetText (ascii "qSearch:memory:")
      · have htext : (w.setBuffer b).packetText = w.packetText := hb.cstr_eq (Nat.zero_le n)
        have hlen : 15 ≤ n := by
          have hle := (List.isPrefixOf_iff_prefix.mp hsearch).length_le
          have hcstr := hb.length_cstr_le (Nat.zero_le n)
          rw [Nat.zero_add] at hcstr
          exact (hle : 15 ≤ (cstr w.stub.packetBuffer 0).length).trans hcstr
        rw [dispatch_searchMemory fuel cb hsearch,
          dispatch_searchMemory fuel cb (htext.symm ▸ hsearch)]
        exact sameOutcome_handleSearchMemory fuel cb hb hlen
      · exact sameOutcome_of_map hb (avoids_dispatch fuel cb hnum hregs) fun b' hb' =>
          dispatch_setBuffer fuel cb hb' hnum hregs hsearch

end Rv32Gdb
