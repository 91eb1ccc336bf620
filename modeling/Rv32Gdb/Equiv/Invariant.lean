import Rv32Gdb.Equiv.Replies

/-!
# Invariants of the command handlers

`QuietSteps cb P` collects what keeps a property `P` of stub and simulator: sending, cutting the
packet, the changes of the debug state that commands make (`ModeFrame`), and the callbacks.
`QuietSteps.dispatch`: then every command keeps `P`, unless it disconnects, queries (`q`), sets (`Q`),
selects a thread (`H`), resets (`R`) or resumes the target.  `CommandSteps cb P` is the same for a
property that also what the client may negotiate keeps, so that `q` and `Q` keep it, too, and
`HandlerInvariant cb P` for one that any change of the debug state keeps but for the selected thread.
-/

namespace Rv32Gdb

variable {x : Xlen} {σ : Type}

/-- What becomes of the threads in the debug state when a command resumes the target. -/
structure ResumeFrame (d d' : DebugState x) : Prop where
  currentThread : d'.currentThread = d.currentThread
  stopThread : d'.stopThread = d.stopThread ∨ d'.stopThread = 0 ∨
    d'.stopThread = max 1 d.currentThread

/-- What becomes of them in any other command. -/
structure CommandFrame (d d' : DebugState x) : Prop extends ResumeFrame d d' where
  continueThread : d'.continueThread = d.continueThread

theorem CommandFrame.of_eq {d d' : DebugState x} (hcurrent : d'.currentThread = d.currentThread)
    (hstop : d'.stopThread = d.stopThread) (hcontinue : d'.continueThread = d.continueThread) :
    CommandFrame d d' := ⟨⟨hcurrent, Or.inl hstop⟩, hcontinue⟩

/-- What becomes of the debug state in a command that negotiates nothing. -/
structure ModeFrame (d d' : DebugState x) : Prop extends CommandFrame d d' where
  multiprocessActive : d'.multiprocessActive = d.multiprocessActive

theorem ModeFrame.of_eq {d d' : DebugState x} (hcurrent : d'.currentThread = d.currentThread)
    (hstop : d'.stopThread = d.stopThread) (hcontinue : d'.continueThread = d.continueThread)
    (hmultiprocess : d'.multiprocessActive = d.multiprocessActive) : ModeFrame d d' :=
  ⟨.of_eq hcurrent hstop hcontinue, hmultiprocess⟩

/-- The primitive steps of the commands that negotiate nothing keep `P`. -/
structure QuietSteps (cb : GdbCallbacks x σ) (P : World x σ → Prop) : Prop where
  send : ∀ w data, P w → P (w.send data)
  setBuffer : ∀ w buf, P w → P (w.setBuffer buf)
  updDbg : ∀ w f, ModeFrame w.dbg (f w.dbg) → P w → P (w.updDbg f)
  readReg : ∀ w i, P w → P (w.call fun c t => cb.readReg c t i).2
  writeReg : ∀ w i v, P w → P (w.act fun c t => cb.writeReg c t i v)
  readMem : ∀ w a n, P w → P (w.call fun c t => cb.readMem c t a n).2
  writeMem : ∀ w a v n, P w → P (w.act fun c t => cb.writeMem c t a v n)
  getPc : ∀ w, P w → P (w.call cb.getPc).2
  setPc : ∀ w pc, P w → P (w.act fun c t => cb.setPc c t pc)
  resume : ∀ w, P w → P (w.actOpt cb.resume)
  getNumHarts : ∀ w d, P w → P (w.callOpt cb.getNumHarts d).2
  haltCpus : ∀ w, P w → P (w.actOpt cb.haltCpus)

/-- The primitive steps of the commands keep `P`. -/
structure CommandSteps (cb : GdbCallbacks x σ) (P : World x σ → Prop) : Prop where
  send : ∀ w data, P w → P (w.send data)
  setBuffer : ∀ w buf, P w → P (w.setBuffer buf)
  updDbg : ∀ w f, CommandFrame w.dbg (f w.dbg) → P w → P (w.updDbg f)
  noAckMode : ∀ w, P w → P { w with stub := { w.stub with noAckMode := true } }
  readReg : ∀ w i, P w → P (w.call fun c t => cb.readReg c t i).2
  writeReg : ∀ w i v, P w → P (w.act fun c t => cb.writeReg c t i v)
  readMem : ∀ w a n, P w → P (w.call fun c t => cb.readMem c t a n).2
  writeMem : ∀ w a v n, P w → P (w.act fun c t => cb.writeMem c t a v n)
  getPc : ∀ w, P w → P (w.call cb.getPc).2
  setPc : ∀ w pc, P w → P (w.act fun c t => cb.setPc c t pc)
  resume : ∀ w, P w → P (w.actOpt cb.resume)
  getNumHarts : ∀ w d, P w → P (w.callOpt cb.getNumHarts d).2
  haltCpus : ∀ w, P w → P (w.actOpt cb.haltCpus)

/-- The primitive steps of the handlers keep `P`, with any change of the debug state but for the
selected thread. -/
structure HandlerInvariant (cb : GdbCallbacks x σ) (P : World x σ → Prop) : Prop where
  send : ∀ w data, P w → P (w.send data)
  setBuffer : ∀ w buf, P w → P (w.setBuffer buf)
  updDbg : ∀ w f, (f w.dbg).currentThread = w.dbg.currentThread → P w → P (w.updDbg f)
  noAckMode : ∀ w, P w → P { w with stub := { w.stub with noAckMode := true } }
  readReg : ∀ w i, P w → P (w.call fun c t => cb.readReg c t i).2
  writeReg : ∀ w i v, P w → P (w.act fun c t => cb.writeReg c t i v)
  readMem : ∀ w a n, P w → P (w.call fun c t => cb.readMem c t a n).2
  writeMem : ∀ w a v n, P w → P (w.act fun c t => cb.writeMem c t a v n)
  getPc : ∀ w, P w → P (w.call cb.getPc).2
  setPc : ∀ w pc, P w → P (w.act fun c t => cb.setPc c t pc)
  resume : ∀ w, P w → P (w.actOpt cb.resume)
  getNumHarts : ∀ w d, P w → P (w.callOpt cb.getNumHarts d).2
  haltCpus : ∀ w, P w → P (w.actOpt cb.haltCpus)

theorem CommandSteps.quietSteps {cb : GdbCallbacks x σ} {P : World x σ → Prop}
    (hP : CommandSteps cb P) : QuietSteps cb P where
  send := hP.send
  setBuffer := hP.setBuffer
  updDbg w f hf := hP.updDbg w f hf.toCommandFrame
  readReg := hP.readReg
  writeReg := hP.writeReg
  readMem := hP.readMem
  writeMem := hP.writeMem
  getPc := hP.getPc
  setPc := hP.setPc
  resume := hP.resume
  getNumHarts := hP.getNumHarts
  haltCpus := hP.haltCpus

theorem HandlerInvariant.commandSteps {cb : GdbCallbacks x σ} {P : World x σ → Prop}
    (hP : HandlerInvariant cb P) : CommandSteps cb P where
  send := hP.send
  setBuffer := hP.setBuffer
  updDbg w f hf := hP.updDbg w f hf.currentThread
  noAckMode := hP.noAckMode
  readReg := hP.readReg
  writeReg := hP.writeReg
  readMem := hP.readMem
  writeMem := hP.writeMem
  getPc := hP.getPc
  setPc := hP.setPc
  resume := hP.resume
  getNumHarts := hP.getNumHarts
  haltCpus := hP.haltCpus

/-- `P` holds of the outcome, if there is one. -/
def Keeps (P : World x σ → Prop) (r : Result (World x σ)) : Prop := ∀ w', r = .ok w' → P w'

/-- `P` holds of the outcome of a command, unless the command disconnects. -/
def KeepsIfConnected (P : World x σ → Prop) (r : Result (Int × World x σ)) : Prop :=
  ∀ n w', r = .ok (n, w') → 0 ≤ n → P w'

theorem keeps_ok {P : World x σ → Prop} {w : World x σ} (h : P w) : Keeps P (.ok w) :=
  fun _ he => Except.ok.inj he ▸ h

theorem keeps_error {P : World x σ → Prop} {e : Stuck} : Keeps P (.error e) :=
  fun w' he => by cases he

theorem keeps_bind {α : Type} {P : World x σ → Prop} {r : Result α} {f : α → Result (World x σ)}
    (hf : ∀ a, r = .ok a → Keeps P (f a)) : Keeps P (r >>= f) := by
  cases r with
  | error e => exact keeps_error
  | ok a => exact hf a rfl

/-! ### The selected thread -/

theorem modeFrame_gdbStubSetStopThread (d : DebugState x) :
    ModeFrame d (gdbStubSetStopThread d 0) := by
  unfold gdbStubSetStopThread
  rw [if_neg (by decide)]
  split_ifs with h
  · exact ⟨⟨⟨rfl, Or.inr (Or.inr (max_eq_right h).symm)⟩, rfl⟩, rfl⟩
  · exact ⟨⟨⟨rfl, Or.inr (Or.inr (max_eq_left (show d.currentThread ≤ 1 by omega)).symm)⟩, rfl⟩, rfl⟩

theorem modeFrame_gdbStubCheckBreakpoint (d : DebugState x) (pc : GdbAddr x) :
    ModeFrame d (gdbStubCheckBreakpoint d pc).2 := by
  unfold gdbStubCheckBreakpoint
  split_ifs <;> exact ModeFrame.of_eq rfl rfl rfl rfl

theorem modeFrame_outcome (d : DebugState x) {d' : Option (DebugState x)}
    (h : ∀ e ∈ d', ModeFrame d e) : ModeFrame d (outcome d d').2 := by
  cases d' with
  | none => exact ModeFrame.of_eq rfl rfl rfl rfl
  | some e => exact h e rfl

namespace QuietSteps

variable {cb : GdbCallbacks x σ} {P : World x σ → Prop} (hP : QuietSteps cb P)

include hP

/-! ### Queries and registers -/

theorem sendStopReason {w : World x σ} (signal : Int) (addr : GdbAddr x) (h : P w) :
    P (gdbStubSendStopReason w signal addr) := by
  unfold gdbStubSendStopReason
  simp only
  split_ifs
  · exact hP.send _ _ (hP.updDbg _ _ (.of_eq rfl rfl rfl rfl) h)
  · exact hP.send _ _ (hP.updDbg _ _ (.of_eq rfl rfl rfl rfl) h)
  · exact hP.send _ _ h
  · exact hP.send _ _ h

theorem handleInterrupt {w : World x σ} (h : P w) : P (handleInterrupt cb w) := by
  unfold Rv32Gdb.handleInterrupt
  have hstop := hP.updDbg w (fun d => { d with shouldStop := true }) (.of_eq rfl rfl rfl rfl) h
  have hhalt := hP.haltCpus _ hstop
  simp only
  split_ifs
  · exact hP.sendStopReason _ _
      (hP.updDbg _ _ (modeFrame_gdbStubSetStopThread _) hhalt)
  · exact hP.sendStopReason _ _ hhalt

theorem handleHaltReason {w : World x σ} (h : P w) : P (handleHaltReason cb w) := by
  unfold Rv32Gdb.handleHaltReason
  simp only
  split_ifs
  · exact hP.send _ _ h
  · exact hP.send _ _ (hP.updDbg _ _ (.of_eq rfl rfl rfl rfl) h)
  · exact hP.send _ _
      (hP.updDbg _ _ (modeFrame_gdbStubCheckBreakpoint _ _) (hP.getPc _ h))

theorem matchPattern {w : World x σ} (addr : GdbAddr x) (i : Nat) (pattern : List Byte) (h : P w) :
    P (matchPattern cb addr i pattern w).2 := by
  induction pattern using List.twoStepInduction generalizing i w with
  | nil => exact h
  | singleton c => exact h
  | cons_cons hi lo rest ih _ =>
    have hread := hP.readMem w (addr + BitVec.ofNat x.bits i) 1 h
    rw [Rv32Gdb.matchPattern]
    simp only
    split_ifs
    · exact hread
    · exact ih _ hread

theorem searchLoop {w : World x σ} (last : GdbAddr x) (pattern : List Byte) (fuel : Nat)
    (addr : GdbAddr x) (h : P w) : Keeps P (searchLoop cb last pattern fuel addr w) := by
  induction fuel generalizing addr w with
  | zero => exact keeps_error
  | succ fuel ih =>
    have hmatch := hP.matchPattern addr 0 pattern h
    rw [Rv32Gdb.searchLoop]
    simp only
    split_ifs
    · exact keeps_ok (hP.send _ _ hmatch)
    · exact ih _ hmatch
    · exact keeps_ok (hP.send _ _ h)

theorem handleSearchMemory {w : World x σ} (fuel : Nat) (h : P w) :
    Keeps P (handleSearchMemory fuel cb w) := by
  unfold Rv32Gdb.handleSearchMemory
  simp only
  split
  · exact keeps_ok (hP.send _ _ h)
  · split
    · exact keeps_ok (hP.send _ _ h)
    · have hcut := fun buf => hP.setBuffer w buf h
      split_ifs
      · exact keeps_ok (hP.send _ _ (hcut _))
      · exact hP.searchLoop _ _ _ _ (hcut _)

/-- The queries that negotiate nothing. -/
theorem handleQuery {w : World x σ} (fuel : Nat) (h : P w)
    (hsupported : strncmpEq w.packetText (ascii "qSupported") → P (handleQSupported w)) :
    Keeps P (handleQuery fuel cb w) := by
  unfold Rv32Gdb.handleQuery
  refine iteInduction (fun hcaps => keeps_ok (hsupported hcaps)) fun _ => ?_
  repeat' refine iteInduction (fun _ => ?_) fun _ => ?_
  · exact keeps_ok (hP.send _ _ h)
  · exact keeps_ok (hP.send _ _ h)
  · exact keeps_bind fun _ _ => keeps_ok (hP.send _ _ (hP.getNumHarts _ _ h))
  · exact keeps_ok (hP.send _ _ h)
  · exact keeps_ok (hP.send _ _ h)
  · exact keeps_ok (hP.send _ _ h)
  · exact keeps_ok (hP.send _ _ h)
  · exact hP.handleSearchMemory fuel h
  · exact keeps_ok (hP.send _ _ h)

theorem handleGeneralSet {w : World x σ} (h : P w)
    (hnoAck : strncmpEq w.packetText (ascii "QStartNoAckMode") → P (handleGeneralSet w)) :
    P (handleGeneralSet w) := by
  by_cases hset : strncmpEq w.packetText (ascii "QStartNoAckMode")
  · exact hnoAck hset
  · rw [Rv32Gdb.handleGeneralSet, if_neg hset]
    exact hP.send _ _ h

theorem readRegistersLoop {w w' : World x σ} {is : List Nat} {p p' : CharArray gdbBufferSize}
    (h : P w) (hloop : readRegistersLoop cb is w p = .ok (w', p')) : P w' := by
  induction is generalizing w p with
  | nil =>
    obtain ⟨rfl, -⟩ := Prod.mk.inj (Except.ok.inj hloop)
    exact h
  | cons i is ih =>
    rw [Rv32Gdb.readRegistersLoop] at hloop
    cases hpush : p.pushAll (encodeHex (w.call fun c t => cb.readReg c t i).1 x.regHexBytes) with
    | error e =>
      simp only [hpush] at hloop
      cases hloop
    | ok p₁ =>
      simp only [hpush] at hloop
      exact ih (hP.readReg w i h) hloop

theorem handleReadRegisters {w : World x σ} (h : P w) : Keeps P (handleReadRegisters cb w) := by
  refine keeps_bind fun r hloop => keeps_bind fun _ _ => keeps_bind fun _ _ => keeps_ok ?_
  exact hP.send _ _ (hP.getPc _ (hP.readRegistersLoop h hloop))

theorem writeRegistersLoop {w : World x σ} (is : List Nat) (h : P w) :
    Keeps P (writeRegistersLoop cb is w) := by
  induction is generalizing w with
  | nil => exact keeps_ok h
  | cons i is ih => exact keeps_bind fun _ _ => ih (hP.writeReg _ _ _ h)

theorem handleWriteRegisters {w : World x σ} (h : P w) : Keeps P (handleWriteRegisters cb w) := by
  refine keeps_bind fun w₁ hloop => keeps_bind fun _ _ => keeps_ok ?_
  exact hP.send _ _ (hP.setPc _ _ (hP.writeRegistersLoop _ h w₁ hloop))

theorem handleReadSingleRegister {w : World x σ} (h : P w) :
    Keeps P (handleReadSingleRegister cb w) := by
  unfold Rv32Gdb.handleReadSingleRegister
  simp only
  split_ifs
  · exact keeps_ok (hP.send _ _ h)
  · exact keeps_bind fun _ _ => keeps_bind fun _ _ => keeps_ok (hP.send _ _ (hP.readReg _ _ h))
  · exact keeps_bind fun _ _ => keeps_bind fun _ _ => keeps_ok (hP.send _ _ (hP.getPc _ h))

theorem handleWriteSingleRegister {w : World x σ} (h : P w) :
    Keeps P (handleWriteSingleRegister cb w) := by
  unfold Rv32Gdb.handleWriteSingleRegister
  split
  · exact keeps_ok (hP.send _ _ h)
  · have hcut := fun buf => hP.setBuffer w buf h
    refine keeps_bind fun _ _ => ?_
    split_ifs
    · exact keeps_ok (hP.send _ _ (hcut _))
    · exact keeps_ok (hP.send _ _ (hP.writeReg _ _ _ (hcut _)))
    · exact keeps_ok (hP.send _ _ (hP.setPc _ _ (hcut _)))

/-! ### Memory -/

theorem readMemoryLoop {w w' : World x σ} {addr : GdbAddr x} {n i : Nat}
    {p p' : CharArray gdbBufferSize} (h : P w)
    (hloop : readMemoryLoop cb addr n i w p = .ok (w', p')) : P w' := by
  induction n generalizing i w p with
  | zero =>
    obtain ⟨rfl, -⟩ := Prod.mk.inj (Except.ok.inj hloop)
    exact h
  | succ n ih =>
    rw [Rv32Gdb.readMemoryLoop] at hloop
    cases hpush : p.pushAll (hexByte ((w.call fun c t =>
        cb.readMem c t (addr + BitVec.ofNat x.bits i) 1).1.setWidth 8)) with
    | error e =>
      simp only [hpush] at hloop
      cases hloop
    | ok p₁ =>
      simp only [hpush] at hloop
      exact ih (hP.readMem w _ _ h) hloop

theorem handleReadMemory {w : World x σ} (h : P w) : Keeps P (handleReadMemory cb w) := by
  have hcut := fun buf => hP.setBuffer w buf h
  unfold Rv32Gdb.handleReadMemory
  simp only
  split
  · exact keeps_ok (hP.send _ _ h)
  · split_ifs
    · exact keeps_ok (hP.send _ _ (hcut _))
    · refine keeps_bind fun r hloop => keeps_bind fun _ _ => keeps_ok ?_
      exact hP.send _ _ (hP.readMemoryLoop (hcut _) hloop)

theorem writeMemoryLoop {w : World x σ} (addr : GdbAddr x) (data n i : Nat) (h : P w) :
    Keeps P (writeMemoryLoop cb addr data n i w) := by
  induction n generalizing i w with
  | zero => exact keeps_ok h
  | succ n ih =>
    exact keeps_bind fun _ _ => keeps_bind fun _ _ => ih _ (hP.writeMem _ _ _ _ h)

theorem handleWriteMemory {w : World x σ} (h : P w) : Keeps P (handleWriteMemory cb w) := by
  have hcut := fun buf => hP.setBuffer w buf h
  unfold Rv32Gdb.handleWriteMemory
  split
  · refine keeps_bind fun w₁ hloop => keeps_ok ?_
    exact hP.send _ _ (hP.writeMemoryLoop _ _ _ _ (hcut _) w₁ hloop)
  · exact keeps_ok (hP.send _ _ h)

theorem writeBytes {w : World x σ} (addr : GdbAddr x) (i : Nat) (d : List Byte) (h : P w) :
    P (w.act fun c t => writeBytes cb c addr i d t) := by
  induction d generalizing i w with
  | nil => exact h
  | cons b d ih => exact ih (i + 1) (hP.writeMem w _ _ _ h)

theorem handleWriteMemoryBinary {w : World x σ} (h : P w) :
    Keeps P (handleWriteMemoryBinary cb w) := by
  have hcut := fun buf => hP.setBuffer w buf h
  unfold Rv32Gdb.handleWriteMemoryBinary
  split
  · simp only
    split_ifs
    · exact keeps_ok (hP.send _ _ (hcut _))
    · refine keeps_bind fun r _ => ?_
      cases r with
      | none => exact keeps_ok (hP.send _ _ (hcut _))
      | some bytes => exact keeps_ok (hP.send _ _ (hP.writeBytes _ _ _ (hcut _)))
  · exact keeps_ok (hP.send _ _ h)

/-! ### Breakpoints and threads -/

theorem handleBreakpoint {w : World x σ} (insert : Bool) (h : P w) :
    P (handleBreakpoint w insert) := by
  have hcut := fun buf => hP.setBuffer w buf h
  unfold Rv32Gdb.handleBreakpoint
  simp only
  split
  · exact hP.send _ _ h
  · split
    · exact hP.send _ _ h
    · split_ifs
      all_goals first
        | exact hP.send _ _ (hP.updDbg _ _ (modeFrame_outcome _ (by simp [ModeFrame.of_eq])) (hcut _))
        | exact hP.send _ _ (hcut _)

theorem handleThreadAlive {w : World x σ} (h : P w) : P (handleThreadAlive cb w) := by
  have hnum := hP.getNumHarts w 1 h
  unfold Rv32Gdb.handleThreadAlive
  simp only
  split_ifs <;> exact hP.send _ _ hnum

theorem handleVcont {w w' : World x σ} {run : Bool} (h : P w)
    (hresume : ∀ f, ResumeFrame w.dbg (f w.dbg) →
      (f w.dbg).multiprocessActive = w.dbg.multiprocessActive → P (w.updDbg f))
    (hret : handleVcont cb w = .ok (run, w')) : P w' := by
  have hsend : ∀ payload, (.ok (false, w.send payload) : Result (Bool × World x σ)) =
      .ok (run, w') → P w' := by
    intro payload he
    obtain ⟨-, rfl⟩ := Prod.mk.inj (Except.ok.inj he)
    exact hP.send _ _ h
  unfold Rv32Gdb.handleVcont at hret
  simp only at hret
  split_ifs at hret
  · exact hsend _ hret
  · exact hsend _ hret
  · exact hsend _ hret
  · obtain ⟨r, hloop, -⟩ := vcontLoop_eq_ok w.dbg
      (skipSemicolon (w.packetText.drop 5)) ⟨false, -1, -1, false⟩ le_rfl
    rw [hloop] at hret
    cases r with
    | reply payload => exact hsend _ hret
    | actions s =>
      simp only [bind, Except.bind] at hret
      split at hret
      · exact hsend _ hret
      · obtain ⟨-, rfl⟩ := Prod.mk.inj (Except.ok.inj hret)
        exact hP.resume _ (hresume _ ⟨rfl, Or.inr (Or.inl rfl)⟩ rfl)

/-! ### The dispatcher -/

/-- Every command keeps `P`, unless it disconnects, negotiates, selects a thread, resets or resumes
the target. -/
theorem dispatch {w : World x σ} (fuel : Nat) (h : P w)
    (hsupported : strncmpEq w.packetText (ascii "qSupported") → P (handleQSupported w))
    (hnoAck : strncmpEq w.packetText (ascii "QStartNoAckMode") → P (Rv32Gdb.handleGeneralSet w))
    (hset : byteAt w.stub.packetBuffer 0 = chr 'H' → P (handleSetThread cb w))
    (hreset : byteAt w.stub.packetBuffer 0 = chr 'R' → P (handleReset cb w))
    (hvcont : ∀ run w', byteAt w.stub.packetBuffer 0 = chr 'v' →
      Rv32Gdb.handleVcont cb w = .ok (run, w') → P w')
    (hcontinue : byteAt w.stub.packetBuffer 0 = chr 'c' → P (handleContinue cb w))
    (hstep : byteAt w.stub.packetBuffer 0 = chr 's' → P (handleStep cb w)) :
    KeepsIfConnected P (dispatch fuel cb w) := by
  have hzero : ∀ {r : Result (World x σ)}, Keeps P r → KeepsIfConnected P (andReturnZero r) := by
    intro r hr n w' he _
    cases r with
    | error e => cases he
    | ok w₁ =>
      obtain ⟨-, rfl⟩ := Prod.mk.inj (Except.ok.inj he)
      exact hr _ rfl
  have hret : ∀ {m : Int} {w₁ : World x σ}, P w₁ → KeepsIfConnected P (.ok (m, w₁)) := by
    intro m w₁ h₁ n w' he _
    obtain ⟨-, rfl⟩ := Prod.mk.inj (Except.ok.inj he)
    exact h₁
  unfold Rv32Gdb.dispatch
  extract_lets cmd
  -- one case for each command, in the order of the `switch`
  repeat' apply iteInduction (motive := KeepsIfConnected P) <;> intro hcmd
  · exact hzero (keeps_ok (hP.handleInterrupt h))
  · exact hzero (keeps_ok (hP.handleHaltReason h))
  · exact hzero (hP.handleQuery fuel h hsupported)
  · exact hzero (keeps_ok (hP.handleGeneralSet h hnoAck))
  · exact hzero (hP.handleReadRegisters h)
  · exact hzero (hP.handleWriteRegisters h)
  · exact hzero (hP.handleReadMemory h)
  · exact hzero (hP.handleWriteMemory h)
  · exact hzero (hP.handleReadSingleRegister h)
  · exact hzero (hP.handleWriteSingleRegister h)
  · exact hzero (hP.handleWriteMemoryBinary h)
  · exact hzero (keeps_ok (hreset hcmd))
  · exact hzero (keeps_ok (hset hcmd))
  · exact hzero (keeps_ok (hP.handleThreadAlive h))
  · intro n w' he _
    cases hv : Rv32Gdb.handleVcont cb w with
    | error e =>
      rw [hv] at he
      cases he
    | ok r =>
      rw [hv] at he
      obtain ⟨-, rfl⟩ := Prod.mk.inj (Except.ok.inj he)
      exact hvcont _ _ ‹_› hv
  · exact hret (hP.send _ _ h)
  · exact hret (hcontinue hcmd)
  · exact hret (hstep hcmd)
  · exact hzero (keeps_ok (hP.handleBreakpoint true h))
  · exact hzero (keeps_ok (hP.handleBreakpoint false h))
  · exact hret h
  · -- `D` is the only command that closes the connection
    intro n w' he hn
    obtain ⟨rfl, -⟩ := Prod.mk.inj (Except.ok.inj he)
    exact absurd hn (by decide)
  · exact hret (hP.send _ _ h)

/-- Resuming the target keeps `P`, too. -/
theorem dispatch_of_resume {w : World x σ} (fuel : Nat) (h : P w)
    (hsupported : strncmpEq w.packetText (ascii "qSupported") → P (handleQSupported w))
    (hnoAck : strncmpEq w.packetText (ascii "QStartNoAckMode") → P (Rv32Gdb.handleGeneralSet w))
    (hset : byteAt w.stub.packetBuffer 0 = chr 'H' → P (handleSetThread cb w))
    (hreset : byteAt w.stub.packetBuffer 0 = chr 'R' → P (handleReset cb w))
    (hresume : ∀ f, ResumeFrame w.dbg (f w.dbg) →
      (f w.dbg).multiprocessActive = w.dbg.multiprocessActive → P (w.updDbg f)) :
    KeepsIfConnected P (Rv32Gdb.dispatch fuel cb w) :=
  hP.dispatch fuel h hsupported hnoAck hset hreset (fun _ _ _ hv => hP.handleVcont h hresume hv)
    (fun _ => hP.resume _ (hresume _ ⟨rfl, Or.inr (Or.inl rfl)⟩ rfl))
    (fun _ => hP.resume _ (hresume _ ⟨rfl, Or.inr (Or.inl rfl)⟩ rfl))

end QuietSteps

namespace CommandSteps

variable {cb : GdbCallbacks x σ} {P : World x σ → Prop} (hP : CommandSteps cb P)

include hP

theorem sendStopReason {w : World x σ} (signal : Int) (addr : GdbAddr x) (h : P w) :
    P (gdbStubSendStopReason w signal addr) := hP.quietSteps.sendStopReason signal addr h

theorem handleInterrupt {w : World x σ} (h : P w) : P (handleInterrupt cb w) :=
  hP.quietSteps.handleInterrupt h

theorem handleHaltReason {w : World x σ} (h : P w) : P (handleHaltReason cb w) :=
  hP.quietSteps.handleHaltReason h

theorem handleQSupported {w : World x σ} (h : P w) : P (handleQSupported w) :=
  hP.send _ _ (hP.updDbg _ _ (.of_eq rfl rfl rfl) h)

theorem handleGeneralSet {w : World x σ} (h : P w) : P (handleGeneralSet w) := by
  unfold Rv32Gdb.handleGeneralSet
  split_ifs
  · exact hP.send _ _ (hP.noAckMode _ h)
  · exact hP.send _ _ h

theorem handleVcont {w w' : World x σ} {run : Bool} (h : P w)
    (hresume : ∀ f, ResumeFrame w.dbg (f w.dbg) → P (w.updDbg f))
    (hret : handleVcont cb w = .ok (run, w')) : P w' :=
  hP.quietSteps.handleVcont h (fun f hf _ => hresume f hf) hret

/-- Every command keeps `P`, unless it disconnects, selects a thread, resets or resumes the
target. -/
theorem dispatch {w : World x σ} (fuel : Nat) (h : P w)
    (hset : byteAt w.stub.packetBuffer 0 = chr 'H' → P (handleSetThread cb w))
    (hreset : byteAt w.stub.packetBuffer 0 = chr 'R' → P (handleReset cb w))
    (hvcont : ∀ run w', byteAt w.stub.packetBuffer 0 = chr 'v' →
      Rv32Gdb.handleVcont cb w = .ok (run, w') → P w')
    (hcontinue : byteAt w.stub.packetBuffer 0 = chr 'c' → P (handleContinue cb w))
    (hstep : byteAt w.stub.packetBuffer 0 = chr 's' → P (handleStep cb w)) :
    KeepsIfConnected P (dispatch fuel cb w) :=
  hP.quietSteps.dispatch fuel h (fun _ => hP.handleQSupported h) (fun _ => hP.handleGeneralSet h)
    hset hreset hvcont hcontinue hstep

/-- Resuming the target keeps `P`, too. -/
theorem dispatch_of_resume {w : World x σ} (fuel : Nat) (h : P w)
    (hset : byteAt w.stub.packetBuffer 0 = chr 'H' → P (handleSetThread cb w))
    (hreset : byteAt w.stub.packetBuffer 0 = chr 'R' → P (handleReset cb w))
    (hresume : ∀ f, ResumeFrame w.dbg (f w.dbg) → P (w.updDbg f)) :
    KeepsIfConnected P (Rv32Gdb.dispatch fuel cb w) :=
  hP.quietSteps.dispatch_of_resume fuel h (fun _ => hP.handleQSupported h)
    (fun _ => hP.handleGeneralSet h) hset hreset fun f hf _ => hresume f hf

end CommandSteps

namespace HandlerInvariant

variable {cb : GdbCallbacks x σ} {P : World x σ → Prop} (hP : HandlerInvariant cb P)

include hP

theorem sendStopReason {w : World x σ} (signal : Int) (addr : GdbAddr x) (h : P w) :
    P (gdbStubSendStopReason w signal addr) := hP.commandSteps.sendStopReason signal addr h

theorem dispatch {w : World x σ} (fuel : Nat) (h : P w)
    (hset : byteAt w.stub.packetBuffer 0 = chr 'H' → P (handleSetThread cb w))
    (hreset : byteAt w.stub.packetBuffer 0 = chr 'R' → P (handleReset cb w)) :
    KeepsIfConnected P (dispatch fuel cb w) :=
  hP.commandSteps.dispatch_of_resume fuel h hset hreset fun f hf => hP.updDbg w f hf.currentThread h

end HandlerInvariant

/-! ### The connection -/

/-- What keeps a property of the stub alone. -/
structure StubInvariant (Q : GdbStub → Prop) : Prop where
  send : ∀ s data, Q s → Q (sendPacket s data)
  setBuffer : ∀ s buf, Q s → Q { s with packetBuffer := buf }
  noAckMode : ∀ s, Q s → Q { s with noAckMode := true }

/-- The callbacks do not see the stub. -/
theorem StubInvariant.handlerInvariant {Q : GdbStub → Prop} (hQ : StubInvariant Q)
    (cb : GdbCallbacks x σ) : HandlerInvariant cb fun w => Q w.stub where
  send w data h := hQ.send _ _ h
  setBuffer w buf h := hQ.setBuffer _ _ h
  updDbg _ _ _ h := h
  noAckMode w h := hQ.noAckMode _ h
  readReg _ _ h := h
  writeReg _ _ _ h := h
  readMem _ _ _ h := h
  writeMem _ _ _ _ h := h
  getPc _ h := h
  setPc _ _ h := h
  resume w h := by rwa [World.stub_actOpt]
  getNumHarts w d h := by rwa [World.stub_callOpt]
  haltCpus w h := by rwa [World.stub_actOpt]

/-- Every command keeps a property of the stub, unless it disconnects. -/
theorem StubInvariant.dispatch {Q : GdbStub → Prop} (hQ : StubInvariant Q) (fuel : Nat)
    (cb : GdbCallbacks x σ) {w : World x σ} (h : Q w.stub) :
    KeepsIfConnected (fun w => Q w.stub) (dispatch fuel cb w) := by
  have hsend : ∀ {v : World x σ} (data : List Byte), v.stub = w.stub → Q (v.send data).stub :=
    fun data hv => hQ.send _ data (hv ▸ h)
  refine (hQ.handlerInvariant cb).dispatch fuel h (fun _ => ?_) fun _ => ?_
  · unfold handleSetThread
    simp only
    split_ifs <;> exact hsend _ (by simp [stub_selectedThread])
  · unfold handleReset
    refine hsend _ ?_
    cases cb.reset with
    | none => simp [stub_clearRegisters]
    | some reset => rfl

/-- What is known of a command by its return value. -/
def ReturnValue (cmd : Byte) (r : Result (Int × World x σ)) : Prop :=
  ∀ n w', r = .ok (n, w') → n = 0 ∨ n = 1 ∧ (cmd = chr 'v' ∨ cmd = chr 'c' ∨ cmd = chr 's') ∨
    n = -1 ∧ (cmd = chr 'k' ∨ cmd = chr 'D')

/-- Only `vCont`, `c` and `s` run the target, and only `k` and `D` disconnect. -/
theorem returnValue_dispatch (fuel : Nat) (cb : GdbCallbacks x σ) (w : World x σ) :
    ReturnValue (byteAt w.stub.packetBuffer 0) (dispatch fuel cb w) := by
  have hzero : ∀ {cmd : Byte} (r : Result (World x σ)), ReturnValue cmd (andReturnZero r) := by
    intro cmd r n w' he
    cases r with
    | error e => cases he
    | ok w₁ => exact Or.inl (congrArg Prod.fst (Except.ok.inj he)).symm
  have hret : ∀ {cmd : Byte} {m : Int} {w₁ : World x σ}, (m = 0 ∨ m = 1 ∧ (cmd = chr 'v' ∨
      cmd = chr 'c' ∨ cmd = chr 's') ∨ m = -1 ∧ (cmd = chr 'k' ∨ cmd = chr 'D')) →
      ReturnValue cmd (.ok (m, w₁)) := by
    intro cmd m w₁ h n w' he
    obtain ⟨rfl, -⟩ := Prod.mk.inj (Except.ok.inj he)
    exact h
  unfold Rv32Gdb.dispatch
  extract_lets cmd
  repeat' apply iteInduction (motive := ReturnValue cmd) <;> intro hcmd
  all_goals first
    | exact hzero _
    | exact hret (Or.inl rfl)
    | exact hret (Or.inr (Or.inl ⟨rfl, Or.inr (Or.inl hcmd)⟩))
    | exact hret (Or.inr (Or.inl ⟨rfl, Or.inr (Or.inr hcmd)⟩))
    | exact hret (Or.inr (Or.inr ⟨rfl, Or.inl hcmd⟩))
    | exact hret (Or.inr (Or.inr ⟨rfl, Or.inr hcmd⟩))
    | skip
  intro n w' he
  cases hv : Rv32Gdb.handleVcont cb w with
  | error e =>
    rw [hv] at he
    cases he
  | ok r =>
    rw [hv] at he
    obtain ⟨rfl, -⟩ := Prod.mk.inj (Except.ok.inj he)
    split_ifs
    · exact Or.inr (Or.inl ⟨rfl, Or.inl ‹_›⟩)
    · exact Or.inl rfl

end Rv32Gdb
