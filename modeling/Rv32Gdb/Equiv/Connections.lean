import Rv32Gdb.Equiv.Reachable
import Rv32Gdb.Equiv.UnknownCommands

/-!
# One client after another

`gdb_stub_accept` leaves the acknowledgement mode, the thread-id syntax and the number of failures as
the clients before have left them: `modes_of_clientsRun`.  So a new connection starts fresh exactly
when none of them has asked for `QStartNoAckMode`, the last `qSupported` has not named
`multiprocess+`, and a packet has come since the last failure: `fresh_accept_iff`.
-/

namespace Rv32Gdb

variable {x : Xlen} {σ : Type}

/-! ### Deliveries -/

/-- What a call of `receive_packet` comes to. -/
inductive Delivery
  | failed
  | interrupt
  | packet (p : List Byte)
  deriving DecidableEq

/-- A Ctrl-C comes before any packet. -/
def interruptsFirst (input : List Byte) : Bool :=
  input.find? (fun c => c = chr '$' || c = 0x03) = some 0x03

/-- What the next call of `receive_packet` comes to. -/
def GdbStub.delivery (s : GdbStub) : Delivery :=
  match receivePacket s with
  | .ok (true, s') => if interruptsFirst s.input then .interrupt else .packet s'.packet
  | _ => .failed

/-- What is received in the next call of `gdb_stub_process`. -/
def World.deliveries (w : World x σ) : List Delivery :=
  if w.stub.connected ∧ w.stub.consecutiveFailures < 50 then [w.stub.delivery] else []

/-- A Ctrl-C can still be taken. -/
def RecvState.interrupts : RecvState → List Byte → Bool
  | .waitStart, input => interruptsFirst input
  | _, _ => false

/-- What becomes of the connection in `receive_packet`. -/
structure DeliveryFrame (s s' : GdbStub) (received interrupt : Bool) : Prop where
  noAckMode : s'.noAckMode = s.noAckMode
  consecutiveFailures : s'.consecutiveFailures =
    if !received then s.consecutiveFailures + 1
    else if interrupt then s.consecutiveFailures else 0
  interrupt : received → interrupt → s'.packet = [0x03]

theorem DeliveryFrame.of_poke {s s' : GdbStub} {i : Nat} {b : Byte} {received interrupt : Bool}
    {f : GdbStub → Result (Bool × GdbStub)} (h : (s.poke i b >>= f) = .ok (received, s'))
    (hf : ∀ s₁, f s₁ = .ok (received, s') → DeliveryFrame s₁ s' received interrupt) :
    DeliveryFrame s s' received interrupt := by
  unfold GdbStub.poke at h
  split_ifs at h
  · have hs := hf _ h
    exact ⟨hs.noAckMode, hs.consecutiveFailures, hs.interrupt⟩
  · cases h

theorem receiveLoop_deliveryFrame (input : List Byte) (s : GdbStub) (st : RecvState)
    {received : Bool} {s' : GdbStub} (h : receiveLoop s st input = .ok (received, s')) :
    DeliveryFrame s s' received (st.interrupts input) := by
  induction input generalizing s st with
  | nil =>
    have hnil : (false, { s with input := [], consecutiveFailures := s.consecutiveFailures + 1 }) =
        (received, s') := by
      cases st <;> exact Except.ok.inj h
    obtain ⟨rfl, rfl⟩ := Prod.mk.inj hnil
    exact ⟨rfl, rfl, fun h => absurd h (by decide)⟩
  | cons c rest ih =>
    cases st with
    | waitStart =>
      rw [receiveLoop] at h
      split_ifs at h with hdollar hint
      · have hs := ih s _ h
        have hno : RecvState.waitStart.interrupts (c :: rest) = false := by
          subst hdollar
          rfl
        rw [hno]
        exact hs
      · -- the Ctrl-C byte is the whole packet
        rw [s.poke_of_lt _ (by decide)] at h
        obtain ⟨rfl, rfl⟩ := Prod.mk.inj (Except.ok.inj h)
        have hyes : RecvState.waitStart.interrupts (c :: rest) = true := by
          subst hint
          rfl
        rw [hyes]
        refine ⟨rfl, rfl, fun _ _ => ?_⟩
        show [byteAt (setByte s.packetBuffer ⟨0, by decide⟩ 0x03) 0] = _
        rw [byteAt_setByte, if_pos rfl]
      · -- any other byte before `$` is skipped
        have hsame : RecvState.waitStart.interrupts (c :: rest) =
            RecvState.waitStart.interrupts rest := by
          show interruptsFirst (c :: rest) = interruptsFirst rest
          rw [interruptsFirst, interruptsFirst, List.find?_cons_of_neg]
          rw [decide_eq_false hdollar, decide_eq_false hint]
          decide
        rw [hsame]
        exact ih s _ h
    | readData index =>
      rw [receiveLoop] at h
      split_ifs at h with hc hroom
      · exact DeliveryFrame.of_poke h fun s₁ h₁ => by
          have hs := ih _ _ h₁
          exact ⟨hs.noAckMode, hs.consecutiveFailures, hs.interrupt⟩
      · exact DeliveryFrame.of_poke h fun s₁ h₁ => ih s₁ _ h₁
      · exact ih s _ h
    | readChecksum index expected digits =>
      simp only [receiveLoop] at h
      have hno : ∀ b : Prop, (RecvState.readChecksum index expected digits).interrupts (c :: rest) →
          b := fun _ h => absurd h Bool.false_ne_true
      -- wrong or right, acknowledged or not; before the last digit the loop goes on
      split_ifs at h with hlast hwrong hack hack
      · obtain ⟨rfl, rfl⟩ := Prod.mk.inj (Except.ok.inj h)
        exact ⟨rfl, rfl, fun _ => hno _⟩
      · obtain ⟨rfl, rfl⟩ := Prod.mk.inj (Except.ok.inj h)
        exact ⟨rfl, rfl, fun _ => hno _⟩
      · obtain ⟨rfl, rfl⟩ := Prod.mk.inj (Except.ok.inj h)
        exact ⟨rfl, rfl, fun _ => hno _⟩
      · obtain ⟨rfl, rfl⟩ := Prod.mk.inj (Except.ok.inj h)
        exact ⟨rfl, rfl, fun _ => hno _⟩
      · exact ih s _ h

/-! ### Modes -/

/-- What belongs to a connection but is kept in the context. -/
structure Modes where
  noAck : Bool
  multiprocess : Bool
  failures : Nat
  deriving DecidableEq

def World.modes (w : World x σ) : Modes :=
  ⟨w.stub.noAckMode, w.dbg.multiprocessActive, w.stub.consecutiveFailures⟩

/-- The capabilities in a `qSupported` packet contain `multiprocess+`. -/
def namesMultiprocess (p : List Byte) : Bool :=
  ascii "multiprocess+" <:+: (p.takeWhile (· ≠ 0#8)).drop 10

/-- The modes after a delivery. -/
def Modes.after (m : Modes) : Delivery → Modes
  | .failed => { m with failures := m.failures + 1 }
  | .interrupt => m
  | .packet p =>
    { noAck := m.noAck || (ascii "QStartNoAckMode").isPrefixOf p
      multiprocess := if (ascii "qSupported").isPrefixOf p then namesMultiprocess p
        else m.multiprocess
      failures := 0 }

@[simp] theorem modes_send (w : World x σ) (data : List Byte) : (w.send data).modes = w.modes := by
  unfold World.send sendPacket
  split_ifs <;> rfl

theorem strstr_iff (s p : List Byte) : strstr s p ↔ p <:+: s := by
  rw [strstr, List.any_eq_true, List.infix_iff_prefix_suffix]
  simp only [List.mem_tails, List.isPrefixOf_iff_prefix]
  exact exists_congr fun t => and_comm

/-- A character in front does not matter to `strstr` if the string begins with another one. -/
theorem strstr_cons_of_ne {c a : Byte} (hne : a ≠ c) (s p : List Byte) :
    strstr (c :: s) (a :: p) = strstr s (a :: p) := by
  rw [Bool.eq_iff_iff, strstr_iff, strstr_iff, List.infix_cons_iff]
  refine or_iff_right fun hfront => ?_
  exact hne (List.cons_prefix_cons.mp hfront).1

theorem strstr_dropWhile {c a : Byte} (hne : a ≠ c) (s p : List Byte) :
    strstr (s.dropWhile (· = c)) (a :: p) = strstr s (a :: p) := by
  induction s with
  | nil => rfl
  | cons d s ih =>
    by_cases hd : d = c
    · subst hd
      rw [List.dropWhile_cons_of_pos (by simp), ih, strstr_cons_of_ne hne]
    · rw [List.dropWhile_cons_of_neg (by simpa using hd)]

/-- A `qSupported` packet decides about process ids in the thread ids. -/
theorem modes_handleQSupported (w : World x σ) :
    (handleQSupported w).modes = { w.modes with
      multiprocess := strstr (w.packetText.drop 10) (ascii "multiprocess+") } := by
  have hm : ascii "multiprocess+" = chr 'm' :: ascii "ultiprocess+" := by decide
  have hcaps : ∀ caps : List Byte,
      strstr ((if caps.head? = some (chr ':') then caps.tail else caps).dropWhile (· = chr ' '))
        (ascii "multiprocess+") = strstr caps (ascii "multiprocess+") := by
    intro caps
    rw [hm, strstr_dropWhile (by decide)]
    split_ifs with hcolon
    · cases caps with
      | nil => cases hcolon
      | cons c caps =>
        obtain rfl : c = chr ':' := Option.some.inj hcolon
        exact (strstr_cons_of_ne (by decide) _ _).symm
    · rfl
  rw [← hcaps]
  exact modes_send _ _

/-- The callbacks leave `multiprocess_active` alone. -/
structure KeepsMultiprocess (cb : GdbCallbacks x σ) : Prop where
  readReg : ∀ c t i, (cb.readReg c t i).2.dbg.multiprocessActive = t.dbg.multiprocessActive
  writeReg : ∀ c t i v, (cb.writeReg c t i v).dbg.multiprocessActive = t.dbg.multiprocessActive
  readMem : ∀ c t a n, (cb.readMem c t a n).2.dbg.multiprocessActive = t.dbg.multiprocessActive
  writeMem : ∀ c t a v n,
    (cb.writeMem c t a v n).dbg.multiprocessActive = t.dbg.multiprocessActive
  getPc : ∀ c t, (cb.getPc c t).2.dbg.multiprocessActive = t.dbg.multiprocessActive
  setPc : ∀ c t pc, (cb.setPc c t pc).dbg.multiprocessActive = t.dbg.multiprocessActive
  reset : ∀ f ∈ cb.reset, ∀ c t, (f c t).dbg.multiprocessActive = t.dbg.multiprocessActive
  resume : ∀ f ∈ cb.resume, ∀ c t, (f c t).dbg.multiprocessActive = t.dbg.multiprocessActive
  getNumHarts : ∀ f ∈ cb.getNumHarts, ∀ c t,
    (f c t).2.dbg.multiprocessActive = t.dbg.multiprocessActive
  setFocusHart : ∀ f ∈ cb.setFocusHart, ∀ c t hart,
    (f c t hart).dbg.multiprocessActive = t.dbg.multiprocessActive
  getFocusHart : ∀ f ∈ cb.getFocusHart, ∀ c t,
    (f c t).2.dbg.multiprocessActive = t.dbg.multiprocessActive
  getStopHart : ∀ f ∈ cb.getStopHart, ∀ c t,
    (f c t).2.dbg.multiprocessActive = t.dbg.multiprocessActive
  haltCpus : ∀ f ∈ cb.haltCpus, ∀ c t, (f c t).dbg.multiprocessActive = t.dbg.multiprocessActive

theorem modes_withTarget (w : World x σ) {t : Target x σ}
    (h : t.dbg.multiprocessActive = w.dbg.multiprocessActive) : (w.withTarget t).modes = w.modes :=
  congrArg (fun b => (⟨w.stub.noAckMode, b, w.stub.consecutiveFailures⟩ : Modes)) h

theorem modes_updDbg (w : World x σ) {f : DebugState x → DebugState x}
    (h : (f w.dbg).multiprocessActive = w.dbg.multiprocessActive) : (w.updDbg f).modes = w.modes :=
  congrArg (fun b => (⟨w.stub.noAckMode, b, w.stub.consecutiveFailures⟩ : Modes)) h

theorem modes_actOpt (w : World x σ) {f : Option (Bool → Target x σ → Target x σ)}
    (h : ∀ g ∈ f, ∀ c t, (g c t).dbg.multiprocessActive = t.dbg.multiprocessActive) :
    (w.actOpt f).modes = w.modes := by
  cases f with
  | none => rfl
  | some g => exact modes_withTarget w (h g rfl _ _)

theorem modes_callOpt {α : Type} (w : World x σ)
    {f : Option (Bool → Target x σ → α × Target x σ)} (default : α)
    (h : ∀ g ∈ f, ∀ c t, (g c t).2.dbg.multiprocessActive = t.dbg.multiprocessActive) :
    (w.callOpt f default).2.modes = w.modes := by
  cases f with
  | none => rfl
  | some g => exact modes_withTarget w (h g rfl _ _)

namespace KeepsMultiprocess

variable {cb : GdbCallbacks x σ} (hcb : KeepsMultiprocess cb)

include hcb

theorem quietSteps (m : Modes) : QuietSteps cb fun w : World x σ => w.modes = m where
  send w data h := (modes_send w data).trans h
  setBuffer _ _ h := h
  updDbg w _ hf h := (modes_updDbg w hf.multiprocessActive).trans h
  readReg w i h := (modes_withTarget w (hcb.readReg _ _ i)).trans h
  writeReg w i v h := (modes_withTarget w (hcb.writeReg _ _ i v)).trans h
  readMem w a n h := (modes_withTarget w (hcb.readMem _ _ a n)).trans h
  writeMem w a v n h := (modes_withTarget w (hcb.writeMem _ _ a v n)).trans h
  getPc w h := (modes_withTarget w (hcb.getPc _ _)).trans h
  setPc w pc h := (modes_withTarget w (hcb.setPc _ _ pc)).trans h
  resume w h := (modes_actOpt w hcb.resume).trans h
  getNumHarts w d h := (modes_callOpt w d hcb.getNumHarts).trans h
  haltCpus w h := (modes_actOpt w hcb.haltCpus).trans h

theorem modes_selectedThread (w : World x σ) (tid : Int) :
    (selectedThread cb w tid).2.modes = w.modes := by
  have hstop := modes_callOpt w 0 hcb.getStopHart
  unfold selectedThread
  simp only
  split_ifs
  · exact (modes_callOpt _ 0 hcb.getFocusHart).trans hstop
  · exact hstop
  · rfl

theorem modes_handleSetThread (w : World x σ) : (handleSetThread cb w).modes = w.modes := by
  have hnum := modes_callOpt w 1 hcb.getNumHarts
  have hselect := (hcb.modes_selectedThread (w.callOpt cb.getNumHarts 1).2
    (parseThreadSpec (cstr w.stub.packetBuffer 2)).2).trans hnum
  have hfocus : ∀ (v : World x σ) (tid : Int),
      (v.actOpt (cb.setFocusHart.map fun f c t => f c t (tid - 1))).modes = v.modes := by
    intro v tid
    refine modes_actOpt v fun g hg c t => ?_
    obtain ⟨f, hf, rfl⟩ := Option.map_eq_some_iff.mp hg
    exact hcb.setFocusHart f hf c t _
  unfold handleSetThread
  simp only
  split_ifs
  all_goals rw [modes_send]
  · exact hnum
  · exact hnum
  · exact hselect
  · exact (hfocus _ _).trans ((modes_updDbg _ rfl).trans hselect)
  · exact (modes_updDbg _ rfl).trans hnum
  · exact (modes_updDbg _ rfl).trans hnum

theorem modes_clearRegisters (is : List Nat) (w : World x σ) :
    (clearRegisters cb is w).modes = w.modes := by
  induction is generalizing w with
  | nil => rfl
  | cons i is ih => exact (ih _).trans (modes_withTarget w (hcb.writeReg _ _ i 0))

theorem modes_handleReset (w : World x σ) : (handleReset cb w).modes = w.modes := by
  unfold handleReset
  simp only [modes_send]
  refine (modes_updDbg _ rfl).trans ((modes_updDbg _ rfl).trans ?_)
  cases hreset : cb.reset with
  | none => exact (hcb.modes_clearRegisters _ _).trans (modes_withTarget w (hcb.setPc _ _ 0))
  | some reset => exact modes_withTarget w (hcb.reset reset hreset _ _)

end KeepsMultiprocess

/-! ### Packets -/

theorem modes_dispatch {cb : GdbCallbacks x σ} (hcb : KeepsMultiprocess cb) {fuel : Nat}
    {w : World x σ} {r : Int × World x σ} (hret : dispatch fuel cb w = .ok r) :
    r.2.modes =
      { w.modes with
        noAck := w.stub.noAckMode || strncmpEq w.packetText (ascii "QStartNoAckMode")
        multiprocess := if strncmpEq w.packetText (ascii "qSupported") then
            strstr (w.packetText.drop 10) (ascii "multiprocess+")
          else w.dbg.multiprocessActive } := by
  have hfirst : ∀ {c : Byte} {q : List Byte}, strncmpEq w.packetText (c :: q) →
      byteAt w.stub.packetBuffer 0 = c := by
    intro c q hfront
    obtain ⟨t, ht⟩ := List.isPrefixOf_iff_prefix.mp hfront
    exact (cstr_eq_cons (l := q ++ t) ht.symm).1
  by_cases hnoAck : strncmpEq w.packetText (ascii "QStartNoAckMode")
  · have hcmd : byteAt w.stub.packetBuffer 0 = chr 'Q' := hfirst hnoAck
    have hquery : ¬strncmpEq w.packetText (ascii "qSupported") := by
      intro h
      have hq : byteAt w.stub.packetBuffer 0 = chr 'q' := hfirst h
      rw [hcmd] at hq
      exact absurd hq (by decide)
    have hdispatch : dispatch fuel cb w = .ok (0, handleGeneralSet w) := by
      unfold dispatch
      simp only [hcmd]
      rfl
    obtain rfl := Except.ok.inj (hdispatch.symm.trans hret)
    rw [handleGeneralSet, if_pos hnoAck, modes_send, hnoAck, if_neg hquery, Bool.or_true]
    rfl
  by_cases hquery : strncmpEq w.packetText (ascii "qSupported")
  · have hcmd : byteAt w.stub.packetBuffer 0 = chr 'q' := hfirst hquery
    have hdispatch : dispatch fuel cb w = .ok (0, handleQSupported w) := by
      have hhandle : handleQuery fuel cb w = .ok (handleQSupported w) := by
        rw [handleQuery, if_pos hquery]
      unfold dispatch
      simp only [hcmd, hhandle]
      rfl
    obtain rfl := Except.ok.inj (hdispatch.symm.trans hret)
    rw [modes_handleQSupported, if_pos hquery, Bool.eq_false_iff.mpr hnoAck, Bool.or_false]
    rfl
  rw [if_neg hquery, Bool.eq_false_iff.mpr hnoAck, Bool.or_false]
  show r.2.modes = w.modes
  -- `k` does nothing, and `D` answers before it disconnects
  by_cases hneg : r.1 < 0
  · rcases dispatch_of_neg (r := r.1) hret hneg with h | h
    · rw [h]
    · rw [h]
      exact modes_send w _
  · exact (hcb.quietSteps w.modes).dispatch_of_resume fuel rfl (fun h => absurd h hquery)
      (fun h => absurd h hnoAck) (fun _ => hcb.modes_handleSetThread w)
      (fun _ => hcb.modes_handleReset w) (fun f _ hf => modes_updDbg w hf) r.1 r.2 hret
      (not_lt.mp hneg)

/-- A name in front of a received packet is seen by the handlers. -/
theorem strncmpEq_packetText_iff {w : World x σ} {stub : GdbStub} {c : Byte} {name : List Byte}
    (hrecv : receivePacket w.stub = .ok (true, stub)) (hthree : c ≠ 0x03) (hzero : 0#8 ∉ c :: name) :
    strncmpEq ({ w with stub := stub } : World x σ).packetText (c :: name) =
      (c :: name).isPrefixOf stub.packet := by
  rcases packetText_of_receivePacket hrecv with ⟨hint, hcmd⟩ | ⟨-, htext⟩
  · have htext : ({ w with stub := stub } : World x σ).packetText =
        0x03 :: cstr stub.packetBuffer 1 := by
      show cstr stub.packetBuffer 0 = _
      rw [cstr_eq, hcmd, if_neg (by decide)]
    rw [hint, htext, Bool.eq_iff_iff, strncmpEq, List.isPrefixOf_iff_prefix,
      List.isPrefixOf_iff_prefix]
    exact iff_of_false (fun h => hthree (List.cons_prefix_cons.mp h).1)
      fun h => hthree (List.cons_prefix_cons.mp h).1
  · rw [htext, Bool.eq_iff_iff, strncmpEq, List.isPrefixOf_iff_prefix, List.isPrefixOf_iff_prefix,
      prefix_takeWhile_iff hzero]

/-- A call of `gdb_stub_process` changes the modes as what it receives says. -/
theorem modes_gdbStubProcess {cb : GdbCallbacks x σ} (hcb : KeepsMultiprocess cb) {fuel : Nat}
    {w : World x σ} {r : Int × World x σ} (hret : gdbStubProcess fuel cb w = .ok r) :
    r.2.modes = w.deliveries.foldl Modes.after w.modes := by
  unfold gdbStubProcess at hret
  split_ifs at hret with hconn hfail
  · obtain rfl := Except.ok.inj hret
    rw [World.deliveries, if_neg (by simp_all)]
    rfl
  · obtain rfl := Except.ok.inj hret
    rw [World.deliveries, if_neg (by omega)]
    rfl
  rw [World.deliveries, if_pos ⟨by simpa using hconn, by omega⟩, List.foldl_cons, List.foldl_nil]
  obtain ⟨received, stub, hrecv, -⟩ := receivePacket_cases w.stub
  have hframe := receiveLoop_deliveryFrame _ _ _ hrecv
  rw [hrecv] at hret
  cases received with
  | false =>
    obtain rfl := Except.ok.inj hret
    have hdelivery : w.stub.delivery = .failed := by rw [GdbStub.delivery, hrecv]
    rw [hdelivery]
    show (⟨stub.noAckMode, _, stub.consecutiveFailures⟩ : Modes) = _
    rw [hframe.noAckMode, hframe.consecutiveFailures]
    rfl
  | true =>
    have hdispatch : dispatch fuel cb { w with stub := stub } = .ok r := hret
    have hnoAck : strncmpEq ({ w with stub := stub } : World x σ).packetText
        (ascii "QStartNoAckMode") = (ascii "QStartNoAckMode").isPrefixOf stub.packet :=
      strncmpEq_packetText_iff hrecv (by decide) (by decide)
    have hsupported : strncmpEq ({ w with stub := stub } : World x σ).packetText
        (ascii "qSupported") = (ascii "qSupported").isPrefixOf stub.packet :=
      strncmpEq_packetText_iff hrecv (by decide) (by decide)
    rw [modes_dispatch hcb hdispatch, hnoAck, hsupported]
    show (⟨stub.noAckMode || _, _, stub.consecutiveFailures⟩ : Modes) = _
    rw [hframe.noAckMode, hframe.consecutiveFailures]
    -- the Ctrl-C byte begins no command that changes a mode
    by_cases hint : interruptsFirst w.stub.input
    · have hdelivery : w.stub.delivery = .interrupt := by
        rw [GdbStub.delivery, hrecv]
        exact if_pos hint
      have hnone : ∀ {c : Byte} {name : List Byte}, c ≠ 0x03 →
          (c :: name).isPrefixOf stub.packet = false := by
        intro c name hc
        rw [hframe.interrupt rfl hint, Bool.eq_false_iff, ne_eq, List.isPrefixOf_iff_prefix]
        exact fun h => hc (List.cons_prefix_cons.mp h).1
      have hq : (ascii "QStartNoAckMode").isPrefixOf stub.packet = false := hnone (by decide)
      have hs : (ascii "qSupported").isPrefixOf stub.packet = false := hnone (by decide)
      rw [hdelivery, hq, hs, Bool.or_false, if_neg Bool.false_ne_true]
      show (⟨_, _, if !true then _ else if interruptsFirst w.stub.input then _ else _⟩ : Modes) = _
      rw [hint]
      rfl
    · have hdelivery : w.stub.delivery = .packet stub.packet := by
        rw [GdbStub.delivery, hrecv]
        exact if_neg hint
      have hcaps : (ascii "qSupported").isPrefixOf stub.packet →
          strstr (({ w with stub := stub } : World x σ).packetText.drop 10)
            (ascii "multiprocess+") = namesMultiprocess stub.packet := by
        intro hs
        rcases packetText_of_receivePacket hrecv with ⟨hthree, -⟩ | ⟨-, htext⟩
        · rw [hthree] at hs
          exact absurd hs (by decide)
        · rw [htext, Bool.eq_iff_iff, strstr_iff, namesMultiprocess, decide_eq_true_iff]
      rw [hdelivery]
      show (⟨_, _, if !true then _ else if interruptsFirst w.stub.input then _ else _⟩ : Modes) = _
      rw [Bool.eq_false_iff.mpr hint]
      unfold Modes.after
      congr 1
      split_ifs with hs
      · exact hcaps hs
      · rfl

/-! ### Clients -/

/-- `gdb_stub_accept` for a client that will send `input`. -/
def World.accept (w : World x σ) (input : List Byte) : World x σ :=
  { w with stub := gdbStubAccept w.stub input }

/-- The contexts that a program can come to, which calls `gdb_stub_process` for one client after the
other, and what has been received so far.  Between the calls it simulates. -/
inductive ClientsRun (cb : GdbCallbacks x σ) : List Delivery → World x σ → Prop
  | init (sim : σ) (input : List Byte) :
    ClientsRun cb [] ⟨⟨DebugState.init x, sim⟩, gdbStubAccept GdbStub.init input⟩
  | process {history : List Delivery} {w : World x σ} {fuel : Nat} {r : Int × World x σ}
      (hrun : ClientsRun cb history w) (hret : gdbStubProcess fuel cb w = .ok r) :
    ClientsRun cb (history ++ w.deliveries) r.2
  | simulate {history : List Delivery} {w w' : World x σ} (hrun : ClientsRun cb history w)
      (hmodes : w'.modes = w.modes) : ClientsRun cb history w'
  | accept {history : List Delivery} {w : World x σ} (input : List Byte)
      (hrun : ClientsRun cb history w) : ClientsRun cb history (w.accept input)

/-- The modes are what the deliveries of all clients have made of them. -/
theorem modes_of_clientsRun {cb : GdbCallbacks x σ} (hcb : KeepsMultiprocess cb)
    {history : List Delivery} {w : World x σ} (hrun : ClientsRun cb history w) :
    w.modes = history.foldl Modes.after ⟨false, false, 0⟩ := by
  induction hrun with
  | init => rfl
  | process _ hret ih => rw [modes_gdbStubProcess hcb hret, ih, List.foldl_append]
  | simulate _ hmodes ih => rw [hmodes, ih]
  | accept _ _ ih => exact ih

/-- A client has asked for no acknowledgements. -/
def AsksNoAck (history : List Delivery) : Prop :=
  ∃ p, .packet p ∈ history ∧ ascii "QStartNoAckMode" <+: p

/-- The last `qSupported` packet has named `multiprocess+`. -/
def AsksMultiprocess (history : List Delivery) : Prop :=
  ∃ before p later, history = before ++ .packet p :: later ∧ ascii "qSupported" <+: p ∧
    namesMultiprocess p ∧ ∀ q, .packet q ∈ later → ¬ascii "qSupported" <+: q

/-- No packet has come since the last failure. -/
def FailsLast (history : List Delivery) : Prop :=
  ∃ before later, history = before ++ .failed :: later ∧ ∀ p, .packet p ∉ later

theorem noAck_foldl_iff (history : List Delivery) :
    (history.foldl Modes.after ⟨false, false, 0⟩).noAck ↔ AsksNoAck history := by
  induction history using List.reverseRecOn with
  | nil =>
    refine iff_of_false Bool.false_ne_true ?_
    rintro ⟨p, hp, -⟩
    exact absurd hp List.not_mem_nil
  | append_singleton history d ih =>
    rw [List.foldl_append, List.foldl_cons, List.foldl_nil]
    have hold : AsksNoAck history → AsksNoAck (history ++ [d]) := by
      rintro ⟨p, hp, hname⟩
      exact ⟨p, List.mem_append_left _ hp, hname⟩
    have hsplit : AsksNoAck (history ++ [d]) →
        AsksNoAck history ∨ ∃ p, d = .packet p ∧ ascii "QStartNoAckMode" <+: p := by
      rintro ⟨p, hp, hname⟩
      rcases List.mem_append.mp hp with hp | hp
      · exact Or.inl ⟨p, hp, hname⟩
      · exact Or.inr ⟨p, (List.mem_singleton.mp hp).symm, hname⟩
    cases d with
    | failed =>
      refine ih.trans ⟨hold, fun h => (hsplit h).resolve_right ?_⟩
      rintro ⟨p, hp, -⟩
      cases hp
    | interrupt =>
      refine ih.trans ⟨hold, fun h => (hsplit h).resolve_right ?_⟩
      rintro ⟨p, hp, -⟩
      cases hp
    | packet p =>
      show ((_ || _) = true) ↔ _
      rw [Bool.or_eq_true, ih, List.isPrefixOf_iff_prefix]
      constructor
      · rintro (h | h)
        · exact hold h
        · exact ⟨p, List.mem_append_right _ (List.mem_singleton_self _), h⟩
      · intro h
        rcases hsplit h with h | ⟨q, hq, h⟩
        · exact Or.inl h
        · obtain rfl := Delivery.packet.inj hq
          exact Or.inr h

/-- A split of a list with one more element: at that element, or before. -/
theorem eq_append_cons_of_append_singleton {α : Type} {l before later : List α} {a d : α}
    (h : l ++ [d] = before ++ a :: later) :
    later = [] ∧ d = a ∧ l = before ∨ ∃ later', later = later' ++ [d] ∧ l = before ++ a :: later' := by
  induction later using List.reverseRecOn with
  | nil =>
    obtain ⟨hl, hd⟩ := List.append_inj' h rfl
    exact Or.inl ⟨rfl, List.singleton_inj.mp hd, hl⟩
  | append_singleton later b =>
    rw [← List.cons_append, ← List.append_assoc] at h
    obtain ⟨hl, hd⟩ := List.append_inj' h rfl
    exact Or.inr ⟨later, by rw [List.singleton_inj.mp hd], hl⟩

theorem multiprocess_foldl_iff (history : List Delivery) :
    (history.foldl Modes.after ⟨false, false, 0⟩).multiprocess ↔ AsksMultiprocess history := by
  induction history using List.reverseRecOn with
  | nil =>
    refine iff_of_false Bool.false_ne_true ?_
    rintro ⟨before, p, later, hsplit, -⟩
    exact absurd hsplit.symm (by simp)
  | append_singleton history d ih =>
    rw [List.foldl_append, List.foldl_cons, List.foldl_nil]
    -- a delivery that is no `qSupported` packet leaves the last one where it is
    have hother : (∀ p, d = .packet p → ¬ascii "qSupported" <+: p) →
        (AsksMultiprocess history ↔ AsksMultiprocess (history ++ [d])) := by
      intro hd
      constructor
      · rintro ⟨before, p, later, rfl, hs, hnames, hlater⟩
        refine ⟨before, p, later ++ [d], by simp, hs, hnames, fun q hq => ?_⟩
        rcases List.mem_append.mp hq with hq | hq
        · exact hlater q hq
        · exact hd q (List.mem_singleton.mp hq).symm
      · rintro ⟨before, p, later, hsplit, hs, hnames, hlater⟩
        rcases eq_append_cons_of_append_singleton hsplit with ⟨-, hp, -⟩ | ⟨later', rfl, hbefore⟩
        · exact absurd hs (hd p hp)
        · exact ⟨before, p, later', hbefore, hs, hnames,
            fun q hq => hlater q (List.mem_append_left _ hq)⟩
    cases d with
    | failed => exact ih.trans (hother fun p hp => by cases hp)
    | interrupt => exact ih.trans (hother fun p hp => by cases hp)
    | packet p =>
      show (if (ascii "qSupported").isPrefixOf p then namesMultiprocess p else _) = true ↔ _
      by_cases hs : ascii "qSupported" <+: p
      · rw [if_pos (List.isPrefixOf_iff_prefix.mpr hs)]
        constructor
        · intro hnames
          exact ⟨history, p, [], rfl, hs, hnames, fun q hq => absurd hq List.not_mem_nil⟩
        · rintro ⟨before, q, later, hsplit, -, hnames, hlater⟩
          rcases eq_append_cons_of_append_singleton hsplit with ⟨-, hp, -⟩ | ⟨later', rfl, -⟩
          · rwa [Delivery.packet.inj hp]
          · exact absurd hs (hlater p (List.mem_append_right _ (List.mem_singleton_self _)))
      · rw [if_neg fun h => hs (List.isPrefixOf_iff_prefix.mp h)]
        exact ih.trans (hother fun q hq => Delivery.packet.inj hq ▸ hs)

theorem failures_foldl_iff (history : List Delivery) :
    (history.foldl Modes.after ⟨false, false, 0⟩).failures = 0 ↔ ¬FailsLast history := by
  induction history using List.reverseRecOn with
  | nil =>
    refine iff_of_true rfl ?_
    rintro ⟨before, later, hsplit, -⟩
    exact absurd hsplit.symm (by simp)
  | append_singleton history d ih =>
    rw [List.foldl_append, List.foldl_cons, List.foldl_nil]
    cases d with
    | failed =>
      refine iff_of_false (Nat.succ_ne_zero _) fun h => h ?_
      exact ⟨history, [], rfl, fun p hp => absurd hp List.not_mem_nil⟩
    | interrupt =>
      refine ih.trans (not_congr ⟨?_, ?_⟩)
      · rintro ⟨before, later, rfl, hlater⟩
        refine ⟨before, later ++ [.interrupt], by simp, fun p hp => ?_⟩
        rcases List.mem_append.mp hp with hp | hp
        · exact hlater p hp
        · exact absurd (List.mem_singleton.mp hp) (by simp)
      · rintro ⟨before, later, hsplit, hlater⟩
        rcases eq_append_cons_of_append_singleton hsplit with ⟨-, hd, -⟩ | ⟨later', rfl, hbefore⟩
        · cases hd
        · exact ⟨before, later', hbefore, fun p hp => hlater p (List.mem_append_left _ hp)⟩
    | packet p =>
      refine iff_of_true rfl ?_
      rintro ⟨before, later, hsplit, hlater⟩
      rcases eq_append_cons_of_append_singleton hsplit with ⟨-, hd, -⟩ | ⟨later', rfl, -⟩
      · cases hd
      · exact hlater p (List.mem_append_right _ (List.mem_singleton_self _))

/-- The modes of a connection are those of the first one. -/
structure Fresh (w : World x σ) : Prop where
  noAckMode : w.stub.noAckMode = false
  multiprocessActive : w.dbg.multiprocessActive = false
  consecutiveFailures : w.stub.consecutiveFailures = 0

/-- A new connection starts fresh if and only if no client has switched acknowledgements off, the last
`qSupported` has not named `multiprocess+`, and nothing has failed since the last packet. -/
theorem fresh_accept_iff {cb : GdbCallbacks x σ} (hcb : KeepsMultiprocess cb)
    {history : List Delivery} {w : World x σ} (hrun : ClientsRun cb history w)
    (input : List Byte) :
    Fresh (w.accept input) ↔
      ¬AsksNoAck history ∧ ¬AsksMultiprocess history ∧ ¬FailsLast history := by
  have hmodes := modes_of_clientsRun hcb hrun
  have hnoAck := congrArg Modes.noAck hmodes
  have hmultiprocess := congrArg Modes.multiprocess hmodes
  have hfailures := congrArg Modes.failures hmodes
  rw [← noAck_foldl_iff, ← multiprocess_foldl_iff, ← failures_foldl_iff, ← hnoAck, ← hmultiprocess,
    ← hfailures, Bool.not_eq_true, Bool.not_eq_true]
  exact ⟨fun h => ⟨h.noAckMode, h.multiprocessActive, h.consecutiveFailures⟩,
    fun h => ⟨h.1, h.2.1, h.2.2⟩⟩

/-! ### The emulator -/

theorem keepsMultiprocess_of_execFrame {m m' : Machine} (h : ExecFrame m m') :
    m'.dbg.multiprocessActive = m.dbg.multiprocessActive := by rw [h.dbg]

theorem keepsMultiprocess_emuCallbacks : KeepsMultiprocess emuCallbacks where
  readReg _ _ _ := rfl
  writeReg _ _ _ _ := rfl
  readMem _ _ _ _ := keepsMultiprocess_of_execFrame (execFrame_sysReadMem _ _ _ _)
  writeMem _ _ _ _ _ := keepsMultiprocess_of_execFrame (execFrame_sysWriteMem _ _ _ _ _ _)
  getPc _ _ := rfl
  setPc _ _ _ := rfl
  reset _ hf _ _ := Option.some.inj hf ▸ rfl
  resume _ hf _ _ := Option.some.inj hf ▸ rfl
  getNumHarts _ hf _ _ := Option.some.inj hf ▸ rfl
  setFocusHart _ hf _ _ _ := Option.some.inj hf ▸ rfl
  getFocusHart _ hf _ _ := Option.some.inj hf ▸ rfl
  getStopHart _ hf _ _ := Option.some.inj hf ▸ rfl
  haltCpus _ hf _ _ := Option.some.inj hf ▸ rfl

theorem Prelude.modes {w v : EmuWorld} {events : List HartEvent} (h : Prelude w v events) :
    v.modes = w.modes := by
  have hmultiprocess : v.dbg.multiprocessActive = w.dbg.multiprocessActive := by rw [h.dbg]
  unfold World.modes
  rw [h.stub, hmultiprocess]

theorem modes_gdbStubSendStopReason (w : EmuWorld) (signal : Int) (addr : Word) :
    (gdbStubSendStopReason w signal addr).modes = w.modes :=
  (keepsMultiprocess_emuCallbacks.quietSteps w.modes).sendStopReason signal addr rfl

theorem modes_gdbStubSetStopThread (w : EmuWorld) (tid : Int) :
    (w.updDbg fun d => gdbStubSetStopThread d tid).modes = w.modes := by
  refine modes_updDbg w ?_
  unfold gdbStubSetStopThread
  split_ifs <;> rfl

theorem modes_handleHartStop (w : EmuWorld) (h : Nat) (signal : Int) :
    (handleHartStop w h signal).modes = w.modes := by
  unfold handleHartStop notifyStop
  simp only
  rw [modes_gdbStubSendStopReason, modes_gdbStubSetStopThread]
  rfl

/-- The modes do not change while the target runs. -/
theorem modes_runStep {debugMode : Bool} {e : Event} {s s' : Session} (hrun : s.Running)
    (hstep : sessionStep debugMode e s = .ok s') : s'.world.modes = s.world.modes := by
  cases hturn : s.begunTurn debugMode e with
  | none =>
    have hsig := (Prelude.signaled s e).modes
    rcases runStep_without_turn hrun hturn hstep with ⟨-, hworld⟩ | ⟨-, tid, -, hstop⟩
    · rw [hworld, hsig]
    · obtain ⟨u, signal, pc, hflag, hworld⟩ := hstop
      have hu : u.modes = (s.signaled e).modes := by
        have hmultiprocess : u.dbg.multiprocessActive = (s.signaled e).dbg.multiprocessActive := by
          rw [hflag.dbg]
        unfold World.modes
        rw [hflag.stub, hmultiprocess]
      rw [hworld, modes_gdbStubSendStopReason, modes_gdbStubSetStopThread, hu, hsig]
  | some turn =>
    obtain ⟨h, v⟩ := turn
    have hv := (prelude_of_begunTurn hturn).modes
    have hcpu : (v.cpuStep h).modes = v.modes :=
      modes_withTarget v (keepsMultiprocess_of_execFrame (execFrame_sysCpuStep _ _ _).1)
    have hcases := runStep_of_begunTurn hturn hstep
    split_ifs at hcases
    · rw [hcases, modes_handleHartStop, modes_updDbg v rfl, hv]
    · rcases hcases with ⟨singleStep, signal, -, rfl⟩ | ⟨rfl, -⟩
      · rw [modes_handleHartStop, modes_updDbg (v.cpuStep h) rfl, hcpu, hv]
      · exact hcpu.trans hv

/-- The sessions of the emulator are such runs. -/
theorem clientsRun_of_sessionRun {debugMode : Bool} {n : Nat} {packets : List (List Byte)}
    {s : Session} (hrun : SessionRun debugMode n packets s) :
    ∃ history, ClientsRun emuCallbacks history s.world := by
  induction hrun with
  | init input => exact ⟨[], .init _ input⟩
  | @step _ s s' e _ hstep ih =>
    obtain ⟨history, hclients⟩ := ih
    by_cases hrunning : s.Running
    · exact ⟨history, hclients.simulate (modes_runStep hrunning hstep)⟩
    have hsignaled := hclients.simulate (Prelude.signaled s e).modes
    rcases step_of_not_running hrunning hstep with hworld | ⟨r, hret, hworld | hworld⟩
    · exact ⟨history, hworld ▸ hsignaled⟩
    · exact ⟨_, hworld ▸ hsignaled.process hret⟩
    · refine ⟨_, (hsignaled.process hret).simulate ?_⟩
      rw [hworld]
      exact modes_withTarget _ rfl

/-- A client that detaches at once. -/
def detachingWorld : EmuWorld := (loadedSession 1 (frame (ascii "D"))).world

theorem fresh_accept_detachingWorld :
    ∃ r, gdbStubProcess 0 emuCallbacks detachingWorld = .ok r ∧ r.1 = -1 ∧
      Fresh (r.2.accept []) := by
  have hvalue : (gdbStubProcess 0 emuCallbacks detachingWorld).toOption.map Prod.fst = some (-1) := by
    decide +kernel
  have hdeliveries : detachingWorld.deliveries = [.packet (ascii "D")] := by decide +kernel
  cases hret : gdbStubProcess 0 emuCallbacks detachingWorld with
  | error e =>
    rw [hret] at hvalue
    cases hvalue
  | ok r =>
    rw [hret] at hvalue
    have hrun : ClientsRun emuCallbacks ([] ++ detachingWorld.deliveries) r.2 :=
      .process (.init _ _) hret
    refine ⟨r, rfl, Option.some.inj hvalue,
      (fresh_accept_iff keepsMultiprocess_emuCallbacks hrun []).mpr ?_⟩
    rw [hdeliveries, ← noAck_foldl_iff, ← multiprocess_foldl_iff, ← failures_foldl_iff]
    decide +kernel

/-- A client that negotiates both modes and then closes the connection. -/
def negotiatingSession : Session :=
  loadedSession 1 (frame (ascii "qSupported:multiprocess+") ++ frame (ascii "QStartNoAckMode"))

/-- The next client gets no acknowledgements, but process ids and one failure. -/
theorem not_fresh_accept_negotiatingSession :
    ∃ packets s, SessionRun false 1 packets s ∧ s.phase = .ended ∧
      (s.world.accept []).modes = ⟨true, true, 1⟩ ∧ ¬Fresh (s.world.accept []) := by
  have hsteps : negotiatingSession.steps false [.quiet, .quiet, .quiet] := by decide +kernel
  have hstart : SessionRun false 1 [] negotiatingSession := sessionRun_loadedSession _ _ _
  obtain ⟨packets, hrun⟩ := hstart.after hsteps
  have hmodes : ((negotiatingSession.after false [.quiet, .quiet, .quiet]).world.accept []).modes =
      ⟨true, true, 1⟩ := by decide +kernel
  have hstale : ∀ w : EmuWorld, w.modes = ⟨true, true, 1⟩ → ¬Fresh w := by
    intro w hw hfresh
    exact absurd ((congrArg Modes.noAck hw).symm.trans hfresh.noAckMode) (by decide)
  exact ⟨packets, _, hrun, by decide +kernel, hmodes, hstale _ hmodes⟩

end Rv32Gdb
