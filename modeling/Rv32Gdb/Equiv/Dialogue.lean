import Rv32Gdb.Equiv.Execution
import Rv32Gdb.Equiv.Framing
import Rv32Gdb.Equiv.WireFormat
import Rv32Gdb.PrefixCode

/-!
# The dialogue of a session

`Dialogue` is the conversation of a client and the stub as the two see it: who speaks next, and
whether packets are acknowledged.  `Dialogue.Step` says what may be written for a packet and what
not; the target, its memory and its harts do not occur in it.

`dialogue_of_sessionFrom`: every session, whatever its client sends and its harts execute, is such
a dialogue.  What holds of every dialogue then holds of every session: no packet is sent that was
not asked for (`sessionFrom_counts`), and the bytes that the client reads split into
acknowledgements and packets in one way (`sessionFrom_decodes`).
-/

namespace Rv32Gdb

/-! ### Dialogues -/

/-- Who speaks next. -/
inductive Speaker
  /-- The stub waits for a packet. -/
  | client
  /-- The target runs, and a stop reply is owed. -/
  | target
  /-- The session is over. -/
  | nobody
  deriving DecidableEq, Repr

/-- What a client and the stub both know. -/
structure Dialogue where
  speaker : Speaker
  noAck : Bool

/-- What is written for the receipt of a packet: an acknowledgement, unless these are switched off.
The Ctrl-C byte without a frame is taken for a packet as well and not acknowledged; a dialogue does
not show in which form the byte came. -/
def Acknowledges (noAck : Bool) (packet : List Byte) (chunks : List (List Byte)) : Prop :=
  chunks = (if noAck then [] else [[chr '+']]) ∨ packet = [0x03] ∧ chunks = []

/-- The packets that resume the target. -/
def ResumesTarget (packet : List Byte) : Prop :=
  packet.head? = some (chr 'v') ∨ packet.head? = some (chr 'c') ∨ packet.head? = some (chr 's')

/-- The packets that end the session. -/
def EndsSession (packet : List Byte) : Prop :=
  packet.head? = some (chr 'k') ∨ packet.head? = some (chr 'D')

/-- A stop reply. -/
def stopPackets : Set (List Byte) := {chunk ∈ wirePackets | isStopPacket chunk}

/-- A step of a dialogue, with the packets that are handled in it and the buffers written. -/
inductive Dialogue.Step :
    Dialogue → List (List Byte) → List (List Byte) → Dialogue → Prop
  /-- A packet is answered by at most one packet. -/
  | answer {noAck : Bool} {packet : List Byte} {acks : List (List Byte)}
      {reply : Option (List Byte)} (hack : Acknowledges noAck packet acks)
      (hreply : ∀ chunk ∈ reply, chunk ∈ wirePackets) :
      Step ⟨.client, noAck⟩ [packet] (acks ++ reply.toList) ⟨.client, noAck || asksNoAck packet⟩
  /-- A packet resumes the target; the reply is owed. -/
  | resume {noAck : Bool} {packet : List Byte} {acks : List (List Byte)}
      (hack : Acknowledges noAck packet acks) (hpacket : ResumesTarget packet) :
      Step ⟨.client, noAck⟩ [packet] acks ⟨.target, noAck⟩
  /-- The client takes its leave. -/
  | leave {noAck : Bool} {packet : List Byte} {acks : List (List Byte)}
      {reply : Option (List Byte)} (hack : Acknowledges noAck packet acks)
      (hpacket : EndsSession packet) (hreply : ∀ chunk ∈ reply, chunk ∈ wirePackets) :
      Step ⟨.client, noAck⟩ [packet] (acks ++ reply.toList) ⟨.nobody, noAck⟩
  /-- No packet can be received. -/
  | hangUp {noAck : Bool} {nacks : List (List Byte)}
      (hnack : nacks = (if noAck then [] else [[chr '-']]) ∨ nacks = []) :
      Step ⟨.client, noAck⟩ [] nacks ⟨.nobody, noAck⟩
  /-- The target runs on. -/
  | goOn {noAck : Bool} : Step ⟨.target, noAck⟩ [] [] ⟨.target, noAck⟩
  /-- The target stops. -/
  | stop {noAck : Bool} {chunk : List Byte} (hchunk : chunk ∈ stopPackets) :
      Step ⟨.target, noAck⟩ [] [chunk] ⟨.client, noAck⟩
  /-- Nothing happens any more. -/
  | closed {noAck : Bool} : Step ⟨.nobody, noAck⟩ [] [] ⟨.nobody, noAck⟩

/-- The dialogues that `d₀` goes on to, with the packets handled and the buffers written since. -/
inductive Dialogue.Run (d₀ : Dialogue) :
    List (List Byte) → List (List Byte) → Dialogue → Prop
  | refl : Run d₀ [] [] d₀
  | step {packets chunks handled written : List (List Byte)} {d d' : Dialogue}
      (hrun : Run d₀ packets chunks d) (hstep : d.Step handled written d') :
      Run d₀ (packets ++ handled) (chunks ++ written) d'

/-! ### Receiving a packet -/

theorem exists_of_poke {s : GdbStub} {i : Nat} {b : Byte} {f : GdbStub → Result (Bool × GdbStub)}
    {r : Bool × GdbStub} (h : (s.poke i b >>= f) = .ok r) :
    ∃ buf, f { s with packetBuffer := buf } = .ok r := by
  obtain ⟨s₁, hs₁, hf⟩ := exists_of_bind_eq_ok h
  unfold GdbStub.poke at hs₁
  split_ifs at hs₁
  exact ⟨_, Except.ok.inj hs₁ ▸ hf⟩

/-- What a call of `receive_packet` writes. -/
def ReceiptWrites (s : GdbStub) (received : Bool) (s' : GdbStub) : Prop :=
  s'.noAckMode = s.noAckMode ∧
    if received then s'.output = s.output ++ s.ack ∨ s'.packet = [0x03] ∧ s'.output = s.output
    else s'.output = s.output ++ s.nack ∨ s'.output = s.output

theorem receiveLoop_writes (input : List Byte) (s : GdbStub) (st : RecvState) {received : Bool}
    {s' : GdbStub} (h : receiveLoop s st input = .ok (received, s')) :
    ReceiptWrites s received s' := by
  induction input generalizing s st with
  | nil =>
    have hend : (.ok (false, { s with
        input := []
        consecutiveFailures := s.consecutiveFailures + 1 }) : Result (Bool × GdbStub)) =
          .ok (received, s') := by
      cases st <;> exact h
    obtain ⟨rfl, rfl⟩ := Prod.mk.inj (Except.ok.inj hend)
    exact ⟨rfl, Or.inr rfl⟩
  | cons c rest ih =>
    cases st with
    | waitStart =>
      rw [receiveLoop] at h
      split_ifs at h
      · exact ih s _ h
      · rw [s.poke_of_lt _ (by decide)] at h
        obtain ⟨rfl, rfl⟩ := Prod.mk.inj (Except.ok.inj h)
        exact ⟨rfl, Or.inr ⟨congrArg (· :: []) (byteAt_setByte s.packetBuffer ⟨0, by decide⟩ _ 0),
          rfl⟩⟩
      · exact ih s _ h
    | readData index =>
      rw [receiveLoop] at h
      split_ifs at h
      · obtain ⟨buf, hbuf⟩ := exists_of_poke h
        have hwrites := ih _ _ hbuf
        exact hwrites
      · obtain ⟨buf, hbuf⟩ := exists_of_poke h
        have hwrites := ih _ _ hbuf
        exact hwrites
      · exact ih s _ h
    | readChecksum index expected digits =>
      simp only [receiveLoop] at h
      -- a wrong checksum, then a right one, each first in no-ack mode
      split_ifs at h with hlast hsum hmode hmode
      · obtain ⟨rfl, rfl⟩ := Prod.mk.inj (Except.ok.inj h)
        exact ⟨rfl, Or.inr rfl⟩
      · obtain ⟨rfl, rfl⟩ := Prod.mk.inj (Except.ok.inj h)
        exact ⟨rfl, Or.inl (by rw [GdbStub.nack, if_neg hmode]; rfl)⟩
      · obtain ⟨rfl, rfl⟩ := Prod.mk.inj (Except.ok.inj h)
        exact ⟨rfl, Or.inl (by rw [GdbStub.ack, if_pos hmode, List.append_nil])⟩
      · obtain ⟨rfl, rfl⟩ := Prod.mk.inj (Except.ok.inj h)
        exact ⟨rfl, Or.inl (by rw [GdbStub.ack, if_neg hmode]; rfl)⟩
      · exact ih s _ h

/-- The request for no-acknowledgement mode is in front of any NUL. -/
theorem asksNoAck_takeWhile (packet : List Byte) :
    asksNoAck (packet.takeWhile (· ≠ 0#8)) = asksNoAck packet := by
  have hfront : ∀ (p t : List Byte), 0#8 ∉ p →
      p.isPrefixOf (t.takeWhile (· ≠ 0#8)) = p.isPrefixOf t := by
    intro p
    induction p with
    | nil => exact fun t _ => rfl
    | cons c p ih =>
      intro t hp
      rw [List.mem_cons, not_or] at hp
      cases t with
      | nil => rfl
      | cons d t =>
        by_cases hd : d = 0#8
        · have hcd : (c == d) = false := by
            rw [hd]
            exact beq_false_of_ne (Ne.symm hp.1)
          rw [List.takeWhile_cons_of_neg (by simpa using hd)]
          simp only [List.isPrefixOf, hcd, Bool.false_and]
        · rw [List.takeWhile_cons_of_pos (by simpa using hd)]
          simp only [List.isPrefixOf, ih t hp.2]
  exact hfront _ _ (by decide)

/-- The packet received is the one whose text is looked at. -/
theorem asksNoAck_packet {w : EmuWorld} {s : GdbStub}
    (hrecv : receivePacket s = .ok (true, w.stub)) :
    asksNoAck w.packetText = asksNoAck w.stub.packet := by
  obtain ⟨received, s', hrecv', hcases⟩ := receivePacket_cases s
  obtain ⟨rfl, rfl⟩ := Prod.mk.inj (Except.ok.inj (hrecv.symm.trans hrecv'))
  rcases hcases rfl with hint | hterm
  · have hhead : byteAt w.stub.packetBuffer 0 = 0x03 :=
      byteAt_of_head?_packet (by rw [hint, List.head?_cons])
    rw [asksNoAck_eq_false (by rw [hhead]; decide), hint]
    rfl
  · rw [World.packetText, cstr_eq_takeWhile (hasBytes_of_terminated hterm), asksNoAck_takeWhile]

/-! ### Steps -/

/-- The dialogue that a session is in. -/
def Session.dialogue (s : Session) : Dialogue where
  speaker :=
    match s.phase with
    | .waiting => .client
    | .ended => .nobody
    | _ => .target
  noAck := s.world.stub.noAckMode

theorem dialogue_of_running {s : Session} (h : s.Running) :
    s.dialogue = ⟨.target, s.world.stub.noAckMode⟩ := by
  obtain ⟨phase, w⟩ := s
  cases phase with
  | waiting => exact absurd rfl h.1
  | ended => exact absurd rfl h.2
  | _ => rfl

/-- The client is connected, and its last packet was received. -/
structure Live (s : GdbStub) : Prop where
  connected : s.connected
  consecutiveFailures : s.consecutiveFailures = 0

theorem stubInvariant_live : StubInvariant Live where
  send s data h := by
    have hframe := StubFrame.sendPacket s data
    exact ⟨hframe.connected.trans h.connected, hframe.consecutiveFailures h.consecutiveFailures⟩
  setBuffer _ _ h := ⟨h.connected, h.consecutiveFailures⟩
  noAckMode _ h := ⟨h.connected, h.consecutiveFailures⟩

/-- The session goes from `s` to `s'` as a dialogue does. -/
def Follows (s s' : Session) : Prop :=
  ∃ written, s'.world.stub.output = s.world.stub.output ++ written ∧
    s.dialogue.Step s.handled written s'.dialogue

/-- The stop reply of `gdb_stub_send_stop_reason` is a stop packet. -/
theorem frame_stopReplyText_mem {x : Xlen} (d : DebugState x) (signal tid : Int)
    (addr : GdbAddr x) : frame (stopReplyText d signal tid addr) ∈ stopPackets :=
  ⟨⟨_, isData_stopReplyText _ _ _ _, (length_stopReplyText_le _ _ _ _).trans (by decide), rfl⟩,
    isStopPacket_of_isStopReply (isStopReply_stopReplyText _ _ _ _)⟩

/-- A step of a running target: it goes on in silence or stops with one stop reply. -/
theorem runStep_writes {debugMode : Bool} {e : Event} {s s' : Session} (hrun : s.Running)
    (hstep : sessionStep debugMode e s = .ok s') :
    (s'.Running ∧ s'.world.stub = s.world.stub) ∨
      (s'.phase = .waiting ∧ ∃ chunk ∈ stopPackets, s'.world.stub = s.world.stub.write chunk) := by
  cases hturn : s.begunTurn debugMode e with
  | none =>
    rcases runStep_of_begunTurn_eq_none hrun hturn hstep with ⟨hgo, hworld⟩ | ⟨hwait, hstop⟩
    · exact Or.inl ⟨hgo, by rw [hworld, (Prelude.signaled s e).stub]⟩
    · obtain ⟨v, signal, pc, hquiet, hworld⟩ := hstop
      refine Or.inr ⟨hwait, _, frame_stopReplyText_mem v.dbg signal v.dbg.replyThread pc, ?_⟩
      rw [hworld, stub_gdbStubSendStopReason, hquiet.stub]
  | some turn =>
    obtain ⟨h, v⟩ := turn
    have hstub := (prelude_of_begunTurn hturn).stub
    have hreply : ∀ (w : EmuWorld) (signal : Int), w.stub = s.world.stub →
        ∃ chunk ∈ stopPackets, (handleHartStop w h signal).stub = s.world.stub.write chunk :=
      fun w signal hw => ⟨_, frame_stopReplyText_mem w.dbg signal _ _, by
        rw [stub_handleHartStop, hw]⟩
    have hcases := runStep_of_begunTurn hturn hstep
    split_ifs at hcases with hbp
    · rw [hcases]
      exact Or.inr ⟨rfl, hreply _ _ hstub⟩
    · rcases hcases with ⟨singleStep, signal, -, rfl⟩ | ⟨rfl, -⟩
      · exact Or.inr ⟨rfl, hreply _ _ hstub⟩
      · exact Or.inl ⟨⟨nofun, nofun⟩, hstub⟩

theorem follows_of_running {debugMode : Bool} {e : Event} {s s' : Session} (hrun : s.Running)
    (hstep : sessionStep debugMode e s = .ok s') : Follows s s' := by
  have hhandled : s.handled = [] := by
    obtain ⟨phase, w⟩ := s
    cases phase with
    | waiting => exact absurd rfl hrun.1
    | _ => rfl
  rw [Follows, dialogue_of_running hrun, hhandled]
  rcases runStep_writes hrun hstep with ⟨hgo, hstub⟩ | ⟨hwait, chunk, hchunk, hstub⟩
  · refine ⟨[], by rw [hstub, List.append_nil], ?_⟩
    rw [dialogue_of_running hgo, hstub]
    exact .goOn
  · refine ⟨[chunk], by rw [hstub]; rfl, ?_⟩
    have hs' : s'.dialogue = ⟨.client, s.world.stub.noAckMode⟩ := by
      rw [Session.dialogue, hwait, hstub]
      rfl
    rw [hs']
    exact .stop hchunk

theorem live_of_running {debugMode : Bool} {e : Event} {s s' : Session} (hrun : s.Running)
    (hstep : sessionStep debugMode e s = .ok s') (h : Live s.world.stub) : Live s'.world.stub := by
  rcases runStep_writes hrun hstep with ⟨-, hstub⟩ | ⟨-, chunk, -, hstub⟩
  · rwa [hstub]
  · rw [hstub]
    exact ⟨h.connected, h.consecutiveFailures⟩

theorem acknowledges_of_received {s s' : GdbStub} (h : receivePacket s = .ok (true, s')) :
    ∃ acks, s'.output = s.output ++ acks ∧ Acknowledges s.noAckMode s'.packet acks := by
  rcases (receiveLoop_writes _ _ _ h).2 with hack | ⟨hint, hout⟩
  · exact ⟨s.ack, hack, Or.inl rfl⟩
  · exact ⟨[], by rw [hout, List.append_nil], Or.inr ⟨hint, rfl⟩⟩

/-- The target runs after a command that resumes it. -/
theorem afterProcess_run (w : EmuWorld) :
    (afterProcess (1, w)).Running ∧ (afterProcess (1, w)).world.stub = w.stub := by
  rcases afterProcess_cases (1, w) with ⟨hneg, -⟩ | ⟨-, hafter⟩ | ⟨-, hne, -⟩
  · exact absurd hneg (show ¬(1 : Int) < 0 by decide)
  · rw [hafter]
    refine ⟨?_, rfl⟩
    show (if w.dbg.singleStep then Phase.stepping else .loopHead) ≠ .waiting ∧
      (if w.dbg.singleStep then Phase.stepping else .loopHead) ≠ .ended
    split_ifs <;> decide
  · exact absurd rfl hne

/-- A packet that is dispatched. -/
theorem follows_of_dispatch {s : Session} {w : EmuWorld} {r : Int × EmuWorld} (fuel : Nat)
    (hwait : s.phase = .waiting) (hrecv : receivePacket s.world.stub = .ok (true, w.stub))
    (hret : dispatch fuel emuCallbacks w = .ok r) : Follows s (afterProcess r) := by
  obtain ⟨n, w'⟩ := r
  obtain ⟨acks, hacks, hack⟩ := acknowledges_of_received hrecv
  obtain ⟨⟨reply, ⟨hreply, hout⟩, hnone⟩, hmode⟩ := commandWrites_dispatch fuel _ w n w' hret
  rw [(receiveLoop_writes _ _ _ hrecv).1, asksNoAck_packet hrecv] at hmode
  have hwritten : w'.stub.output = s.world.stub.output ++ (acks ++ reply.toList) := by
    rw [hout, hacks, List.append_assoc]
  have hclient : s.dialogue = ⟨.client, s.world.stub.noAckMode⟩ := by
    rw [Session.dialogue, hwait]
  have hhandled : s.handled = [w.stub.packet] := by
    rw [Session.handled, hwait]
    show s.world.stub.nextPacket.toList = _
    rw [nextPacket_eq hrecv]
    rfl
  have hhead : ∀ {c : Byte}, byteAt w.stub.packetBuffer 0 = c → c ≠ 0#8 →
      w.stub.packet.head? = some c := fun hc hne => by
    rw [head?_packet hrecv (hc ▸ hne), hc]
  -- a command that does not begin with `Q` leaves the mode alone
  have hmode' : ∀ {c : Byte}, byteAt w.stub.packetBuffer 0 = c → c ≠ chr 'Q' →
      w'.stub.noAckMode = s.world.stub.noAckMode := fun hc hne => by
    rw [hmode, ← asksNoAck_packet hrecv, asksNoAck_eq_false (hc ▸ hne), Bool.or_false]
  rw [Follows, hclient, hhandled]
  rcases returnValue_dispatch fuel emuCallbacks w n w' hret with rfl | ⟨rfl, hcmd⟩ | ⟨rfl, hcmd⟩
  · refine ⟨_, hwritten, ?_⟩
    have hnext : (afterProcess (0, w')).dialogue = ⟨.client, w'.stub.noAckMode⟩ := rfl
    rw [hnext, hmode]
    exact .answer hack hreply
  · obtain rfl := hnone rfl
    rw [Option.toList_none, List.append_nil] at hwritten
    obtain ⟨hrun, hstub⟩ := afterProcess_run w'
    refine ⟨acks, by rw [hstub, hwritten], ?_⟩
    rw [dialogue_of_running hrun, hstub]
    rcases hcmd with hcmd | hcmd | hcmd
    · rw [hmode' hcmd (by decide)]
      exact .resume hack (Or.inl (hhead hcmd (by decide)))
    · rw [hmode' hcmd (by decide)]
      exact .resume hack (Or.inr (Or.inl (hhead hcmd (by decide))))
    · rw [hmode' hcmd (by decide)]
      exact .resume hack (Or.inr (Or.inr (hhead hcmd (by decide))))
  · refine ⟨_, hwritten, ?_⟩
    have hnext : (afterProcess (-1, w')).dialogue = ⟨.nobody, w'.stub.noAckMode⟩ := rfl
    rw [hnext]
    rcases hcmd with hcmd | hcmd
    · rw [hmode' hcmd (by decide)]
      exact .leave hack (Or.inl (hhead hcmd (by decide))) hreply
    · rw [hmode' hcmd (by decide)]
      exact .leave hack (Or.inr (hhead hcmd (by decide))) hreply

theorem live_of_dispatch {s : Session} {w : EmuWorld} {r : Int × EmuWorld} (fuel : Nat)
    (h : Live s.world.stub) (hrecv : receivePacket s.world.stub = .ok (true, w.stub))
    (hret : dispatch fuel emuCallbacks w = .ok r) (hended : (afterProcess r).phase ≠ .ended) :
    Live (afterProcess r).world.stub := by
  have hframe := receiveLoop_frame _ _ _ hrecv
  have hw : Live w.stub :=
    ⟨hframe.connected.trans h.connected, hframe.consecutiveFailures h.consecutiveFailures⟩
  have hkeep := stubInvariant_live.dispatch fuel emuCallbacks hw
  rcases afterProcess_cases r with ⟨-, hafter⟩ | ⟨hone, hafter⟩ | ⟨hpos, -, hafter⟩
  · rw [hafter] at hended
    exact absurd rfl hended
  · rw [hafter]
    exact hkeep r.1 r.2 hret (by omega)
  · rw [hafter]
    exact hkeep r.1 r.2 hret hpos

/-- A step in which the stub waits for a packet. -/
theorem follows_of_waiting {debugMode : Bool} {e : Event} {s s' : Session}
    (hwait : s.phase = .waiting) (h : Live s.world.stub)
    (hstep : sessionStep debugMode e s = .ok s') :
    Follows s s' ∧ (s'.phase ≠ .ended → Live s'.world.stub) := by
  have hfail : s.world.stub.consecutiveFailures < 50 := by
    rw [h.consecutiveFailures]
    decide
  rcases step_of_waiting hwait h.connected hfail hstep with ⟨stub, hrecv, rfl⟩ |
    ⟨stub, r, hrecv, hret, rfl⟩
  · refine ⟨?_, fun hended => absurd rfl hended⟩
    obtain ⟨hmode, hout⟩ := receiveLoop_writes _ _ _ hrecv
    have hclient : s.dialogue = ⟨.client, s.world.stub.noAckMode⟩ := by
      rw [Session.dialogue, hwait]
    have hhandled : s.handled = [] := by
      rw [Session.handled, hwait]
      show s.world.stub.nextPacket.toList = _
      simp only [GdbStub.nextPacket, hrecv, Option.toList_none]
    have hnobody : (⟨.ended, { s.signaled e with stub := stub }⟩ : Session).dialogue =
        ⟨.nobody, stub.noAckMode⟩ := rfl
    rw [Follows, hclient, hhandled, hnobody, hmode]
    rcases hout with hout | hout
    · exact ⟨s.world.stub.nack, hout, .hangUp (Or.inl rfl)⟩
    · exact ⟨[], by rw [List.append_nil]; exact hout, .hangUp (Or.inr rfl)⟩
  · have hrecv' : receivePacket s.world.stub =
        .ok (true, ({ s.signaled e with stub := stub } : EmuWorld).stub) := hrecv
    exact ⟨follows_of_dispatch e.fuel hwait hrecv' hret, live_of_dispatch e.fuel h hrecv' hret⟩

theorem follows_of_ended {debugMode : Bool} {e : Event} {s s' : Session} (hended : s.phase = .ended)
    (hstep : sessionStep debugMode e s = .ok s') : Follows s s' := by
  rw [sessionStep, hended] at hstep
  obtain rfl := Except.ok.inj hstep
  have hstub := (Prelude.signaled s e).stub
  have hhandled : s.handled = [] := by rw [Session.handled, hended]
  have hnobody : s.dialogue = ⟨.nobody, s.world.stub.noAckMode⟩ := by
    rw [Session.dialogue, hended]
  have hnobody' : (⟨.ended, s.signaled e⟩ : Session).dialogue =
      ⟨.nobody, (s.signaled e).stub.noAckMode⟩ := rfl
  rw [Follows, hnobody, hhandled, hnobody', hstub]
  exact ⟨[], (List.append_nil _).symm, .closed⟩

/-- A step of a session is a step of its dialogue. -/
theorem follows_sessionStep {debugMode : Bool} {e : Event} {s s' : Session}
    (h : s.phase ≠ .ended → Live s.world.stub) (hstep : sessionStep debugMode e s = .ok s') :
    Follows s s' ∧ (s'.phase ≠ .ended → Live s'.world.stub) := by
  by_cases hended : s.phase = .ended
  · refine ⟨follows_of_ended hended hstep, fun hs' => ?_⟩
    exact absurd hended (phase_ne_ended_of_step hstep hs')
  by_cases hwait : s.phase = .waiting
  · exact follows_of_waiting hwait (h hended) hstep
  · exact ⟨follows_of_running ⟨hwait, hended⟩ hstep,
      fun _ => live_of_running ⟨hwait, hended⟩ hstep (h hended)⟩

/-- A run of a session is a run of its dialogue. -/
theorem followsRun_of_sessionFrom {debugMode : Bool} {s₀ s : Session} {packets : List (List Byte)}
    (hlive : Live s₀.world.stub) (hrun : SessionFrom debugMode s₀ packets s) :
    (s.phase ≠ .ended → Live s.world.stub) ∧
      ∃ written, s.world.stub.output = s₀.world.stub.output ++ written ∧
        s₀.dialogue.Run packets written s.dialogue := by
  induction hrun with
  | refl => exact ⟨fun _ => hlive, [], (List.append_nil _).symm, .refl⟩
  | step e _ hstep ih =>
    obtain ⟨hlive', written, hout, hdialogue⟩ := ih
    obtain ⟨⟨more, hmore, hfollows⟩, hnext⟩ := follows_sessionStep hlive' hstep
    exact ⟨hnext, written ++ more, by rw [hmore, hout, List.append_assoc],
      hdialogue.step hfollows⟩

/-- **A session is a dialogue.**  Whatever the client sends, whatever the harts execute and whenever
signals and input arrive, what the stub writes is what a dialogue with these packets allows; and
until the session ends the client stays connected. -/
theorem dialogue_of_sessionFrom {debugMode : Bool} {s₀ s : Session} {packets : List (List Byte)}
    (hlive : Live s₀.world.stub) (hrun : SessionFrom debugMode s₀ packets s) :
    (s.phase ≠ .ended → s.world.stub.connected) ∧
      ∃ written, s.world.stub.output = s₀.world.stub.output ++ written ∧
        s₀.dialogue.Run packets written s.dialogue := by
  obtain ⟨hlive', hdialogue⟩ := followsRun_of_sessionFrom hlive hrun
  exact ⟨fun hended => (hlive' hended).connected, hdialogue⟩

/-- A client that asks for the halt reason and steps a hart. -/
def steppingClient : List Byte := frame (ascii "?") ++ frame (ascii "s")

theorem sessionFrom_steppingClient :
    ∃ packets s, SessionFrom false (initSession 1 steppingClient) packets s ∧ s.phase = .waiting ∧
      s.world.stub.output.length = 4 := by
  obtain ⟨packets, hrun⟩ := SessionFrom.refl.after (show (loadedSession 1 steppingClient).steps
    false [.quiet, .quiet, .quiet] by decide +kernel)
  rw [← initSession_eq] at hrun
  refine ⟨packets, _, hrun, ?_⟩
  rw [initSession_eq]
  decide +kernel

theorem live_initSession (n : Nat) (input : List Byte) : Live (initSession n input).world.stub :=
  ⟨rfl, rfl⟩

theorem dialogue_steppingClient :
    ∃ (packets : List (List Byte)) (s : Session), s.world.stub.output.length = 4 ∧
      (s.phase ≠ .ended → s.world.stub.connected) ∧ ∃ written,
        s.world.stub.output = (initSession 1 steppingClient).world.stub.output ++ written ∧
          (initSession 1 steppingClient).dialogue.Run packets written s.dialogue := by
  obtain ⟨packets, s, hrun, -, hlen⟩ := sessionFrom_steppingClient
  exact ⟨packets, s, hlen, dialogue_of_sessionFrom (live_initSession _ _) hrun⟩

/-! ### Counting -/

/-- A buffer that holds a packet. -/
def isPacketChunk (chunk : List Byte) : Bool := chunk.head? = some (chr '$')

theorem isPacketChunk_of_mem {chunk : List Byte} (h : chunk ∈ wirePackets) :
    isPacketChunk chunk := by
  obtain ⟨payload, -, -, rfl⟩ := h
  rfl

theorem ne_plus_of_mem {chunk : List Byte} (h : chunk ∈ wirePackets) : chunk ≠ [chr '+'] := by
  rintro rfl
  exact absurd (isPacketChunk_of_mem h) (by decide)

namespace Dialogue

/-- The packets that the stub still has to send: the stop reply while the target runs. -/
def owed (d : Dialogue) : Nat := if d.speaker = .target then 1 else 0

/-- What the packets that are handled and the buffers that are written have to do with each other,
by number. -/
structure Balanced (d d' : Dialogue) (packets written : List (List Byte)) : Prop where
  noAck : d.noAck → d'.noAck
  replies_le : written.countP isPacketChunk + d'.owed ≤ packets.length + d.owed
  acks_le : written.count [chr '+'] ≤ packets.length
  le_acks : d'.noAck = false → packets.countP (· ≠ [0x03]) ≤ written.count [chr '+']
  silent : d.noAck → ∀ chunk ∈ written, chunk ∈ wirePackets

theorem Balanced.refl (d : Dialogue) : Balanced d d [] [] :=
  ⟨id, le_rfl, le_rfl, fun _ => le_rfl, fun _ _ h => by cases h⟩

theorem Balanced.trans {d d' d'' : Dialogue} {packets packets' written written' : List (List Byte)}
    (h : Balanced d d' packets written) (h' : Balanced d' d'' packets' written') :
    Balanced d d'' (packets ++ packets') (written ++ written') where
  noAck hd := h'.noAck (h.noAck hd)
  replies_le := by
    have h₁ := h.replies_le
    have h₂ := h'.replies_le
    rw [List.countP_append, List.length_append]
    omega
  acks_le := by
    rw [List.count_append, List.length_append]
    exact Nat.add_le_add h.acks_le h'.acks_le
  le_acks hd := by
    have hd' : d'.noAck = false := by
      by_contra hne
      rw [h'.noAck (Bool.not_eq_false _ ▸ hne)] at hd
      cases hd
    rw [List.count_append, List.countP_append]
    exact Nat.add_le_add (h.le_acks hd') (h'.le_acks hd)
  silent hd chunk hchunk := by
    rcases List.mem_append.mp hchunk with hc | hc
    · exact h.silent hd chunk hc
    · exact h'.silent (h.noAck hd) chunk hc

/-- A reply is a packet and no acknowledgement. -/
theorem counts_reply {reply : Option (List Byte)} (h : ∀ chunk ∈ reply, chunk ∈ wirePackets) :
    reply.toList.countP isPacketChunk ≤ 1 ∧ reply.toList.count [chr '+'] = 0 ∧
      ∀ chunk ∈ reply.toList, chunk ∈ wirePackets := by
  cases reply with
  | none => exact ⟨Nat.zero_le _, rfl, fun _ hc => by cases hc⟩
  | some chunk =>
    have hchunk := h chunk rfl
    refine ⟨List.countP_le_length, ?_, fun c hc => List.mem_singleton.mp hc ▸ hchunk⟩
    exact List.count_eq_zero.mpr fun hc => ne_plus_of_mem hchunk (List.mem_singleton.mp hc).symm

theorem counts_acks {noAck : Bool} {packet : List Byte} {acks : List (List Byte)}
    (h : Acknowledges noAck packet acks) :
    acks.countP isPacketChunk = 0 ∧ acks.count [chr '+'] ≤ 1 ∧
      (noAck = false → [packet].countP (· ≠ [0x03]) ≤ acks.count [chr '+']) ∧
      (noAck → acks = []) := by
  rcases h with rfl | ⟨rfl, rfl⟩
  · cases noAck with
    | true => exact ⟨rfl, Nat.zero_le _, fun hf => (by cases hf), fun _ => rfl⟩
    | false =>
      refine ⟨by decide, by decide, fun _ => ?_, fun hf => by cases hf⟩
      exact List.countP_le_length.trans (show 1 ≤ List.count [chr '+'] [[chr '+']] by decide)
  · exact ⟨rfl, Nat.zero_le _, fun _ => by decide, fun _ => rfl⟩

/-- A packet that is handled, with its acknowledgement and at most one reply. -/
theorem balanced_packet {noAck noAck' : Bool} {speaker : Speaker} {packet : List Byte}
    {acks : List (List Byte)} {reply : Option (List Byte)} (hack : Acknowledges noAck packet acks)
    (hreply : ∀ chunk ∈ reply, chunk ∈ wirePackets) (hmode : noAck → noAck')
    (howed : reply.toList.countP isPacketChunk + (⟨speaker, noAck'⟩ : Dialogue).owed ≤ 1) :
    Balanced ⟨.client, noAck⟩ ⟨speaker, noAck'⟩ [packet] (acks ++ reply.toList) := by
  obtain ⟨hzero, hone, hlow, hnil⟩ := counts_acks hack
  obtain ⟨-, hplus, hmem⟩ := counts_reply hreply
  refine ⟨hmode, ?_, ?_, fun hf => ?_, fun hn chunk hc => ?_⟩
  · rw [List.countP_append, hzero, Nat.zero_add]
    exact howed
  · rw [List.count_append, hplus, Nat.add_zero]
    exact hone
  · have hf' : noAck = false := by
      by_contra hne
      rw [hmode (Bool.not_eq_false _ ▸ hne)] at hf
      cases hf
    rw [List.count_append, hplus, Nat.add_zero]
    exact hlow hf'
  · rw [hnil hn, List.nil_append] at hc
    exact hmem chunk hc

theorem Step.balanced {d d' : Dialogue} {handled written : List (List Byte)}
    (h : d.Step handled written d') : Balanced d d' handled written := by
  cases h with
  | answer hack hreply =>
    exact balanced_packet hack hreply (fun hn => by rw [hn]; rfl) (counts_reply hreply).1
  | @resume noAck packet _ hack hpacket =>
    have hbalanced : Balanced ⟨.client, noAck⟩ ⟨.target, noAck⟩ [packet]
        (written ++ (none : Option (List Byte)).toList) :=
      balanced_packet hack (fun _ hc => by cases hc) id le_rfl
    rwa [Option.toList_none, List.append_nil] at hbalanced
  | leave hack hpacket hreply => exact balanced_packet hack hreply id (counts_reply hreply).1
  | @hangUp noAck nacks hnack =>
    rcases hnack with rfl | rfl
    · cases noAck with
      | true => exact ⟨id, le_rfl, le_rfl, fun _ => Nat.zero_le _, fun _ _ hc => by cases hc⟩
      | false =>
        exact ⟨id, by decide, by decide, fun _ => Nat.zero_le _, fun hf => by cases hf⟩
    · exact ⟨id, le_rfl, le_rfl, fun _ => Nat.zero_le _, fun _ _ hc => by cases hc⟩
  | goOn => exact Balanced.refl _
  | stop hchunk =>
    refine ⟨id, ?_, ?_, fun _ => Nat.zero_le _, fun _ c hc => List.mem_singleton.mp hc ▸ hchunk.1⟩
    · exact List.countP_le_length.trans (show 1 ≤ 0 + 1 from le_rfl)
    · exact (List.count_eq_zero.mpr fun hc =>
        ne_plus_of_mem hchunk.1 (List.mem_singleton.mp hc).symm).le
  | closed => exact Balanced.refl _

theorem Run.balanced {d₀ d : Dialogue} {packets written : List (List Byte)}
    (h : d₀.Run packets written d) : Balanced d₀ d packets written := by
  induction h with
  | refl => exact Balanced.refl _
  | step _ hstep ih => exact ih.trans hstep.balanced

end Dialogue

/-- **Nothing is sent unasked.**  In every session that begins with the client's turn, no more
packets are written than have been handled, and one less while the target runs; each packet is
acknowledged once, but for the bare Ctrl-C byte, until acknowledgements are switched off; and from
then on every buffer that is written is a packet. -/
theorem sessionFrom_counts {debugMode : Bool} {s₀ s : Session} {packets : List (List Byte)}
    (hlive : Live s₀.world.stub) (hwait : s₀.phase = .waiting)
    (hrun : SessionFrom debugMode s₀ packets s) :
    ∃ written, s.world.stub.output = s₀.world.stub.output ++ written ∧
      (written.countP isPacketChunk + if s.Running then 1 else 0) ≤ packets.length ∧
      written.count [chr '+'] ≤ packets.length ∧
      (s.world.stub.noAckMode = false →
        packets.countP (· ≠ [0x03]) ≤ written.count [chr '+']) ∧
      (s₀.world.stub.noAckMode → ∀ chunk ∈ written, chunk ∈ wirePackets) := by
  obtain ⟨-, written, hout, hdialogue⟩ := followsRun_of_sessionFrom hlive hrun
  have hbalanced := hdialogue.balanced
  have howed₀ : s₀.dialogue.owed = 0 := by rw [Session.dialogue, hwait]; rfl
  have howed : (if s.Running then 1 else 0) ≤ s.dialogue.owed := by
    split_ifs with h
    · rw [dialogue_of_running h]
      exact le_rfl
    · exact Nat.zero_le _
  have hreplies := hbalanced.replies_le
  exact ⟨written, hout, by omega, hbalanced.acks_le, hbalanced.le_acks, hbalanced.silent⟩

theorem counts_steppingClient :
    ∃ (packets : List (List Byte)) (s : Session), s.phase = .waiting ∧ ∃ written,
      s.world.stub.output = (initSession 1 steppingClient).world.stub.output ++ written ∧
      (written.countP isPacketChunk + if s.Running then 1 else 0) ≤ packets.length ∧
      written.count [chr '+'] ≤ packets.length ∧
      (s.world.stub.noAckMode = false →
        packets.countP (· ≠ [0x03]) ≤ written.count [chr '+']) ∧
      ((initSession 1 steppingClient).world.stub.noAckMode →
        ∀ chunk ∈ written, chunk ∈ wirePackets) := by
  obtain ⟨packets, s, hrun, hwait, -⟩ := sessionFrom_steppingClient
  exact ⟨packets, s, hwait, sessionFrom_counts (live_initSession _ _) rfl hrun⟩

/-! ### The stream of bytes -/

/-- The buffers that the stub may write: acknowledgements and packets. -/
def wireWords : Set (List Byte) := {[chr '+']} ∪ ({[chr '-']} ∪ wirePackets)

/-- A packet ends with the checksum after the first `#`. -/
theorem isPrefixCode_wirePackets : IsPrefixCode wirePackets := by
  refine ⟨?_, ?_⟩
  · rintro ⟨payload, -, -, he⟩
    cases he
  · rintro _ ⟨p, hp, -, rfl⟩ _ ⟨q, hq, -, rfl⟩ ⟨t, ht⟩
    have hne : ∀ {r : List Byte}, IsData r → ∀ c ∈ r, c ≠ chr '#' := by
      rintro r hr c hc rfl
      exact absurd (hr _ hc) (by decide)
    have hcons : p ++ chr '#' :: (hexByte (calculateChecksum p) ++ t) =
        q ++ chr '#' :: hexByte (calculateChecksum q) := by
      simpa [frame] using ht
    rw [(append_cons_inj hcons (hne hp) (hne hq) (fun h => h rfl) fun h => h rfl).1]

theorem isPrefixCode_wireWords : IsPrefixCode wireWords := by
  have hhead : ∀ {w : List Byte}, w ∈ wirePackets → w.head? = some (chr '$') :=
    fun hw => by simpa [isPacketChunk] using isPacketChunk_of_mem hw
  refine (isPrefixCode_singleton (by decide)).union
    ((isPrefixCode_singleton (by decide)).union isPrefixCode_wirePackets ?_) ?_
  · rintro v rfl w hw
    rw [hhead hw]
    decide
  · rintro v rfl w (rfl | hw)
    · decide
    · rw [hhead hw]
      decide

theorem Dialogue.Step.words {d d' : Dialogue} {handled written : List (List Byte)}
    (h : d.Step handled written d') : ∀ chunk ∈ written, chunk ∈ wireWords := by
  have hpacket : ∀ {chunk : List Byte}, chunk ∈ wirePackets → chunk ∈ wireWords :=
    fun hc => Or.inr (Or.inr hc)
  have hacks : ∀ {noAck : Bool} {packet : List Byte} {acks : List (List Byte)},
      Acknowledges noAck packet acks → ∀ chunk ∈ acks, chunk ∈ wireWords := by
    rintro noAck packet acks (rfl | ⟨-, rfl⟩) chunk hc
    · split_ifs at hc
      · cases hc
      · exact Or.inl (List.mem_singleton.mp hc)
    · cases hc
  have hreply : ∀ {reply : Option (List Byte)}, (∀ chunk ∈ reply, chunk ∈ wirePackets) →
      ∀ chunk ∈ reply.toList, chunk ∈ wireWords :=
    fun hr chunk hc => hpacket (hr chunk (Option.mem_toList.mp hc))
  intro chunk hc
  cases h with
  | answer hack hr => exact (List.mem_append.mp hc).elim (hacks hack chunk) (hreply hr chunk)
  | resume hack => exact hacks hack chunk hc
  | leave hack _ hr => exact (List.mem_append.mp hc).elim (hacks hack chunk) (hreply hr chunk)
  | hangUp hnack =>
    rcases hnack with rfl | rfl
    · split_ifs at hc
      · cases hc
      · exact Or.inr (Or.inl (List.mem_singleton.mp hc))
    · cases hc
  | goOn => cases hc
  | stop hchunk => exact List.mem_singleton.mp hc ▸ hpacket hchunk.1
  | closed => cases hc

theorem Dialogue.Run.words {d₀ d : Dialogue} {packets written : List (List Byte)}
    (h : d₀.Run packets written d) : ∀ chunk ∈ written, chunk ∈ wireWords := by
  induction h with
  | refl => exact fun _ hc => by cases hc
  | step _ hstep ih =>
    exact fun chunk hc => (List.mem_append.mp hc).elim (ih chunk) (hstep.words chunk)

/-- **The client can tell where each packet ends.**  The bytes that a session has written split into
acknowledgements and packets in one way, the way they were written. -/
theorem sessionFrom_decodes {debugMode : Bool} {s₀ s : Session} {packets : List (List Byte)}
    (hlive : Live s₀.world.stub) (hout : s₀.world.stub.output = [])
    (hrun : SessionFrom debugMode s₀ packets s) :
    (∀ chunk ∈ s.world.stub.output, chunk ∈ wireWords) ∧
      ∀ chunks : List (List Byte), (∀ chunk ∈ chunks, chunk ∈ wireWords) →
        chunks.flatten = s.world.stub.output.flatten → chunks = s.world.stub.output := by
  obtain ⟨-, written, hwritten, hdialogue⟩ := followsRun_of_sessionFrom hlive hrun
  rw [hout, List.nil_append] at hwritten
  have hwords := hdialogue.words
  rw [hwritten]
  exact ⟨hwords, fun chunks hchunks hbytes =>
    isPrefixCode_wireWords.uniquelyDecodable chunks written hchunks hwords hbytes⟩

theorem decodes_steppingClient :
    ∃ s : Session, s.world.stub.output.length = 4 ∧
      (∀ chunk ∈ s.world.stub.output, chunk ∈ wireWords) ∧
        ∀ chunks : List (List Byte), (∀ chunk ∈ chunks, chunk ∈ wireWords) →
          chunks.flatten = s.world.stub.output.flatten → chunks = s.world.stub.output := by
  obtain ⟨packets, s, hrun, -, hlen⟩ := sessionFrom_steppingClient
  exact ⟨s, hlen, sessionFrom_decodes (live_initSession _ _) rfl hrun⟩

end Rv32Gdb
