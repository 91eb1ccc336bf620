import Rv32Gdb.Equiv.Framing
import Rv32Gdb.Equiv.Execution

/-!
# Packets with a wrong checksum

A wrong checksum makes `gdb_stub_process` return `-1`, on which `main` leaves its loop.
`survives_of_sessionFrom`: a session survives all the packets of its client if at most the last one
has a wrong checksum.
-/

namespace Rv32Gdb

/-- A packet as a client frames it, with what it sends for the checksum; it is neither `k` nor
`D`. -/
structure ClientPacket where
  skipped : List Byte
  payload : List Byte
  hi : Byte
  lo : Byte
  skipped_ne : ∀ c ∈ skipped, c ≠ chr '$' ∧ c ≠ 0x03
  hash_notMem : chr '#' ∉ payload
  goesOn : payload.head? ≠ some (chr 'k') ∧ payload.head? ≠ some (chr 'D')

/-- The bytes of a packet. -/
def ClientPacket.bytes (p : ClientPacket) : List Byte :=
  p.skipped ++ chr '$' :: p.payload ++ [chr '#', p.hi, p.lo]

/-- The bytes of some packets, one after the other. -/
def clientStream (ps : List ClientPacket) : List Byte := ps.flatMap ClientPacket.bytes

/-- The packet has its checksum. -/
def ClientPacket.Correct (p : ClientPacket) : Prop := IsChecksum p.payload p.hi p.lo

instance : DecidablePred ClientPacket.Correct := fun p =>
  inferInstanceAs (Decidable (isxdigit p.hi ∧ isxdigit p.lo ∧ _))

/-- How often the stub has asked for a packet to be sent again. -/
def GdbStub.nacks (s : GdbStub) : Nat := s.output.count [chr '-']

/-- The session has handled the packets with a correct checksum, and answered those with a wrong
one by `-`, up to some point of the stream; it has not ended before the stream has, or else after
`50` failures. -/
def Survives (ps : List ClientPacket) (packets : List (List Byte)) (s : Session) : Prop :=
  ∃ done todo, ps = done ++ todo ∧ s.world.stub.input = clientStream todo ∧
    packets = (done.filter fun p => p.Correct).map ClientPacket.payload ∧
    (s.world.stub.noAckMode = false →
      s.world.stub.nacks = (done.filter fun p => ¬p.Correct).length) ∧
    (s.phase = .ended → todo = [] ∨ 50 ≤ s.world.stub.consecutiveFailures)

/-- At most the last packet has a wrong checksum; all of them fit the buffer and have hex digits
for the checksum. -/
structure OnlyLastWrong (ps : List ClientPacket) : Prop where
  fits : ∀ p ∈ ps, p.payload.length < gdbBufferSize ∧ isxdigit p.hi ∧ isxdigit p.lo
  correct : ∀ p ∈ ps.dropLast, p.Correct

/-! ### The stub between two packets -/

/-- A connected stub without failures that has never answered `-`, with `input` to be read. -/
structure Listening (input : List Byte) (s : GdbStub) : Prop where
  connected : s.connected
  consecutiveFailures : s.consecutiveFailures = 0
  input : s.input = input
  nacks : s.nacks = 0

theorem nacks_write_frame (s : GdbStub) (data : List Byte) :
    (s.write (frame data)).nacks = s.nacks := by
  have hne : ¬(frame data == [chr '-']) := by
    rw [beq_iff_eq]
    exact fun h => absurd (List.cons.inj h).1 (by decide)
  rw [GdbStub.nacks, GdbStub.write, List.count_append, List.count_singleton, if_neg hne,
    Nat.add_zero, GdbStub.nacks]

theorem Listening.write_frame {input : List Byte} {s : GdbStub} (h : Listening input s)
    (data : List Byte) : Listening input (s.write (frame data)) :=
  ⟨h.connected, h.consecutiveFailures, h.input, (nacks_write_frame s data).trans h.nacks⟩

theorem stubInvariant_listening (input : List Byte) : StubInvariant (Listening input) where
  send s data h := by
    unfold sendPacket
    split_ifs
    · exact h.write_frame data
    · exact h
  setBuffer _ _ h := ⟨h.connected, h.consecutiveFailures, h.input, h.nacks⟩
  noAckMode _ h := ⟨h.connected, h.consecutiveFailures, h.input, h.nacks⟩

theorem Listening.accepted {input rest : List Byte} {s : GdbStub} (h : Listening input s)
    (buf : Fin gdbBufferSize → Byte) (n : Nat) : Listening rest (s.accepted buf n rest) := by
  refine ⟨h.connected, rfl, rfl, ?_⟩
  have hack : s.ack.count [chr '-'] = 0 := by
    unfold GdbStub.ack
    split_ifs <;> decide
  rw [GdbStub.nacks, GdbStub.accepted, List.count_append, hack]
  exact h.nacks

/-! ### Sessions -/

theorem clientStream_cons (p : ClientPacket) (ps : List ClientPacket) :
    clientStream (p :: ps) = p.bytes ++ clientStream ps := List.flatMap_cons

theorem ClientPacket.firstFrame (p : ClientPacket) (rest : List Byte) :
    FirstFrame p.skipped p.payload p.hi p.lo rest (p.bytes ++ rest) :=
  ⟨by simp [ClientPacket.bytes], p.skipped_ne, p.hash_notMem⟩

/-- Dispatching on a packet that neither kills nor detaches returns no error. -/
theorem nonneg_of_goesOn {p : ClientPacket} {w : EmuWorld} {fuel : Nat} {r : Int × EmuWorld}
    (hbytes : HasBytes w.stub.packetBuffer 0 (p.payload ++ [0#8]))
    (hret : dispatch fuel emuCallbacks w = .ok r) : 0 ≤ r.1 := by
  have hhead : ∀ c, byteAt w.stub.packetBuffer 0 = c → c ≠ 0#8 → p.payload.head? = some c := by
    intro c hc hne
    cases hp : p.payload with
    | nil =>
      rw [hp] at hbytes
      exact absurd (hc.symm.trans hbytes.head) hne
    | cons d t =>
      rw [hp] at hbytes
      rw [List.head?_cons, ← hc, hbytes.head]
  rcases returnValue_dispatch fuel emuCallbacks w r.1 r.2 hret with h | ⟨h, -⟩ | ⟨-, h⟩
  · omega
  · omega
  · rcases h with h | h
    · exact absurd (hhead _ h (by decide)) p.goesOn.1
    · exact absurd (hhead _ h (by decide)) p.goesOn.2

/-- A session in which all packets so far had a correct checksum. -/
structure Alive (ps : List ClientPacket) (packets : List (List Byte)) (s : Session)
    (done todo : List ClientPacket) : Prop where
  split : ps = done ++ todo
  correct : ∀ p ∈ done, p.Correct
  handled : packets = done.map ClientPacket.payload
  listening : Listening (clientStream todo) s.world.stub
  live : s.phase ≠ .ended

theorem Alive.survives {ps done todo : List ClientPacket} {packets : List (List Byte)} {s : Session}
    (h : Alive ps packets s done todo) : Survives ps packets s := by
  refine ⟨done, todo, h.split, h.listening.input, ?_, fun _ => ?_, fun hend => absurd hend h.live⟩
  · rw [h.handled, List.filter_eq_self.mpr fun p hp => decide_eq_true (h.correct p hp)]
  · rw [h.listening.nacks, List.filter_eq_nil_iff.mpr fun p hp => by simpa using h.correct p hp]
    rfl

/-- Running the target reads nothing and answers no packet. -/
theorem Alive.of_runStep {ps done todo : List ClientPacket} {packets : List (List Byte)}
    {debugMode : Bool} {e : Event} {s s' : Session} (h : Alive ps packets s done todo)
    (hrun : s.Running) (hstep : sessionStep debugMode e s = .ok s') :
    Alive ps (packets ++ s.handled) s' done todo := by
  have hhandled : s.handled = [] := by
    unfold Session.handled
    split
    · exact absurd ‹_› hrun.1
    · rfl
  rw [hhandled, List.append_nil]
  rcases stub_runStep hrun hstep with ⟨hgo, hstub⟩ | ⟨hwait, tid, cause, reply, hreply, hstub⟩
  · exact ⟨h.split, h.correct, h.handled, hstub ▸ h.listening, hgo.2⟩
  · obtain ⟨mp, signal, rfl⟩ := hreply
    refine ⟨h.split, h.correct, h.handled, hstub ▸ h.listening.write_frame _, ?_⟩
    rw [hwait]
    exact nofun

/-- A packet with a correct checksum is handled, and the session goes on. -/
theorem Alive.of_correct {ps done todo : List ClientPacket} {p : ClientPacket}
    {packets : List (List Byte)} {debugMode : Bool} {e : Event} {s s' : Session}
    (h : Alive ps packets s done (p :: todo)) (hwait : s.phase = .waiting)
    (hlen : p.payload.length < gdbBufferSize) (hp : p.Correct)
    (hstep : sessionStep debugMode e s = .ok s') :
    Alive ps (packets ++ s.handled) s' (done ++ [p]) todo := by
  have hframe := h.listening.input ▸ clientStream_cons p todo ▸ p.firstFrame (clientStream todo)
  obtain ⟨buf, hbytes, -, hrecv⟩ := receivePacket_firstFrame hframe
  rw [stored_of_lt hlen] at hbytes hrecv
  rw [if_pos (isChecksum_iff.mp hp).2.2] at hrecv
  -- the packet is delivered as it was sent
  have hhandled : s.handled = [p.payload] := by
    rw [Session.handled, hwait]
    simp only
    rw [nextPacket_eq hrecv, packet_accepted _ _ (hasBytes_append.mp hbytes).1]
    rfl
  have hfail : s.world.stub.consecutiveFailures < 50 := by
    rw [h.listening.consecutiveFailures]
    decide
  rcases step_of_waiting hwait h.listening.connected hfail hstep with
    ⟨stub, hrecv', -⟩ | ⟨stub, r, hrecv', hret, rfl⟩
  · rw [hrecv] at hrecv'
    exact absurd (Prod.mk.inj (Except.ok.inj hrecv')).1 (by simp)
  · rw [hrecv] at hrecv'
    obtain ⟨-, rfl⟩ := Prod.mk.inj (Except.ok.inj hrecv')
    have hnonneg := nonneg_of_goesOn hbytes hret
    have hlisten : Listening (clientStream todo) r.2.stub :=
      (stubInvariant_listening (clientStream todo)).dispatch e.fuel emuCallbacks
        (h.listening.accepted buf p.payload.length) r.1 r.2 hret hnonneg
    refine ⟨by rw [h.split, List.append_assoc]; rfl, fun q hq => ?_, ?_, ?_, ?_⟩
    · rcases List.mem_append.mp hq with hq | hq
      · exact h.correct q hq
      · exact List.mem_singleton.mp hq ▸ hp
    · rw [h.handled, hhandled, List.map_append, List.map_singleton]
    · rcases afterProcess_cases r with ⟨hneg, -⟩ | ⟨-, hafter⟩ | ⟨-, -, hafter⟩
      · omega
      · rwa [hafter]
      · rwa [hafter]
    · rcases afterProcess_cases r with ⟨hneg, -⟩ | ⟨-, hafter⟩ | ⟨-, -, hafter⟩
      · omega
      · rw [hafter]
        show (if r.2.dbg.singleStep then Phase.stepping else Phase.loopHead) ≠ .ended
        split_ifs <;> simp
      · rw [hafter]
        simp

/-- The last packet may have a wrong checksum: it is answered by `-`, and the session ends. -/
theorem Alive.of_wrong {ps done : List ClientPacket} {p : ClientPacket}
    {packets : List (List Byte)} {debugMode : Bool} {e : Event} {s s' : Session}
    (h : Alive ps packets s done [p]) (hwait : s.phase = .waiting)
    (hlen : p.payload.length < gdbBufferSize) (hhi : isxdigit p.hi) (hlo : isxdigit p.lo)
    (hp : ¬p.Correct) (hstep : sessionStep debugMode e s = .ok s') :
    Survives ps (packets ++ s.handled) s' ∧ s'.phase = .ended := by
  have hframe := h.listening.input ▸ clientStream_cons p [] ▸ p.firstFrame (clientStream [])
  obtain ⟨buf, hbytes, -, hrecv⟩ := receivePacket_firstFrame hframe
  rw [stored_of_lt hlen] at hbytes hrecv
  rw [if_neg fun hsum => hp (isChecksum_iff.mpr ⟨hhi, hlo, hsum⟩)] at hrecv
  have hhandled : s.handled = [] := by
    rw [Session.handled, hwait]
    simp only [GdbStub.nextPacket, hrecv]
    rfl
  have hfail : s.world.stub.consecutiveFailures < 50 := by
    rw [h.listening.consecutiveFailures]
    decide
  rcases step_of_waiting hwait h.listening.connected hfail hstep with
    ⟨stub, hrecv', rfl⟩ | ⟨stub, r, hrecv', -⟩
  · rw [hrecv] at hrecv'
    obtain ⟨-, rfl⟩ := Prod.mk.inj (Except.ok.inj hrecv')
    refine ⟨⟨done ++ [p], [], by rw [h.split, List.append_nil], rfl, ?_, fun hack => ?_,
      fun _ => Or.inl rfl⟩, rfl⟩
    · rw [hhandled, List.append_nil, h.handled, List.filter_append,
        List.filter_eq_self.mpr fun q hq => decide_eq_true (h.correct q hq),
        List.filter_singleton, decide_eq_false hp]
      simp
    · have hmode : s.world.stub.noAckMode = false := hack
      have hnack : s.world.stub.nack = [[chr '-']] := by rw [GdbStub.nack, hmode]; rfl
      show (s.world.stub.output ++ s.world.stub.nack).count [chr '-'] = _
      rw [hnack, List.count_append, ← GdbStub.nacks, h.listening.nacks, List.filter_append,
        List.filter_eq_nil_iff.mpr fun q hq => by simpa using h.correct q hq]
      simp [hp]
  · rw [hrecv] at hrecv'
    exact absurd (Prod.mk.inj (Except.ok.inj hrecv')).1 (by simp)

/-- The step lemma: a session goes on, or it ends with all packets answered. -/
theorem Alive.step {ps done todo : List ClientPacket} {packets : List (List Byte)}
    {debugMode : Bool} {e : Event} {s s' : Session} (hps : OnlyLastWrong ps)
    (h : Alive ps packets s done todo) (hstep : sessionStep debugMode e s = .ok s') :
    (∃ done todo, Alive ps (packets ++ s.handled) s' done todo) ∨
      (Survives ps (packets ++ s.handled) s' ∧ s'.phase = .ended) := by
  by_cases hwait : s.phase = .waiting
  · have hfail : s.world.stub.consecutiveFailures < 50 := by
      rw [h.listening.consecutiveFailures]
      decide
    cases todo with
    | nil =>
      -- the end of the input
      have hrecv : ∃ stub, receivePacket s.world.stub = .ok (false, stub) ∧ stub.input = [] ∧
          stub.nacks = s.world.stub.nacks := by
        rw [receivePacket, h.listening.input]
        exact ⟨_, rfl, rfl, rfl⟩
      obtain ⟨stub, hrecv, hinput, hnacks⟩ := hrecv
      have hhandled : s.handled = [] := by
        rw [Session.handled, hwait]
        simp only [GdbStub.nextPacket, hrecv]
        rfl
      rcases step_of_waiting hwait h.listening.connected hfail hstep with
        ⟨stub', hrecv', rfl⟩ | ⟨stub', r, hrecv', -⟩
      · rw [hrecv] at hrecv'
        obtain ⟨-, rfl⟩ := Prod.mk.inj (Except.ok.inj hrecv')
        obtain ⟨-, -, hfilter, hcount, -⟩ := h.survives
        refine Or.inr ⟨⟨done, [], h.split, hinput, ?_, fun _ => ?_, fun _ => Or.inl rfl⟩, rfl⟩
        · rw [hhandled, List.append_nil, h.handled,
            List.filter_eq_self.mpr fun p hp => decide_eq_true (h.correct p hp)]
        · show stub.nacks = _
          rw [hnacks, h.listening.nacks,
            List.filter_eq_nil_iff.mpr fun p hp => by simpa using h.correct p hp]
          rfl
      · rw [hrecv] at hrecv'
        exact absurd (Prod.mk.inj (Except.ok.inj hrecv')).1 (by simp)
    | cons p todo =>
      have hmem : p ∈ ps := h.split ▸ List.mem_append_right _ List.mem_cons_self
      obtain ⟨hlen, hhi, hlo⟩ := hps.fits p hmem
      by_cases hp : p.Correct
      · exact Or.inl ⟨_, _, h.of_correct hwait hlen hp hstep⟩
      · -- a wrong packet is the last one
        cases todo with
        | nil => exact Or.inr (h.of_wrong hwait hlen hhi hlo hp hstep)
        | cons q todo =>
          refine absurd (hps.correct p ?_) hp
          rw [h.split, List.dropLast_append_of_ne_nil (List.cons_ne_nil _ _),
            List.dropLast_cons_of_ne_nil (List.cons_ne_nil _ _)]
          exact List.mem_append_right _ List.mem_cons_self
  · exact Or.inl ⟨done, todo, h.of_runStep ⟨hwait, h.live⟩ hstep⟩

/-- `?` with its checksum. -/
def haltPacket : ClientPacket :=
  ⟨[], ascii "?", chr '3', chr 'f', nofun, by decide, by decide⟩

/-- `?` with a wrong checksum. -/
def wrongPacket : ClientPacket :=
  ⟨[], ascii "?", chr '3', chr 'e', nofun, by decide, by decide⟩

end Rv32Gdb
