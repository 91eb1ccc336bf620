import Rv32Gdb.Equiv.Handlers

/-!
# One reply for each packet, and no store outside an array

`gdbStubProcess_ne_outOfBoundsWrite_iff`: the stub stores outside an array only for an `m` packet
that asks for `2048` bytes.  `gdbStubProcess_replies_iff`: it answers every framed packet for which
it returns `0` by one frame, except for slightly shorter memory reads and for long thread lists.
-/

namespace Rv32Gdb

variable {x : Xlen} {σ : Type}

/-! ### Long memory reads -/

/-- An `m` packet whose length field, in the width of an address, is `n`. -/
def ReadsMemory (x : Xlen) (n : Nat) (p : List Byte) : Prop :=
  ∃ addr len, p.takeWhile (· ≠ 0#8) = chr 'm' :: (addr ++ chr ',' :: len) ∧ chr ',' ∉ addr ∧
    hexValue len % 2 ^ x.bits = n

/-- A terminated packet is the packet text, up to its first NUL. -/
theorem cstr_eq_takeWhile {buf : Fin gdbBufferSize → Byte} {i : Nat} {l : List Byte}
    (h : HasBytes buf i (l ++ [0#8])) : cstr buf i = l.takeWhile (· ≠ 0#8) := by
  induction l generalizing i with
  | nil => rw [cstr_eq, h.head, if_pos rfl]; rfl
  | cons c l ih =>
    rw [cstr_eq, h.head]
    by_cases hc : c = 0#8
    · simp [hc]
    · rw [if_neg hc, ih h.tail]
      simp [hc]

theorem hasBytes_of_terminated {s : GdbStub} (h : s.Terminated) :
    HasBytes s.packetBuffer 0 (s.packet ++ [0#8]) := by
  have hlen : s.packet.length = s.packetSize := by simp [GdbStub.packet, bufferPrefix]
  have hsize : s.packetSize < gdbBufferSize := h.1
  refine hasBytes_append.mpr ⟨⟨by omega, fun k hk => ?_⟩, ?_⟩
  · rw [Nat.zero_add]
    simp [GdbStub.packet, bufferPrefix]
  · rw [hlen, Nat.zero_add, hasBytes_singleton hsize]
    exact h.2

/-- Whether a memory read reaches the lengths whose reply is not sent. -/
theorem readMemory_cases (cb : GdbCallbacks x σ) {w : World x σ} {p : List Byte}
    (htext : w.packetText = p.takeWhile (· ≠ 0#8)) (hm : byteAt w.stub.packetBuffer 0 = chr 'm') :
    (ReadsMemory x 2048 p → handleReadMemory cb w = .error .outOfBoundsWrite) ∧
      (ReadsMemory x 2046 p ∨ ReadsMemory x 2047 p → ∃ w', handleReadMemory cb w = .ok w' ∧
        w'.stub.output = w.stub.output) ∧
      (¬ReadsMemory x 2046 p → ¬ReadsMemory x 2047 p → ¬ReadsMemory x 2048 p →
        ∃ w', handleReadMemory cb w = .ok w' ∧
          ∃ payload, w'.stub.output = w.stub.output ++ [frame payload]) := by
  have hsplit : ∀ {n}, ReadsMemory x n p → ∃ addr len,
      cstr w.stub.packetBuffer 1 = addr ++ chr ',' :: len ∧ chr ',' ∉ addr ∧
        hexValue len % 2 ^ x.bits = n := by
    rintro n ⟨addr, len, hp, hcomma, hn⟩
    exact ⟨addr, len, (byteAt_of_packetText (htext.trans hp)).2, hcomma, hn⟩
  refine ⟨fun h => ?_, fun h => ?_, fun h1 h2 h3 => ?_⟩
  · obtain ⟨addr, len, hstr, hcomma, hn⟩ := hsplit h
    exact (handleReadMemory_cases cb hstr hcomma).1 hn
  · obtain ⟨addr, len, hstr, hcomma, hn⟩ : ∃ addr len,
        cstr w.stub.packetBuffer 1 = addr ++ chr ',' :: len ∧ chr ',' ∉ addr ∧
          (hexValue len % 2 ^ x.bits = 2046 ∨ hexValue len % 2 ^ x.bits = 2047) := by
      rcases h with h | h
      · obtain ⟨addr, len, hstr, hcomma, hn⟩ := hsplit h
        exact ⟨addr, len, hstr, hcomma, Or.inl hn⟩
      · obtain ⟨addr, len, hstr, hcomma, hn⟩ := hsplit h
        exact ⟨addr, len, hstr, hcomma, Or.inr hn⟩
    exact (handleReadMemory_cases cb hstr hcomma).2.1 hn
  · by_cases hcomma : chr ',' ∈ cstr w.stub.packetBuffer 1
    · obtain ⟨addr, len, hstr, hcomma⟩ := List.eq_append_cons_of_mem hcomma
      have hreads : ReadsMemory x (hexValue len % 2 ^ x.bits) p := by
        refine ⟨addr, len, ?_, hcomma, rfl⟩
        rw [← htext, World.packetText, cstr_eq, hm, if_neg (by decide), hstr]
      refine (handleReadMemory_cases cb hstr hcomma).2.2 ?_
      by_contra hlen
      have : hexValue len % 2 ^ x.bits = 2046 ∨ hexValue len % 2 ^ x.bits = 2047 ∨
          hexValue len % 2 ^ x.bits = 2048 := by omega
      rcases this with hn | hn | hn <;> rw [hn] at hreads <;> contradiction
    · unfold handleReadMemory
      rw [strchr_eq_none hcomma]
      exact ⟨_, rfl, _, output_send_of_le w (by decide)⟩

/-- Dispatching on a packet stores outside an array exactly when `2048` bytes are to be read. -/
theorem dispatch_eq_outOfBoundsWrite_iff (fuel : Nat) (cb : GdbCallbacks x σ) {w : World x σ}
    {p : List Byte} (htext : w.packetText = p.takeWhile (· ≠ 0#8)) :
    dispatch fuel cb w = .error .outOfBoundsWrite ↔ ReadsMemory x 2048 p := by
  by_cases hm : byteAt w.stub.packetBuffer 0 = chr 'm'
  · obtain ⟨h2048, hsilent, hreply⟩ := readMemory_cases cb htext hm
    rw [dispatch_m fuel cb hm]
    constructor
    · intro h
      by_contra hn
      have hok : ∃ w', handleReadMemory cb w = .ok w' := by
        by_cases hlong : ReadsMemory x 2046 p ∨ ReadsMemory x 2047 p
        · obtain ⟨w', hw', -⟩ := hsilent hlong
          exact ⟨w', hw'⟩
        · obtain ⟨w', hw', -⟩ := hreply (fun h => hlong (Or.inl h)) (fun h => hlong (Or.inr h)) hn
          exact ⟨w', hw'⟩
      obtain ⟨w', hw'⟩ := hok
      rw [hw'] at h
      cases h
    · intro h
      rw [h2048 h]
      rfl
  · have hreads : ¬ReadsMemory x 2048 p := by
      rintro ⟨addr, len, hp, -⟩
      exact hm (byteAt_of_packetText (htext.trans hp)).1
    refine iff_of_false ?_ hreads
    by_cases hq : strncmpEq w.packetText (ascii "qfThreadInfo")
    · obtain ⟨payload, hok, -⟩ := handleThreadInfo_cases cb w
      rw [dispatch_threadInfo fuel cb hq, hok]
      exact nofun
    · exact (repliesIfZero_dispatch fuel cb hm hq).1

theorem nextPacket_eq {s s' : GdbStub} (h : receivePacket s = .ok (true, s')) :
    s.nextPacket = some s'.packet := by
  simp only [GdbStub.nextPacket, h]

/-- The packet received is the one that was framed. -/
theorem packet_of_received {s s' : GdbStub} {p rest : List Byte} (h : Received s p rest s') :
    s'.packet = p := by
  have hsize : s'.packetSize = p.length := by rw [h.eq]
  rw [GdbStub.packet, hsize]
  exact bufferPrefix_of_hasBytes (hasBytes_append.mp h.bytes).1

theorem packetText_of_received {w : World x σ} {p rest : List Byte} {s' : GdbStub}
    (h : Received w.stub p rest s') :
    ({ w with stub := s' } : World x σ).packetText = p.takeWhile (· ≠ 0#8) :=
  cstr_eq_takeWhile h.bytes

/-- A framed read of `2048` bytes stores outside the response buffer. -/
theorem gdbStubProcess_of_readsMemory (fuel : Nat) (cb : GdbCallbacks x σ) {w : World x σ}
    {p rest : List Byte} (hconn : w.stub.connected) (hfail : w.stub.consecutiveFailures < 50)
    (hin : Framed p rest w.stub.input) (hlen : p.length < gdbBufferSize)
    (h : ReadsMemory x 2048 p) : gdbStubProcess fuel cb w = .error .outOfBoundsWrite := by
  obtain ⟨s', hrecv, hproc⟩ := gdbStubProcess_framed fuel cb hconn hfail hin hlen
  rw [hproc, dispatch_eq_outOfBoundsWrite_iff fuel cb (packetText_of_received hrecv)]
  exact h

/-- A callback does not see the stub, its connection apart. -/
theorem callOpt_stub {α : Type} (w : World x σ) {s : GdbStub}
    (f : Option (Bool → Target x σ → α × Target x σ)) (default : α)
    (h : s.connected = w.stub.connected) :
    (({ w with stub := s } : World x σ).callOpt f default).1 = (w.callOpt f default).1 ∧
      (({ w with stub := s } : World x σ).callOpt f default).2.toTarget =
        (w.callOpt f default).2.toTarget := by
  cases f with
  | none => exact ⟨rfl, rfl⟩
  | some f => simp [World.callOpt, World.call, h]

/-! ### Main results -/

/-- For all inputs, states and callbacks, no store of `gdbStubProcess` falls outside its array,
with one exception: the terminator of the reply to an `m` packet for `2048` bytes. -/
theorem gdbStubProcess_ne_outOfBoundsWrite_iff (fuel : Nat) (cb : GdbCallbacks x σ)
    (w : World x σ) :
    gdbStubProcess fuel cb w ≠ .error .outOfBoundsWrite ↔
      (w.stub.connected → w.stub.consecutiveFailures < 50 →
        ∀ p, w.stub.nextPacket = some p → ¬ReadsMemory x 2048 p) := by
  by_cases hconn : w.stub.connected
  swap
  · rw [gdbStubProcess, if_pos (by simpa using hconn)]
    exact iff_of_true (by simp) fun h => absurd h hconn
  by_cases hfail : w.stub.consecutiveFailures < 50
  swap
  · rw [gdbStubProcess, if_neg (by simpa using hconn), if_pos (not_lt.mp hfail)]
    exact iff_of_true (by simp) fun _ h => absurd h hfail
  obtain ⟨received, s', hrecv, hcases⟩ := receivePacket_cases w.stub
  have hproc : gdbStubProcess fuel cb w =
      if !received then .ok (-1, { w with stub := s' })
      else dispatch fuel cb { w with stub := s' } := by
    rw [gdbStubProcess, if_neg (by simpa using hconn), if_neg (by omega), hrecv]
    rfl
  rw [hproc]
  cases received with
  | false =>
    refine iff_of_true (by simp) fun _ _ p hp => ?_
    simp [GdbStub.nextPacket, hrecv] at hp
  | true =>
    have hnext : ∀ p, w.stub.nextPacket = some p ↔ p = s'.packet := fun p => by
      rw [nextPacket_eq hrecv, Option.some_inj, eq_comm]
    simp only [Bool.not_true, Bool.false_eq_true, if_false, hnext, forall_eq, hconn, hfail,
      forall_const]
    rcases hcases rfl with hctrl | hterm
    · -- a Ctrl-C: neither a memory read nor a thread list
      have hctrl' : byteAt ({ w with stub := s' } : World x σ).stub.packetBuffer 0 = 0x03 :=
        byteAt_of_head?_packet (by rw [hctrl, List.head?_cons])
      refine iff_of_true (repliesIfZero_dispatch fuel cb ?_ fun hq => ?_).1 ?_
      · rw [hctrl']
        decide
      · obtain ⟨t, ht⟩ := List.isPrefixOf_iff_prefix.mp hq
        have := (byteAt_of_packetText ht.symm).1
        rw [hctrl'] at this
        exact absurd this (by decide)
      · rintro ⟨addr, len, hp, -⟩
        rw [hctrl] at hp
        exact absurd (List.cons.inj hp).1 (by decide)
    · rw [not_iff_not]
      exact dispatch_eq_outOfBoundsWrite_iff fuel cb
        (cstr_eq_takeWhile (hasBytes_of_terminated hterm))

/-- Reading `2048` bytes at `0`. -/
theorem gdbStubProcess_readMemory_2048 :
    gdbStubProcess 0 (byteMemoryCallbacks .x32) (byteMemoryWorld .x32 (frame (ascii "m0,800"))) =
      .error .outOfBoundsWrite :=
  gdbStubProcess_of_readsMemory 0 _ (p := ascii "m0,800") rfl (by decide)
    (framed_frame_nil (by decide)) (by decide)
    ⟨ascii "0", ascii "800", by decide, by decide, by decide⟩

/-- A framed packet for which `0` is returned is answered by exactly one frame after the
acknowledgement, unless it is an `m` packet for `2046` or `2047` bytes or asks for the list of more
threads than fit: the replies to these are built but dropped by `send_packet`. -/
theorem gdbStubProcess_replies_iff (fuel : Nat) (cb : GdbCallbacks x σ) {w w' : World x σ}
    {p rest : List Byte} (hconn : w.stub.connected) (hfail : w.stub.consecutiveFailures < 50)
    (hin : Framed p rest w.stub.input) (hlen : p.length < gdbBufferSize)
    (hret : gdbStubProcess fuel cb w = .ok (0, w')) :
    (∃ payload, w'.stub.output = w.stub.output ++ w.stub.ack ++ [frame payload]) ↔
      ¬ReadsMemory x 2046 p ∧ ¬ReadsMemory x 2047 p ∧
        (strncmpEq (p.takeWhile (· ≠ 0#8)) (ascii "qfThreadInfo") →
          let r := w.callOpt cb.getNumHarts 1
          r.1 ≤ threadInfoLimit r.2.dbg.multiprocessActive) := by
  obtain ⟨s', hrecv, hproc⟩ := gdbStubProcess_framed fuel cb hconn hfail hin hlen
  have htext := packetText_of_received hrecv
  have hbefore : s'.output = w.stub.output ++ w.stub.ack := by rw [hrecv.eq]
  have hconn' : s'.connected = w.stub.connected := by rw [hrecv.eq]
  rw [hproc] at hret
  rw [← hbefore]
  have hfirst : ∀ {n}, ReadsMemory x n p →
      byteAt ({ w with stub := s' } : World x σ).stub.packetBuffer 0 = chr 'm' := by
    rintro n ⟨addr, len, hp, -⟩
    exact (byteAt_of_packetText (htext.trans hp)).1
  by_cases hm : byteAt ({ w with stub := s' } : World x σ).stub.packetBuffer 0 = chr 'm'
  · obtain ⟨h2048, hsilent, hreply⟩ := readMemory_cases cb htext hm
    rw [dispatch_m fuel cb hm] at hret
    have hq : ¬strncmpEq (p.takeWhile (· ≠ 0#8)) (ascii "qfThreadInfo") := by
      rw [← htext]
      intro hq
      obtain ⟨t, ht⟩ := List.isPrefixOf_iff_prefix.mp hq
      have := (byteAt_of_packetText ht.symm).1
      rw [hm] at this
      exact absurd this (by decide)
    -- at 2046 and 2047 bytes the reply is built, but does not fit with its frame
    by_cases hlong : ReadsMemory x 2046 p ∨ ReadsMemory x 2047 p
    · obtain ⟨w₁, hw₁, hout⟩ := hsilent hlong
      rw [hw₁] at hret
      obtain rfl : w₁ = w' := congrArg Prod.snd (Except.ok.inj hret)
      refine iff_of_false ?_ (by tauto)
      rintro ⟨payload, hpayload⟩
      rw [hout] at hpayload
      have := congrArg List.length hpayload
      simp at this
    · rw [not_or] at hlong
      refine iff_of_true ?_ ⟨hlong.1, hlong.2, fun h => absurd h hq⟩
      -- 2048 bytes would overflow the reply, and the call returned
      have hne : ¬ReadsMemory x 2048 p := by
        intro h
        rw [h2048 h] at hret
        cases hret
      obtain ⟨w₁, hw₁, hout⟩ := hreply hlong.1 hlong.2 hne
      rw [hw₁] at hret
      obtain rfl : w₁ = w' := congrArg Prod.snd (Except.ok.inj hret)
      exact hout
  · have hreads : ¬ReadsMemory x 2046 p ∧ ¬ReadsMemory x 2047 p :=
      ⟨fun h => hm (hfirst h), fun h => hm (hfirst h)⟩
    by_cases hq : strncmpEq (p.takeWhile (· ≠ 0#8)) (ascii "qfThreadInfo")
    · -- the thread list is sent if it fits
      obtain ⟨payload, hok, -, hfits⟩ := handleThreadInfo_cases cb ({ w with stub := s' } : World x σ)
      have hcall := callOpt_stub w cb.getNumHarts 1 hconn'
      have hstub := World.stub_callOpt ({ w with stub := s' } : World x σ) cb.getNumHarts 1
      rw [dispatch_threadInfo fuel cb (by rw [htext]; exact hq), hok] at hret
      obtain rfl : _ = w' := congrArg Prod.snd (Except.ok.inj hret)
      rw [hcall.1, hcall.2] at hfits
      have hcond : (∃ q, (((({ w with stub := s' } : World x σ).callOpt cb.getNumHarts 1).2.send
          payload).stub.output = s'.output ++ [frame q])) ↔ payload.length ≤ 4091 := by
        constructor
        · rintro ⟨q, hout⟩
          by_contra hlong
          rw [World.send, sendPacket_of_lt (not_le.mp hlong), hstub] at hout
          have := congrArg List.length hout
          simp at this
        · intro h
          exact ⟨payload, by rw [output_send_of_le _ h, hstub]⟩
      rw [hcond, hfits]
      exact ⟨fun h => ⟨hreads.1, hreads.2, fun _ => h⟩, fun h => h.2.2 hq⟩
    · refine iff_of_true ?_ ⟨hreads.1, hreads.2, fun h => absurd h hq⟩
      exact (repliesIfZero_dispatch fuel cb hm (by rw [htext]; exact hq)).2 w' hret

theorem gdbStubProcess_replies_threadInfo :
    ∃ w' payload, gdbStubProcess 0 (byteMemoryCallbacks .x32)
        (byteMemoryWorld .x32 (frame (ascii "qfThreadInfo"))) = .ok (0, w') ∧
      w'.stub.output = [[chr '+'], frame payload] := by
  obtain ⟨w', hret⟩ : ∃ w', gdbStubProcess 0 (byteMemoryCallbacks .x32)
      (byteMemoryWorld .x32 (frame (ascii "qfThreadInfo"))) = .ok (0, w') := ⟨_, rfl⟩
  have hreads : ∀ n, ¬ReadsMemory .x32 n (ascii "qfThreadInfo") := by
    rintro n ⟨addr, len, hp, -⟩
    exact absurd (List.cons.inj hp).1 (by decide)
  obtain ⟨payload, hout⟩ := (gdbStubProcess_replies_iff 0 (byteMemoryCallbacks .x32)
    (p := ascii "qfThreadInfo") rfl (by decide) (framed_frame_nil (by decide))
    (by decide) hret).mpr ⟨hreads _, hreads _, fun _ => by decide⟩
  exact ⟨w', payload, hret, hout⟩

/-- Reading `2046` bytes at `0`: the packet is acknowledged and never answered. -/
theorem gdbStubProcess_readMemory_2046 :
    ∃ w', gdbStubProcess 0 (byteMemoryCallbacks .x32)
        (byteMemoryWorld .x32 (frame (ascii "m0,7fe"))) = .ok (0, w') ∧
      ¬∃ payload, w'.stub.output = [] ++ [[chr '+']] ++ [frame payload] := by
  obtain ⟨s', hrecv, hproc⟩ := gdbStubProcess_framed 0 (byteMemoryCallbacks .x32)
    (w := byteMemoryWorld .x32 (frame (ascii "m0,7fe"))) (p := ascii "m0,7fe") rfl
    (by decide) (framed_frame_nil (by decide)) (by decide)
  obtain ⟨w', hok, hout⟩ := (readMemory_cases (byteMemoryCallbacks .x32)
    (packetText_of_received hrecv) hrecv.bytes.head).2.1
    (Or.inl ⟨ascii "0", ascii "7fe", by decide, by decide, by decide⟩)
  refine ⟨w', ?_, ?_⟩
  · rw [hproc, dispatch_m 0 _ hrecv.bytes.head, hok]
    rfl
  · have hbefore : s'.output = [] ++ [[chr '+']] := by
      rw [hrecv.eq]
      rfl
    rw [hout]
    show ¬∃ payload, s'.output = _
    rw [hbefore]
    rintro ⟨payload, h⟩
    have := congrArg List.length h
    simp at this

end Rv32Gdb
