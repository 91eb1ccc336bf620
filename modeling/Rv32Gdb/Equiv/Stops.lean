import Rv32Gdb.Equiv.Packet
import Rv32Gdb.Emu.Session

/-!
# Stop replies

No stop reply is cut: `stub_gdbStubSendStopReason` gives the one frame that is written, and
`stub_handleHartStop` the one for a hart, which names the hart that stopped.  `NamesThread` is a
property of the frame alone, and `NamesThread.unique` says that it determines the thread.
-/

namespace Rv32Gdb

variable {x : Xlen} {σ : Type}

/-! ### Lengths -/

theorem length_hexTextInt_le (n : Int) : (hexTextInt n).length ≤ 8 := by
  refine length_hexText_le (by decide) ?_
  have := Int.emod_lt_of_pos n (show (0 : Int) < 2 ^ 32 by decide)
  omega

theorem length_addrText_le (a : GdbAddr x) : (addrText a).length ≤ 16 := by
  have hlen : (hexText a.toNat).length ≤ 16 := by
    refine length_hexText_le (by decide) (a.isLt.trans_le ?_)
    cases x <;> decide
  have hchars : x.regHexChars ≤ 16 := by cases x <;> decide
  rw [addrText, hexPad, List.length_append, List.length_replicate]
  omega

theorem length_stopReplyPrefix_le (multiprocess : Bool) (signal tid : Int) :
    (stopReplyPrefix multiprocess signal tid).length ≤ 30 := by
  have htid := length_hexTextInt_le tid
  have hpid := length_hexTextInt_le gdbStubPid
  have hfront : (if multiprocess then ascii "p" ++ hexTextInt gdbStubPid ++ ascii "." else
      []).length ≤ 10 := by
    split_ifs
    · rw [List.length_append, List.length_append]
      show 1 + _ + 1 ≤ _
      omega
    · exact Nat.zero_le _
  unfold stopReplyPrefix
  simp only [List.length_append]
  show 1 + 2 + 7 + _ + _ + 1 ≤ _
  omega

theorem length_stopReplyCause_le (swbreak : Bool) (watchAddr pcAddr : GdbAddr x) :
    (stopReplyCause swbreak watchAddr pcAddr).length ≤ 30 := by
  have hwatch := length_addrText_le watchAddr
  have hpc := length_addrText_le pcAddr
  unfold stopReplyCause
  split_ifs
  · decide
  · rw [List.length_append, List.length_append]
    show 6 + _ + 1 ≤ _
    omega
  · rw [List.length_append, List.length_append]
    show 3 + _ + 1 ≤ _
    omega
  · exact Nat.zero_le _

/-- The buffer of `128` bytes holds every stop reply. -/
theorem formatStopReply_eq (d : DebugState x) (signal tid : Int) (swbreak : Bool)
    (watchAddr pcAddr : GdbAddr x) :
    formatStopReply d 128 signal tid swbreak watchAddr pcAddr =
      stopReplyPrefix d.multiprocessActive signal tid ++
        stopReplyCause swbreak watchAddr pcAddr := by
  have hfront := length_stopReplyPrefix_le d.multiprocessActive signal tid
  have hcause := length_stopReplyCause_le swbreak watchAddr pcAddr
  rw [formatStopReply, snprintf, List.take_of_length_le]
  rw [List.length_append]
  omega

/-! ### What is written -/

/-- The text of the stop reply of `gdb_stub_send_stop_reason` for thread `tid`. -/
def stopReplyText (d : DebugState x) (signal tid : Int) (addr : GdbAddr x) : List Byte :=
  stopReplyPrefix d.multiprocessActive signal tid ++
    stopReplyCause d.breakpointHit d.lastWatchpointAddr addr

theorem length_stopReplyText_le (d : DebugState x) (signal tid : Int) (addr : GdbAddr x) :
    (stopReplyText d signal tid addr).length ≤ 60 := by
  have hfront := length_stopReplyPrefix_le d.multiprocessActive signal tid
  have hcause := length_stopReplyCause_le d.breakpointHit d.lastWatchpointAddr addr
  rw [stopReplyText, List.length_append]
  omega

/-- One frame is written, and nothing else happens to the connection. -/
theorem stub_gdbStubSendStopReason (w : World x σ) (signal : Int) (addr : GdbAddr x) :
    (gdbStubSendStopReason w signal addr).stub =
      w.stub.write (frame (stopReplyText w.dbg signal w.dbg.replyThread addr)) := by
  have hlen := length_stopReplyText_le w.dbg signal w.dbg.replyThread addr
  rw [← sendPacket_of_le (hlen.trans (by decide))]
  unfold gdbStubSendStopReason stopReplyText
  simp only [formatStopReply_eq]
  split_ifs with hbreak hwatch haddr
  · simp only [hbreak, stopReplyCause, if_true]
    rfl
  · simp only [hbreak, stopReplyCause, if_pos hwatch]
    rfl
  · simp only [hbreak, stopReplyCause, if_neg hwatch]
    rfl
  · simp only [hbreak, stopReplyCause, if_neg hwatch, if_neg haddr]
    rfl

theorem sim_gdbStubSendStopReason (w : World x σ) (signal : Int) (addr : GdbAddr x) :
    (gdbStubSendStopReason w signal addr).sim = w.sim := by
  unfold gdbStubSendStopReason
  simp only
  split_ifs <;> rfl

theorem replyThread_gdbStubSetStopThread (d : DebugState x) {tid : Int} (h : 1 ≤ tid) :
    (gdbStubSetStopThread d tid).replyThread = tid := by
  have hne : tid ≠ 0 := by omega
  rw [gdbStubSetStopThread, if_pos h, DebugState.replyThread, if_pos hne]

/-- The reply for a hart names its thread. -/
theorem stub_handleHartStop (w : EmuWorld) (h : Nat) (signal : Int) :
    (handleHartStop w h signal).stub =
      w.stub.write (frame (stopReplyText w.dbg signal (sysThreadId (w.toTarget.hart h).hartId)
        (w.toTarget.hart h).pc)) := by
  set tid := sysThreadId (w.toTarget.hart h).hartId with htid
  have htid1 : 1 ≤ tid := by
    rw [htid, sysThreadId]
    omega
  have hstop : handleHartStop w h signal = gdbStubSendStopReason
      ((w.withTarget (w.toTarget.updSys fun s =>
        { s with
          stopHart := (w.toTarget.hart h).hartId
          focusHart := (w.toTarget.hart h).hartId })).updDbg fun d =>
            gdbStubSetStopThread { d with shouldStop := true } tid) signal
        (w.toTarget.hart h).pc := by
    unfold handleHartStop notifyStop
    simp only
    rw [if_pos (by exact Int.natCast_nonneg _)]
    rfl
  rw [hstop, stub_gdbStubSendStopReason, World.dbg_updDbg, replyThread_gdbStubSetStopThread _ htid1]
  rw [gdbStubSetStopThread, if_pos htid1]
  rfl

theorem trace_handleHartStop (w : EmuWorld) (h : Nat) (signal : Int) :
    (handleHartStop w h signal).sim.trace = w.sim.trace := by
  unfold handleHartStop notifyStop
  simp only
  rw [sim_gdbStubSendStopReason]
  rfl

/-! ### What a stop reply says -/

/-- A stop reply for a thread, with the text that follows the thread. -/
def IsStopReply (tid : Int) (cause chunk : List Byte) : Prop :=
  ∃ multiprocess signal, chunk = frame (stopReplyPrefix multiprocess signal tid ++ cause)

/-- A stop reply for a thread. -/
def NamesThread (tid : Int) (chunk : List Byte) : Prop := ∃ cause, IsStopReply tid cause chunk

/-- A `T` packet. -/
def isStopPacket (chunk : List Byte) : Bool := (ascii "$T").isPrefixOf chunk

theorem isStopReply_stopReplyText (d : DebugState x) (signal tid : Int) (addr : GdbAddr x) :
    IsStopReply tid (stopReplyCause d.breakpointHit d.lastWatchpointAddr addr)
      (frame (stopReplyText d signal tid addr)) := ⟨d.multiprocessActive, signal, rfl⟩

theorem isStopPacket_of_isStopReply {tid : Int} {cause chunk : List Byte}
    (h : IsStopReply tid cause chunk) : isStopPacket chunk := by
  obtain ⟨multiprocess, signal, rfl⟩ := h
  rfl

theorem hexTextInt_append_inj {m n : Int} {s t : List Byte}
    (h : hexTextInt m ++ chr ';' :: s = hexTextInt n ++ chr ';' :: t) :
    hexTextInt m = hexTextInt n ∧ s = t := by
  have htake : ∀ (k : Int) (r : List Byte),
      (hexTextInt k ++ chr ';' :: r).takeWhile isxdigit = hexTextInt k := by
    intro k r
    rw [hexTextInt, List.takeWhile_append_of_pos fun c hc => isxdigit_hexText hc,
      List.takeWhile_cons_of_neg (by decide), List.append_nil]
  have htext := congrArg (List.takeWhile isxdigit) h
  rw [htake, htake] at htext
  rw [htext] at h
  exact ⟨htext, (List.cons.inj (List.append_cancel_left h)).2⟩

theorem hexTextInt_natCast_inj {m n : Nat} (hm : m < 2 ^ 32) (hn : n < 2 ^ 32)
    (h : hexTextInt m = hexTextInt n) : m = n := by
  have htext : ∀ {k : Nat}, k < 2 ^ 32 → hexTextInt k = hexText k := by
    intro k hk
    have hk' : ((k : Int) % 2 ^ 32).toNat = k := by omega
    rw [hexTextInt, hk']
  rw [htext hm, htext hn] at h
  exact hexText_inj h

/-- The signal of a stop reply, and what follows `thread:`. -/
theorem stopReplyText_of_frame_eq {mp₁ mp₂ : Bool} {signal₁ signal₂ tid₁ tid₂ : Int}
    {cause₁ cause₂ : List Byte}
    (h : frame (stopReplyPrefix mp₁ signal₁ tid₁ ++ cause₁) =
      frame (stopReplyPrefix mp₂ signal₂ tid₂ ++ cause₂)) :
    hexByte (BitVec.ofInt 8 signal₁) = hexByte (BitVec.ofInt 8 signal₂) ∧
    (if mp₁ then ascii "p" ++ hexTextInt gdbStubPid ++ ascii "." else []) ++
        (hexTextInt tid₁ ++ chr ';' :: cause₁) =
      (if mp₂ then ascii "p" ++ hexTextInt gdbStubPid ++ ascii "." else []) ++
        (hexTextInt tid₂ ++ chr ';' :: cause₂) := by
  have hdata := (List.append_inj' (List.cons.inj h).2 (by simp [length_hexByte])).1
  have hsplit : ∀ (mp : Bool) (signal tid : Int) (cause : List Byte),
      stopReplyPrefix mp signal tid ++ cause =
        (ascii "T" ++ hexByte (BitVec.ofInt 8 signal) ++ ascii "thread:") ++
          ((if mp then ascii "p" ++ hexTextInt gdbStubPid ++ ascii "." else []) ++
            (hexTextInt tid ++ chr ';' :: cause)) := by
    intro mp signal tid cause
    simp [stopReplyPrefix, ascii]
  rw [hsplit, hsplit] at hdata
  obtain ⟨hfront, hback⟩ := List.append_inj hdata rfl
  exact ⟨List.append_cancel_left (List.append_cancel_right hfront), hback⟩

/-- A stop reply determines its thread and what follows it. -/
theorem IsStopReply.unique {tid₁ tid₂ : Int} {cause₁ cause₂ chunk : List Byte}
    (h₁ : IsStopReply tid₁ cause₁ chunk) (h₂ : IsStopReply tid₂ cause₂ chunk) :
    hexTextInt tid₁ = hexTextInt tid₂ ∧ cause₁ = cause₂ := by
  obtain ⟨mp₁, signal₁, hchunk₁⟩ := h₁
  obtain ⟨mp₂, signal₂, hchunk₂⟩ := h₂
  have htext := (stopReplyText_of_frame_eq (hchunk₁.symm.trans hchunk₂)).2
  -- `p` is no hex digit, so that both replies or neither of them have the process id
  have hhead : ∀ (k : Int) (r s : List Byte), hexTextInt k ++ chr ';' :: r ≠ chr 'p' :: s := by
    intro k r s he
    rcases List.append_eq_cons_iff.mp he with ⟨-, hr⟩ | ⟨t, ht, -⟩
    · exact absurd (List.cons.inj hr).1 (by decide)
    · have hp : isxdigit (chr 'p') := by
        refine isxdigit_hexText (n := (k % 2 ^ 32).toNat) ?_
        show _ ∈ hexTextInt k
        rw [ht]
        exact List.mem_cons_self
      exact absurd hp (by decide)
  cases mp₁ <;> cases mp₂
  · exact hexTextInt_append_inj htext
  · exact absurd htext (hhead tid₁ _ _)
  · exact absurd htext.symm (hhead tid₂ _ _)
  · exact hexTextInt_append_inj (List.append_cancel_left htext)

/-- A stop reply names one thread. -/
theorem NamesThread.unique {m n : Nat} (hm : m < 2 ^ 32) (hn : n < 2 ^ 32) {chunk : List Byte}
    (h₁ : NamesThread m chunk) (h₂ : NamesThread n chunk) : m = n := by
  obtain ⟨cause₁, hchunk₁⟩ := h₁
  obtain ⟨cause₂, hchunk₂⟩ := h₂
  exact hexTextInt_natCast_inj hm hn (hchunk₁.unique hchunk₂).1

end Rv32Gdb
