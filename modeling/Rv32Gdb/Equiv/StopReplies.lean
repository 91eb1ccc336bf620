import Rv32Gdb.Equiv.Framing
import Rv32Gdb.Equiv.Resume

/-!
# One stop reply for each resume command

`sendsOneStopReply_iff`: from a resume command up to the next framed packet one stop reply is sent,
unless a Ctrl-C stands before that packet in the client's bytes.  A Ctrl-C that stops the run is
not taken from the input by `continue_all_harts`, so that `gdb_stub_process` answers it once more.
-/

namespace Rv32Gdb

variable {x : Xlen} {σ : Type}

/-! ### Taking a Ctrl-C -/

/-- The number of Ctrl-C bytes in front of the next frame. -/
def pendingInterrupts (input : List Byte) : Nat := (input.takeWhile (· ≠ chr '$')).count 0x03

theorem pendingInterrupts_append_cons {skipped : List Byte} (rest : List Byte)
    (h : ∀ c ∈ skipped, c ≠ chr '$' ∧ c ≠ 0x03) :
    pendingInterrupts (skipped ++ 0x03 :: rest) = pendingInterrupts rest + 1 := by
  have hskip : ∀ c ∈ skipped, decide (c ≠ chr '$') = true := fun c hc => decide_eq_true (h c hc).1
  rw [pendingInterrupts, List.takeWhile_append_of_pos hskip, List.takeWhile_cons_of_pos (by decide),
    List.count_append, List.count_eq_zero_of_not_mem fun hmem => (h _ hmem).2 rfl,
    List.count_cons_self, Nat.zero_add, pendingInterrupts]

theorem takesInterrupt_iff (input : List Byte) :
    TakesInterrupt input ↔ pendingInterrupts input ≠ 0 := by
  constructor
  · rintro ⟨skipped, rest, rfl, hskip⟩
    rw [pendingInterrupts_append_cons rest hskip]
    exact Nat.succ_ne_zero _
  · intro h
    rcases exists_first input with hall | ⟨skipped, c, tail, rfl, hskip, rfl | rfl⟩
    · refine absurd (List.count_eq_zero_of_not_mem fun hmem => ?_) h
      exact (hall _ (List.takeWhile_subset _ hmem)).2 rfl
    · refine absurd (List.count_eq_zero_of_not_mem fun hmem => ?_) h
      have hpos : ∀ d ∈ skipped, decide (d ≠ chr '$') = true :=
        fun d hd => decide_eq_true (hskip d hd).1
      rw [List.takeWhile_append_of_pos hpos, List.takeWhile_cons_of_neg (by decide),
        List.append_nil] at hmem
      exact (hskip _ hmem).2 rfl
    · exact ⟨skipped, tail, rfl, hskip⟩

/-- A Ctrl-C is received as a packet of its own, without an acknowledgement. -/
theorem receivePacket_interrupt {s : GdbStub} {skipped rest : List Byte}
    (hinput : s.input = skipped ++ 0x03 :: rest) (hskip : ∀ c ∈ skipped, c ≠ chr '$' ∧ c ≠ 0x03) :
    ∃ buf, receivePacket s =
        .ok (true, { s with packetBuffer := buf, input := rest, packetSize := 1 }) ∧
      byteAt buf 0 = 0x03 := by
  refine ⟨setByte s.packetBuffer ⟨0, by decide⟩ 0x03, ?_, ?_⟩
  · rw [receivePacket, hinput, receiveLoop_skip _ _ _ hskip, receiveLoop, if_neg (by decide),
      if_pos rfl, s.poke_of_lt _ (by decide)]
    rfl
  · rw [byteAt_setByte, if_pos rfl]

/-- A Ctrl-C is answered with a stop reply. -/
theorem stub_handleInterrupt (cb : GdbCallbacks x σ) (w : World x σ) :
    ∃ tid cause reply, IsStopReply tid cause reply ∧
      (handleInterrupt cb w).stub = w.stub.write reply := by
  have hreply : ∀ v : World x σ, v.stub = w.stub →
      ∃ tid cause reply, IsStopReply tid cause reply ∧
        (gdbStubSendStopReason v 2 0).stub = w.stub.write reply := fun v hv =>
    ⟨_, _, _, isStopReply_stopReplyText v.dbg 2 v.dbg.replyThread 0, by
      rw [stub_gdbStubSendStopReason, hv]⟩
  unfold handleInterrupt
  simp only
  split_ifs <;> exact hreply _ (by simp)

/-- `main` takes a Ctrl-C: one stop reply, and the next packet is awaited. -/
theorem step_of_takesInterrupt {debugMode : Bool} {e : Event} {s s' : Session}
    {skipped rest : List Byte} (hwait : s.phase = .waiting) (hconn : s.world.stub.connected)
    (hfail : s.world.stub.consecutiveFailures < 50)
    (hinput : s.world.stub.input = skipped ++ 0x03 :: rest)
    (hskip : ∀ c ∈ skipped, c ≠ chr '$' ∧ c ≠ 0x03) (hstep : sessionStep debugMode e s = .ok s') :
    s'.phase = .waiting ∧ s'.world.stub.input = rest ∧ ∃ tid cause reply,
      IsStopReply tid cause reply ∧ s'.world.stub.output = s.world.stub.output ++ [reply] := by
  obtain ⟨buf, hrecv, hcmd⟩ := receivePacket_interrupt hinput hskip
  rcases step_of_waiting hwait hconn hfail hstep with ⟨_, hrecv', -⟩ | ⟨stub, r, hrecv', hret, hs'⟩
  · rw [hrecv] at hrecv'
    exact absurd (Prod.mk.inj (Except.ok.inj hrecv')).1 (by simp)
  · rw [hrecv] at hrecv'
    obtain ⟨-, rfl⟩ := Prod.mk.inj (Except.ok.inj hrecv')
    rw [dispatch] at hret
    simp only [hcmd, if_true] at hret
    obtain rfl := Except.ok.inj hret
    obtain rfl := hs'
    obtain ⟨tid, cause, reply, hstop, hstub⟩ := stub_handleInterrupt emuCallbacks
      { s.signaled e with
        stub := { s.world.stub with packetBuffer := buf, input := rest, packetSize := 1 } }
    refine ⟨rfl, ?_, tid, cause, reply, hstop, ?_⟩
    · exact congrArg GdbStub.input hstub
    · exact congrArg GdbStub.output hstub

/-! ### Up to the next framed packet -/

/-- A step in which no framed packet is handled: the target runs, or `main` takes a Ctrl-C. -/
def UnframedStep (debugMode : Bool) (s s' : Session) : Prop :=
  (s.Running ∨ s.phase = .waiting ∧ TakesInterrupt s.world.stub.input) ∧
    ∃ e, sessionStep debugMode e s = .ok s'

/-- One stop reply is written between `s₁` and `s`. -/
def SendsOneStopReply (s₁ s : Session) : Prop :=
  ∃ sent, s.world.stub.output = s₁.world.stub.output ++ sent ∧ sent.countP isStopPacket = 1

/-- Between `s₁` and `s` the run has been answered, if it is over, and so has each Ctrl-C that has
been taken. -/
structure Answered (s₁ s : Session) : Prop where
  live : s.Running ∨ s.phase = .waiting
  count : ∃ sent, s.world.stub.output = s₁.world.stub.output ++ sent ∧
    sent.countP isStopPacket + pendingInterrupts s.world.stub.input =
      pendingInterrupts s₁.world.stub.input + if s.Running then 0 else 1

theorem Answered.refl {s : Session} (h : s.Running) : Answered s s := by
  refine ⟨Or.inl h, [], (List.append_nil _).symm, ?_⟩
  rw [if_pos h, List.countP_nil, Nat.zero_add, Nat.add_zero]

/-- The step lemma. -/
theorem Answered.step {debugMode : Bool} {s₁ s s' : Session} (h : Answered s₁ s)
    (hconn : s.world.stub.connected) (hfail : s.world.stub.consecutiveFailures < 50)
    (hstep : UnframedStep debugMode s s') : Answered s₁ s' := by
  obtain ⟨hcase, e, hstep⟩ := hstep
  obtain ⟨sent, hsent, hcount⟩ := h.count
  have hwrite : ∀ {tid : Int} {cause reply : List Byte}, IsStopReply tid cause reply →
      (sent ++ [reply]).countP isStopPacket = sent.countP isStopPacket + 1 := by
    intro tid cause reply hstop
    rw [List.countP_append, List.countP_singleton, if_pos (isStopPacket_of_isStopReply hstop)]
  rcases hcase with hrun | ⟨hwait, skipped, rest, hinput, hskip⟩
  · rw [if_pos hrun] at hcount
    rcases stub_runStep hrun hstep with ⟨hrun', hstub⟩ | ⟨hwait, tid, cause, reply, hstop, hstub⟩
    · refine ⟨Or.inl hrun', sent, by rw [hstub, hsent], ?_⟩
      rw [if_pos hrun', hstub, hcount]
    · have hnot : ¬s'.Running := fun hrun' => hrun'.1 hwait
      refine ⟨Or.inr hwait, sent ++ [reply], ?_, ?_⟩
      · rw [hstub, GdbStub.write, hsent, List.append_assoc]
      · have hin : s'.world.stub.input = s.world.stub.input := by
          rw [hstub]
          rfl
        rw [if_neg hnot, hwrite hstop, hin]
        omega
  · have hnot : ¬s.Running := fun hrun => hrun.1 hwait
    obtain ⟨hwait', hrest, tid, cause, reply, hstop, hout⟩ :=
      step_of_takesInterrupt hwait hconn hfail hinput hskip hstep
    have hnot' : ¬s'.Running := fun hrun => hrun.1 hwait'
    rw [if_neg hnot, hinput, pendingInterrupts_append_cons rest hskip] at hcount
    refine ⟨Or.inr hwait', sent ++ [reply], ?_, ?_⟩
    · rw [hout, hsent, List.append_assoc]
    · rw [if_neg hnot', hwrite hstop, hrest]
      omega

theorem answered_of_run {debugMode : Bool} {n : Nat} {s₁ s : Session} (hn : validHartCount n)
    (hresumed : Resumed debugMode n s₁)
    (hrun : Relation.ReflTransGen (UnframedStep debugMode) s₁ s) :
    Answered s₁ s ∧ ∃ packets, SessionRun debugMode n packets s := by
  induction hrun with
  | refl =>
    obtain ⟨packets, s₀, e, hsession, -, hstep, hrunning⟩ := hresumed
    exact ⟨Answered.refl hrunning, _, hsession.step e hstep⟩
  | tail _ hstep ih =>
    obtain ⟨hanswered, packets, hsession⟩ := ih
    have hended : ∀ {s : Session}, s.Running ∨ s.phase = .waiting → s.phase ≠ .ended := by
      rintro s (hrun | hwait) hend
      · exact hrun.2 hend
      · exact nomatch hwait.symm.trans hend
    have hinv := sessionInv_of_sessionRun hn hsession (hended hanswered.live)
    have hfail := hinv.consecutiveFailures
    refine ⟨hanswered.step hinv.connected (by omega) hstep, ?_⟩
    obtain ⟨-, e, hstep⟩ := hstep
    exact ⟨_, hsession.step e hstep⟩

/-- One stop reply is sent before the next framed packet is handled, if and only if no Ctrl-C
stands before it. -/
theorem sendsOneStopReply_iff {debugMode : Bool} {n : Nat} {s₁ s : Session}
    (hn : validHartCount n) (hresumed : Resumed debugMode n s₁)
    (hrun : Relation.ReflTransGen (UnframedStep debugMode) s₁ s) (hwait : s.phase = .waiting)
    (hnext : ¬TakesInterrupt s.world.stub.input) :
    SendsOneStopReply s₁ s ↔ ¬TakesInterrupt s₁.world.stub.input := by
  obtain ⟨sent, hsent, hcount⟩ := (answered_of_run hn hresumed hrun).1.count
  have hnot : ¬s.Running := fun hrunning => hrunning.1 hwait
  rw [takesInterrupt_iff, not_not] at hnext
  rw [if_neg hnot, hnext, Nat.add_zero] at hcount
  rw [takesInterrupt_iff, not_not]
  constructor
  · rintro ⟨sent', hsent', hone⟩
    obtain rfl := List.append_cancel_left (hsent.symm.trans hsent')
    omega
  · intro hzero
    exact ⟨sent, hsent, by rw [hcount, hzero]⟩

theorem unframedSteps_of_resumeRun {debugMode : Bool} {P : Event → Session → Prop}
    {s s' : Session} (h : ResumeRun debugMode P s s') :
    Relation.ReflTransGen (UnframedStep debugMode) s s' :=
  h.lift id fun _ _ hstep => ⟨Or.inl hstep.1, hstep.2.imp fun _ he => he.2⟩

/-- A step after which `select` finds input. -/
def Event.input : Event := ⟨false, true, 0⟩

/-- One hart, and `c`; the client then sends `rest`, which stops the run. -/
def continueSession (rest : List Byte) : Session :=
  (loadedSession 1 (frame (ascii "c") ++ rest)).next false .quiet

theorem resumed_continueSession (rest : List Byte)
    (hok : (sessionStep false .quiet (loadedSession 1 (frame (ascii "c") ++ rest))).isOk)
    (hrun : (continueSession rest).Running) : Resumed false 1 (continueSession rest) :=
  @resumed_after _ _ _ [] _ rfl rfl hok hrun

theorem sendsOneStopReply_continueSession :
    SendsOneStopReply (continueSession (frame (ascii "?")))
      ((continueSession (frame (ascii "?"))).after false [.quiet, .quiet, .input]) := by
  have hresumed := resumed_continueSession (frame (ascii "?")) (by decide +kernel)
    (by decide +kernel)
  have hrun : ResumeRun false (fun _ _ => True) (continueSession (frame (ascii "?")))
      ((continueSession (frame (ascii "?"))).after false [.quiet, .quiet, .input]) :=
    resumeRun_after ⟨by decide +kernel, trivial, by decide +kernel, by decide +kernel, trivial,
      by decide +kernel, by decide +kernel, trivial, by decide +kernel, trivial⟩
  refine (sendsOneStopReply_iff (by decide) hresumed (unframedSteps_of_resumeRun hrun)
    (by decide +kernel) ?_).mpr ?_
  · rw [takesInterrupt_iff]
    decide +kernel
  · rw [takesInterrupt_iff]
    decide +kernel

/-- A Ctrl-C that stops the run, and a packet after it. -/
def interruptedSession : Session := continueSession (0x03 :: frame (ascii "?"))

/-- The Ctrl-C is answered twice before the packet is handled. -/
theorem not_sendsOneStopReply_interruptedSession :
    Resumed false 1 interruptedSession ∧
      Relation.ReflTransGen (UnframedStep false) interruptedSession
        (interruptedSession.after false [.quiet, .quiet, .input, .quiet]) ∧
      (interruptedSession.after false [.quiet, .quiet, .input, .quiet]).handled = [ascii "?"] ∧
      ¬SendsOneStopReply interruptedSession
        (interruptedSession.after false [.quiet, .quiet, .input, .quiet]) := by
  have hresumed := resumed_continueSession (0x03 :: frame (ascii "?")) (by decide +kernel)
    (by decide +kernel)
  have hrun : ResumeRun false (fun _ _ => True) interruptedSession
      (interruptedSession.after false [.quiet, .quiet, .input]) :=
    resumeRun_after ⟨by decide +kernel, trivial, by decide +kernel, by decide +kernel, trivial,
      by decide +kernel, by decide +kernel, trivial, by decide +kernel, trivial⟩
  have htakes : TakesInterrupt
      (interruptedSession.after false [.quiet, .quiet, .input]).world.stub.input := by
    rw [takesInterrupt_iff]
    decide +kernel
  have hlast : UnframedStep false (interruptedSession.after false [.quiet, .quiet, .input])
      (interruptedSession.after false [.quiet, .quiet, .input, .quiet]) :=
    ⟨Or.inr ⟨by decide +kernel, htakes⟩, .quiet, sessionStep_next (by decide +kernel)⟩
  refine ⟨hresumed, (unframedSteps_of_resumeRun hrun).tail hlast, by decide +kernel, ?_⟩
  rintro ⟨sent, hsent, hone⟩
  have hout : interruptedSession.world.stub.output.length = 1 ∧
      ((interruptedSession.after false
        [.quiet, .quiet, .input, .quiet]).world.stub.output.drop 1).countP isStopPacket = 2 := by
    decide +kernel
  rw [hsent, List.drop_append_of_le_length hout.1.ge, List.drop_of_length_le hout.1.le,
    List.nil_append, hone] at hout
  exact absurd hout.2 (by decide)

end Rv32Gdb
