import Rv32Gdb.Equiv.StopPackets
import Rv32Gdb.Equiv.StopReplies

/-!
# The selected thread and the focus hart

`focusAgrees_of_focusRun`: along the runs whose steps are all `FocusSafe`, the thread that the stub
has selected is that of the focus hart, which the register callbacks act on, and every stop reply
names it.  `FocusSafe` excludes the steps after which the two differ: a stop of another hart, whose
thread is not selected; the end of `continue_all_harts` while another hart is the stop hart; and
`?` or a Ctrl-C when the thread that stopped is not the selected one any more.
-/

namespace Rv32Gdb

/-- The selected thread is that of the focus hart. -/
def FocusAgrees (w : EmuWorld) : Prop := w.dbg.currentThread = sysThreadId w.sim.sys.focusHart

instance (w : EmuWorld) : Decidable (FocusAgrees w) := inferInstanceAs (Decidable (_ = _))

/-- The stop replies that are sent in a step name the thread of the focus hart. -/
def StopsNameFocus (s s' : Session) : Prop :=
  ∃ new, s'.world.stub.output = s.world.stub.output ++ new ∧ ∀ chunk ∈ new, ∀ tid,
    NamesThread tid chunk → NamesThread (sysThreadId s'.world.sim.sys.focusHart) chunk

/-- The hart that has its turn stops in it. -/
def StopsInTurn (v : EmuWorld) (h : Nat) : Prop :=
  v.dbg.breakpointAt (v.toTarget.hart h).pc ∨ ((v.cpuStep h).toTarget.hart h).halted ∨
    !((v.cpuStep h).toTarget.hart h).running

/-- What keeps the selected thread and the focus hart together in a step. -/
structure FocusSafe (debugMode : Bool) (e : Event) (s : Session) : Prop where
  turn : ∀ h v, s.begunTurn debugMode e = some (h, v) → StopsInTurn v h →
    h = s.world.sim.sys.focusHart
  exit : s.exitsLoop e → e.sigint ∨ s.world.sim.sys.stopHart < 0 ∨
    s.world.sim.sys.stopHart = s.world.sim.sys.focusHart
  query : ∀ p ∈ s.handled, p.head? = some (chr '?') ∨ p.head? = some 0x03 →
    s.world.dbg.stopThread = 0 ∨
      s.world.dbg.stopThread = sysThreadId s.world.sim.sys.focusHart

/-- A step that is `FocusSafe`. -/
def FocusStep (debugMode : Bool) (s s' : Session) : Prop :=
  ∃ e, FocusSafe debugMode e s ∧ sessionStep debugMode e s = .ok s'

/-! ### The invariant -/

/-- A session that has not ended, in which the selected thread is that of the focus hart. -/
structure FocusInv (n : Nat) (w : EmuWorld) : Prop extends SessionInv n w where
  focusAgrees : FocusAgrees w

theorem commandInvariant_focusInv (n : Nat) : CommandInvariant (FocusInv n) where
  stub w s hs h := ⟨(sessionInvariant_sessionInv n).stub w s hs h.toSessionInv, h.focusAgrees⟩
  frame w m hm h := by
    refine ⟨(sessionInvariant_sessionInv n).frame w m hm h.toSessionInv, ?_⟩
    show m.dbg.currentThread = sysThreadId m.sys.focusHart
    rw [hm.currentThread, hm.focusHart]
    exact h.focusAgrees

theorem commandInvariant_focusHart (k : Nat) :
    CommandInvariant fun w => w.sim.sys.focusHart = k where
  stub _ _ _ h := h
  frame _ _ hm h := hm.focusHart.trans h

theorem focusInv_initSession {n : Nat} (hn : 0 < n) (input : List Byte) :
    FocusInv n (initSession n input).world := by
  refine ⟨sessionInv_initSession hn input, ?_⟩
  show (1 : Int) = sysThreadId (initSystem n).focusHart
  rw [(initSystem_frame n).2.1]
  rfl

/-- `gdb_set_focus_hart` finds the hart of every thread. -/
theorem sysThreadId_gdbSetFocusHart (m : Machine) {tid : Int} (h1 : 1 ≤ tid)
    (hnum : tid ≤ m.sim.sys.numHarts) :
    sysThreadId (gdbSetFocusHart m (tid - 1)).sim.sys.focusHart = tid := by
  have hrange : 0 ≤ tid - 1 ∧ tid - 1 < m.sim.sys.numHarts := ⟨by omega, by omega⟩
  have hset : gdbSetFocusHart m (tid - 1) =
      m.updSys fun s => { s with focusHart := (tid - 1).toNat } := by
    simp only [gdbSetFocusHart, Target.updSys, if_pos hrange]
  have hfocus : (gdbSetFocusHart m (tid - 1)).sim.sys.focusHart = (tid - 1).toNat := by
    rw [hset]
    rfl
  rw [hfocus, sysThreadId]
  omega

namespace CommandInvariant

variable {P : EmuWorld → Prop} (hP : CommandInvariant P)

include hP

theorem quietFrame {w v : EmuWorld} (hframe : QuietFrame w v) (h : P w) : P v := by
  obtain ⟨target, stub⟩ := v
  obtain rfl : stub = w.stub := hframe.stub
  exact hP.frame w target hframe.runFrame.toSelectFrame h

theorem stopsQuietly {w w' : EmuWorld} (hstop : StopsQuietly w w') (h : P w) : P w' := by
  obtain ⟨v, signal, pc, hquiet, rfl⟩ := hstop
  exact hP.handlerInvariant.sendStopReason signal pc (hP.quietFrame hquiet h)

/-- A stop of the focus hart. -/
theorem handleHartStop {w : EmuWorld} {h : Nat} (signal : Int)
    (hid : (w.toTarget.hart h).hartId = w.sim.sys.focusHart) (hw : P w) :
    P (handleHartStop w h signal) := by
  have hframe : SelectFrame w.toTarget (w.toTarget.updSys fun s => { s with
      stopHart := (w.toTarget.hart h).hartId
      focusHart := (w.toTarget.hart h).hartId }) := ⟨rfl, rfl, hid, fun _ => rfl⟩
  have hstop := hP.frame _ _ hframe hw
  have hflag := hP.quietFrame
    (QuietFrame.updDbg _ (f := fun d => { d with shouldStop := true }) rfl rfl rfl rfl) hstop
  exact hP.stopsQuietly ⟨_, signal, (w.toTarget.hart h).pc, QuietFrame.setStopThread _ _, rfl⟩ hflag

theorem cpuStep {w : EmuWorld} (h : Nat) (hw : P w) : P (w.cpuStep h) :=
  hP.frame w _ (execFrame_sysCpuStep _ _ _).1.runFrame.toSelectFrame hw

end CommandInvariant

namespace FocusInv

variable {n : Nat} {w : EmuWorld}

/-- `H` selects a thread in both places, or in none. -/
theorem handleSetThread (h : FocusInv n w) : FocusInv n (handleSetThread emuCallbacks w) := by
  have hP := (commandInvariant_focusInv n).handlerInvariant
  unfold Rv32Gdb.handleSetThread
  simp only [snd_selectedThread]
  generalize (selectedThread emuCallbacks _ _).1 = tid
  split_ifs with hop hpid hg hrange
  · exact hP.send _ _ h
  · exact hP.send _ _ h
  · exact hP.send _ _ h
  · rw [not_or, not_lt, not_lt] at hrange
    refine hP.send _ _ ⟨(h.toSessionInv.updDbg _).setFocusHart _, ?_⟩
    exact (sysThreadId_gdbSetFocusHart _ hrange.1 hrange.2).symm
  · exact hP.send _ _ (hP.updDbg _ _ rfl h)
  · exact hP.send _ _ (hP.updDbg _ _ rfl h)

/-- `R` selects the first thread in both places. -/
theorem handleReset (h : FocusInv n w) : FocusInv n (handleReset emuCallbacks w) := by
  refine ⟨h.toSessionInv.handleReset, ?_⟩
  obtain ⟨s, hs, -⟩ := gdbReset_eq w.toTarget
  show (1 : Int) = sysThreadId (gdbReset w.toTarget).sys.focusHart
  rw [hs]
  rfl

end FocusInv

/-! ### Stop replies -/

/-- A step that writes nothing. -/
theorem stopsNameFocus_of_output_eq {s s' : Session}
    (h : s'.world.stub.output = s.world.stub.output) : StopsNameFocus s s' :=
  ⟨[], by rw [h, List.append_nil], nofun⟩

/-- A step that writes one stop reply, for the focus hart. -/
theorem stopsNameFocus_of_write {s s' : Session} {w : EmuWorld} {signal tid : Int} {pc : Word}
    (hstub : s'.world.stub = w.stub.write (frame (stopReplyText w.dbg signal tid pc)))
    (hw : w.stub = s.world.stub) (htid : tid = sysThreadId s'.world.sim.sys.focusHart) :
    StopsNameFocus s s' := by
  refine ⟨[frame (stopReplyText w.dbg signal tid pc)], ?_, fun chunk hchunk _ _ => ?_⟩
  · rw [hstub, ← hw]
    rfl
  · rw [List.mem_singleton.mp hchunk, ← htid]
    exact ⟨_, isStopReply_stopReplyText w.dbg signal tid pc⟩

theorem focusHart_handleHartStop (w : EmuWorld) (h : Nat) (signal : Int) :
    (handleHartStop w h signal).sim.sys.focusHart = (w.toTarget.hart h).hartId := by
  unfold handleHartStop notifyStop
  simp only [sim_gdbStubSendStopReason]
  rfl

theorem stopsNameFocus_handleHartStop {s : Session} {w : EmuWorld} (h : Nat) (signal : Int)
    (hw : w.stub = s.world.stub) : StopsNameFocus s ⟨.waiting, handleHartStop w h signal⟩ :=
  stopsNameFocus_of_write (stub_handleHartStop w h signal) hw
    (by rw [focusHart_handleHartStop])

/-- `notify_stop` names the focus hart if there is no other stop hart. -/
theorem notifyThread_eq {s : Rv32System}
    (h : s.stopHart < 0 ∨ s.stopHart = s.focusHart) : notifyThread s = sysThreadId s.focusHart := by
  unfold notifyThread
  split_ifs with hstop
  · rcases h with hneg | heq
    · omega
    · rw [heq, Int.toNat_natCast]
  · rfl

/-- A signal makes the focus hart the stop hart. -/
theorem stopHart_signaled {e : Event} {s : Session} (hconn : s.world.stub.connected)
    (h : e.sigint ∨ s.world.sim.sys.stopHart < 0 ∨
      s.world.sim.sys.stopHart = s.world.sim.sys.focusHart) :
    (s.signaled e).sim.sys.stopHart < 0 ∨
      (s.signaled e).sim.sys.stopHart = (s.signaled e).sim.sys.focusHart := by
  unfold Session.signaled
  split_ifs with hsig
  · refine Or.inr ?_
    have hhandler : sigintHandler s.world = (World.updDbg (s.world.withTarget
        { s.world.toTarget with sim := { s.world.sim with interruptReceived := true } })
          fun d => { d with shouldStop := true }).withTarget (Target.updSys _ fun s =>
            { sysHaltAll s with stopHart := s.focusHart }) := if_pos hconn
    rw [hhandler]
    show (s.world.sim.sys.focusHart : Int) = (sysHaltAll s.world.sim.sys).focusHart
    rw [sysHaltAll, Rv32System.forHarts_eq]
  · exact h.resolve_left hsig

theorem idleThread_eq {debugMode : Bool} {n : Nat} {e : Event} {s : Session} {tid : Int}
    (hsafe : FocusSafe debugMode e s) (h : FocusInv n s.world) (hidle : s.IdleThread e tid) :
    tid = sysThreadId s.world.sim.sys.focusHart := by
  have hpre := Prelude.signaled s e
  have hsig := (commandInvariant_focusInv n).of_prelude hpre h
  rw [← hpre.focusHart]
  rcases hidle with ⟨-, rfl⟩ | ⟨hexit, rfl⟩
  · rw [hsig.hartId _ hsig.focusHart_lt]
  · exact notifyThread_eq (stopHart_signaled h.connected (hsafe.exit hexit))

theorem stopsNameFocus_of_stopsIdle {e : Event} {s s' : Session} {tid : Int}
    (htid : tid = sysThreadId s.world.sim.sys.focusHart)
    (hstop : StopsIdle (s.signaled e) tid s'.world) : StopsNameFocus s s' := by
  obtain ⟨u, signal, pc, hflag, hworld⟩ := hstop
  have hpre := Prelude.signaled s e
  have hstub := stub_gdbStubSendStopReason (u.updDbg fun d => gdbStubSetStopThread d tid) signal pc
  have htid1 : 1 ≤ tid := by
    rw [htid, sysThreadId]
    omega
  have hreply : (u.updDbg fun d => gdbStubSetStopThread d tid).dbg.replyThread = tid :=
    replyThread_gdbStubSetStopThread u.dbg htid1
  have hfocus : s'.world.sim.sys.focusHart = s.world.sim.sys.focusHart := by
    rw [hworld, sim_gdbStubSendStopReason, ← hpre.focusHart, World.sim_updDbg, hflag.sim]
  rw [← hworld, hreply] at hstub
  refine stopsNameFocus_of_write hstub ?_ ?_
  · exact hflag.stub.trans hpre.stub
  · rw [hfocus, htid]

/-- A step of a hart is a turn of the focus hart. -/
theorem eq_focusHart_of_begunTurn {debugMode : Bool} {e : Event} {s : Session} {h : Nat}
    {v : EmuWorld} (hphase : s.phase = .stepping) (hturn : s.begunTurn debugMode e = some (h, v)) :
    h = s.world.sim.sys.focusHart := by
  rw [← (Prelude.signaled s e).focusHart]
  simp only [Session.begunTurn, hphase] at hturn
  split_ifs at hturn <;> exact (Prod.mk.inj (Option.some.inj hturn)).1.symm

/-- A step of a running target. -/
theorem focusStep_of_running {debugMode : Bool} {n : Nat} {e : Event} {s s' : Session}
    (hsafe : FocusSafe debugMode e s) (h : FocusInv n s.world) (hrun : s.Running)
    (hstep : sessionStep debugMode e s = .ok s') :
    FocusInv n s'.world ∧ StopsNameFocus s s' := by
  have hP := commandInvariant_focusInv n
  have hpre := Prelude.signaled s e
  cases hturn : s.begunTurn debugMode e with
  | none =>
    have hsig := hP.of_prelude hpre h
    rcases runStep_without_turn hrun hturn hstep with ⟨-, hworld⟩ | ⟨-, tid, hidle, hstop⟩
    · rw [hworld]
      exact ⟨hsig, stopsNameFocus_of_output_eq (by rw [hworld, hpre.stub])⟩
    · exact ⟨hP.stopsQuietly hstop.stopsQuietly hsig,
        stopsNameFocus_of_stopsIdle (idleThread_eq hsafe h hidle) hstop⟩
  | some turn =>
    obtain ⟨k, v⟩ := turn
    have hpre := prelude_of_begunTurn hturn
    have hv := hP.of_prelude hpre h
    have hk : k < n := (lt_numHarts_of_begunTurn hturn
      (h.numHarts.symm ▸ h.focusHart_lt)).trans_eq h.numHarts
    have hstops := hsafe.turn k v hturn
    have hcases := runStep_of_begunTurn hturn hstep
    split_ifs at hcases with hbp
    · obtain rfl := hcases
      refine ⟨hP.handleHartStop _ ?_ (hP.handlerInvariant.updDbg _ _ rfl hv),
        stopsNameFocus_handleHartStop _ _ hpre.stub⟩
      show (v.toTarget.hart k).hartId = v.sim.sys.focusHart
      rw [hv.hartId k hk, hpre.focusHart, hstops (Or.inl hbp)]
    · have hcpu := hP.cpuStep k hv
      have hfocus : (v.cpuStep k).sim.sys.focusHart = v.sim.sys.focusHart :=
        (execFrame_sysCpuStep _ _ _).1.focusHart
      rcases hcases with ⟨singleStep, signal, ⟨hhalt, -⟩, rfl⟩ | ⟨rfl, -⟩
      · refine ⟨hP.handleHartStop _ ?_ (hP.handlerInvariant.updDbg _ _ rfl hcpu),
          stopsNameFocus_handleHartStop _ _ hpre.stub⟩
        show ((v.cpuStep k).toTarget.hart k).hartId = (v.cpuStep k).sim.sys.focusHart
        rw [hcpu.hartId k hk, hfocus, hpre.focusHart]
        -- a step is one of the focus hart, and the other stops are assumed to be
        rcases hhalt with hphase | hhalt
        · exact eq_focusHart_of_begunTurn hphase hturn
        · exact hstops (Or.inr hhalt)
      · exact ⟨hcpu, stopsNameFocus_of_output_eq (congrArg GdbStub.output hpre.stub)⟩

/-! ### Packets -/

/-- Every stop reply is one write. -/
theorem stub_send_formatStopReply (w : EmuWorld) (d : DebugState .x32) (signal tid : Int)
    (swbreak : Bool) (watchAddr pcAddr : Word) : ∃ reply, NamesThread tid reply ∧
      (w.send (formatStopReply d 128 signal tid swbreak watchAddr pcAddr)).stub =
        w.stub.write reply := by
  have hlen := length_formatStopReply_le d signal tid swbreak watchAddr pcAddr
  rw [World.send, sendPacket_of_le hlen, formatStopReply_eq]
  exact ⟨_, ⟨_, d.multiprocessActive, signal, rfl⟩, rfl⟩

theorem stub_handleHaltReason (w : EmuWorld) : ∃ reply, NamesThread w.dbg.replyThread reply ∧
    (handleHaltReason emuCallbacks w).stub = w.stub.write reply := by
  unfold handleHaltReason
  simp only
  split_ifs <;> exact stub_send_formatStopReply _ _ _ _ _ _ _

/-- A Ctrl-C names the thread that stopped last, else the selected one. -/
theorem namesThread_handleInterrupt {w : EmuWorld} (h : 1 ≤ w.dbg.currentThread) :
    ∃ reply, NamesThread w.dbg.replyThread reply ∧
      (handleInterrupt emuCallbacks w).stub = w.stub.write reply := by
  have hstop : ∀ v : EmuWorld, v.stub = w.stub → v.dbg.replyThread = w.dbg.replyThread →
      ∃ reply, NamesThread w.dbg.replyThread reply ∧
        (gdbStubSendStopReason v 2 0).stub = w.stub.write reply := by
    intro v hv hthread
    refine ⟨_, ⟨_, isStopReply_stopReplyText v.dbg 2 _ 0⟩, ?_⟩
    rw [stub_gdbStubSendStopReason, hv, hthread]
  have hhalt : ∀ v : EmuWorld, (v.actOpt emuCallbacks.haltCpus).dbg = v.dbg := fun _ => rfl
  unfold handleInterrupt
  simp only [hhalt]
  split_ifs with hzero
  · refine hstop _ rfl ?_
    have hne : w.dbg.currentThread ≠ 0 := by omega
    have hzero' : w.dbg.stopThread = 0 := hzero
    show (gdbStubSetStopThread { w.dbg with shouldStop := true } 0).replyThread = _
    rw [gdbStubSetStopThread, if_neg (by decide), if_pos h, DebugState.replyThread, if_pos hne,
      DebugState.replyThread, if_neg fun h => h hzero']
  · exact hstop _ rfl rfl

/-- The thread that `?` and a Ctrl-C name. -/
theorem replyThread_eq {n : Nat} {w : EmuWorld} (h : FocusInv n w)
    (hquery : w.dbg.stopThread = 0 ∨ w.dbg.stopThread = sysThreadId w.sim.sys.focusHart) :
    w.dbg.replyThread = sysThreadId w.sim.sys.focusHart := by
  unfold DebugState.replyThread
  split_ifs with hne
  · exact hquery.resolve_left hne
  · exact h.focusAgrees

/-- What a command that is safe writes: stop replies for the focus hart only. -/
theorem dispatch_namesFocus {n : Nat} {fuel : Nat} {w : EmuWorld} {r : Int × EmuWorld}
    (h : FocusInv n w)
    (hquery : byteAt w.stub.packetBuffer 0 = chr '?' ∨ byteAt w.stub.packetBuffer 0 = 0x03 →
      w.dbg.stopThread = 0 ∨ w.dbg.stopThread = sysThreadId w.sim.sys.focusHart)
    (hret : dispatch fuel emuCallbacks w = .ok r) :
    ∃ new, r.2.stub.output = w.stub.output ++ new ∧ ∀ chunk ∈ new, ∀ tid,
      NamesThread tid chunk → NamesThread (sysThreadId r.2.sim.sys.focusHart) chunk := by
  have hreply : ∀ {v : EmuWorld}, v.sim.sys.focusHart = w.sim.sys.focusHart →
      w.dbg.replyThread = sysThreadId w.sim.sys.focusHart →
      (∃ reply, NamesThread w.dbg.replyThread reply ∧ v.stub = w.stub.write reply) →
      ∃ new, v.stub.output = w.stub.output ++ new ∧ ∀ chunk ∈ new, ∀ tid,
        NamesThread tid chunk → NamesThread (sysThreadId v.sim.sys.focusHart) chunk := by
    rintro v hfocus hthread ⟨reply, hnames, hstub⟩
    refine ⟨[reply], by rw [hstub]; rfl, fun chunk hchunk _ _ => ?_⟩
    rwa [List.mem_singleton.mp hchunk, hfocus, ← hthread]
  have hP := (commandInvariant_focusHart w.sim.sys.focusHart).handlerInvariant
  by_cases hint : byteAt w.stub.packetBuffer 0 = 0x03
  · have hdispatch : dispatch fuel emuCallbacks w = .ok (0, handleInterrupt emuCallbacks w) := by
      unfold dispatch
      simp only [hint]
      rfl
    obtain rfl := Except.ok.inj (hdispatch.symm.trans hret)
    refine hreply (hP.commandSteps.handleInterrupt rfl) (replyThread_eq h (hquery (Or.inr hint)))
      (namesThread_handleInterrupt ?_)
    rw [h.focusAgrees, sysThreadId]
    omega
  by_cases hhalt : byteAt w.stub.packetBuffer 0 = chr '?'
  · have hdispatch : dispatch fuel emuCallbacks w = .ok (0, handleHaltReason emuCallbacks w) := by
      unfold dispatch
      simp only [hhalt]
      rfl
    obtain rfl := Except.ok.inj (hdispatch.symm.trans hret)
    exact hreply (hP.commandSteps.handleHaltReason rfl) (replyThread_eq h (hquery (Or.inl hhalt)))
      (stub_handleHaltReason w)
  · obtain ⟨new, hnew, hno⟩ := writesNoStop_dispatch fuel emuCallbacks hhalt hint _ _ hret
    exact ⟨new, hnew, fun chunk hchunk tid htid => absurd htid (hno chunk hchunk tid)⟩

/-- What is received is answered by a sign, which is no stop reply. -/
theorem SignFrame.not_namesThread {s s' : GdbStub} (h : SignFrame s s') :
    ∃ signs, s'.output = s.output ++ signs ∧ ∀ chunk ∈ signs, ∀ tid, ¬NamesThread tid chunk := by
  obtain ⟨signs, hout, hsigns⟩ := h.output
  refine ⟨signs, hout, fun chunk hchunk tid => ?_⟩
  rintro ⟨cause, multiprocess, signal, hframe⟩
  rcases hsigns chunk hchunk with rfl | rfl
  · exact absurd (List.cons.inj hframe).1 (by decide)
  · exact absurd (List.cons.inj hframe).1 (by decide)

/-- A step of `main` that takes a packet. -/
theorem focusStep_of_waiting {debugMode : Bool} {n : Nat} {e : Event} {s s' : Session}
    (hsafe : FocusSafe debugMode e s) (h : FocusInv n s.world) (hwait : s.phase = .waiting)
    (hstep : sessionStep debugMode e s = .ok s') :
    (s'.phase ≠ .ended → FocusInv n s'.world) ∧ StopsNameFocus s s' := by
  have hP := commandInvariant_focusInv n
  have hpre := Prelude.signaled s e
  refine ⟨fun hended => hP.step hwait h hstep hended fun w _ hw =>
    ⟨fun _ => hw.handleSetThread, fun _ => hw.handleReset⟩, ?_⟩
  have hfail := h.consecutiveFailures
  rcases step_of_waiting hwait h.connected (by omega) hstep with
    ⟨stub, hrecv, rfl⟩ | ⟨stub, r, hrecv, hret, rfl⟩
  · obtain ⟨signs, hsigns, hno⟩ := (signFrame_receiveLoop _ _ _ hrecv).not_namesThread
    exact ⟨signs, hsigns, fun chunk hchunk tid htid => absurd htid (hno chunk hchunk tid)⟩
  · obtain ⟨signs, hsigns, hno⟩ := (signFrame_receiveLoop _ _ _ hrecv).not_namesThread
    have hw : FocusInv n { s.signaled e with stub := stub } := by
      refine hP.stub _ _ ?_ (hP.of_prelude hpre h)
      rw [hpre.stub]
      exact receiveLoop_frame _ _ _ hrecv
    -- these two packets are answered with the thread of the last stop
    have hquery : byteAt stub.packetBuffer 0 = chr '?' ∨ byteAt stub.packetBuffer 0 = 0x03 →
        (s.signaled e).dbg.stopThread = 0 ∨ (s.signaled e).dbg.stopThread = sysThreadId
          (s.signaled e).sim.sys.focusHart := by
      intro hcmd
      have hquery := hsafe.query _ (packet_mem_handled hwait hrecv)
      have hhead := head?_packet hrecv (by rcases hcmd with hc | hc <;> (rw [hc]; decide))
      rw [hhead, Option.some_inj, Option.some_inj] at hquery
      rw [hpre.dbg, hpre.focusHart]
      exact hquery hcmd
    obtain ⟨new, hnew, hnames⟩ := dispatch_namesFocus hw hquery hret
    have hafter : (afterProcess r).world.stub = r.2.stub ∧
        (afterProcess r).world.sim.sys.focusHart = r.2.sim.sys.focusHart := by
      rcases afterProcess_cases r with ⟨-, hafter⟩ | ⟨-, hafter⟩ | ⟨-, -, hafter⟩
      · rw [hafter]
        exact ⟨rfl, rfl⟩
      · rw [hafter]
        exact ⟨rfl, (runFrame_sysResumeRunnable r.2.toTarget).focusHart⟩
      · rw [hafter]
        exact ⟨rfl, rfl⟩
    refine ⟨signs ++ new, ?_, fun chunk hchunk tid htid => ?_⟩
    · rw [hafter.1, hnew, ← List.append_assoc, ← hsigns]
    · rw [hafter.2]
      rcases List.mem_append.mp hchunk with hchunk | hchunk
      · exact absurd htid (hno chunk hchunk tid)
      · exact hnames chunk hchunk tid htid

/-! ### Runs -/

theorem focusInv_of_focusRun {debugMode : Bool} {n : Nat} {input : List Byte} {s : Session}
    (hn : validHartCount n)
    (hrun : Relation.ReflTransGen (FocusStep debugMode) (initSession n input) s)
    (hended : s.phase ≠ .ended) : FocusInv n s.world := by
  induction hrun with
  | refl =>
    refine focusInv_initSession (Nat.pos_of_ne_zero ?_) input
    rintro rfl
    exact absurd hn (by decide)
  | tail _ hstep ih =>
    obtain ⟨e, hsafe, hstep⟩ := hstep
    have hlive := phase_ne_ended_of_step hstep hended
    have h := ih hlive
    rename_i s s' _
    by_cases hwait : s.phase = .waiting
    · exact (focusStep_of_waiting hsafe h hwait hstep).1 hended
    · exact (focusStep_of_running hsafe h ⟨hwait, hlive⟩ hstep).1

/-- Along the safe runs the selected thread and the focus hart agree whenever a packet is awaited,
and every stop reply names the thread of the focus hart. -/
theorem focusAgrees_of_focusRun {debugMode : Bool} {n : Nat} {input : List Byte} {s : Session}
    (hn : validHartCount n)
    (hrun : Relation.ReflTransGen (FocusStep debugMode) (initSession n input) s) :
    (s.phase = .waiting → FocusAgrees s.world) ∧
      ∀ s', FocusStep debugMode s s' → StopsNameFocus s s' := by
  refine ⟨fun hwait => (focusInv_of_focusRun hn hrun (by simp [hwait])).focusAgrees, ?_⟩
  rintro s' ⟨e, hsafe, hstep⟩
  by_cases hended : s.phase = .ended
  · rw [sessionStep, hended] at hstep
    obtain rfl := Except.ok.inj hstep
    exact stopsNameFocus_of_output_eq (congrArg GdbStub.output (Prelude.signaled s e).stub)
  have h := focusInv_of_focusRun hn hrun hended
  by_cases hwait : s.phase = .waiting
  · exact (focusStep_of_waiting hsafe h hwait hstep).2
  · exact (focusStep_of_running hsafe h ⟨hwait, hended⟩ hstep).2

/-- A packet is safe if it does not ask for the halt reason when another thread has stopped. -/
theorem focusSafe_of_waiting {debugMode : Bool} {e : Event} {s : Session}
    (hwait : s.phase = .waiting)
    (hquery : ∀ p ∈ s.handled, p.head? = some (chr '?') ∨ p.head? = some 0x03 →
      s.world.dbg.stopThread = 0 ∨
        s.world.dbg.stopThread = sysThreadId s.world.sim.sys.focusHart) :
    FocusSafe debugMode e s := by
  refine ⟨fun h v hturn _ => ?_, fun hexit => ?_, hquery⟩
  · rw [Session.begunTurn, hwait] at hturn
    cases hturn
  · simp only [Session.exitsLoop, hwait] at hexit

theorem focusSafe_of_stepping {debugMode : Bool} {e : Event} {s : Session}
    (hphase : s.phase = .stepping) : FocusSafe debugMode e s := by
  refine ⟨fun h v hturn _ => eq_focusHart_of_begunTurn hphase hturn, fun hexit => ?_, ?_⟩
  · simp only [Session.exitsLoop, hphase] at hexit
  · rw [Session.handled, hphase]
    simp

/-- Two harts, of which the second one is selected and stepped, and `?`. -/
def steppedAndQueried : Session :=
  loadedSession 2 (frame (ascii "Hgp1.2") ++ frame (ascii "s") ++ frame (ascii "?"))

/-- The second hart has the focus when the first stop reply is sent and when it is repeated. -/
theorem focusAgrees_steppedAndQueried :
    (steppedAndQueried.after false (List.replicate 3 .quiet)).world.sim.sys.focusHart = 1 ∧
      FocusAgrees (steppedAndQueried.after false (List.replicate 3 .quiet)).world ∧
      StopsNameFocus (steppedAndQueried.after false (List.replicate 3 .quiet))
        (steppedAndQueried.after false (List.replicate 4 .quiet)) := by
  have hselected : FocusStep false steppedAndQueried
      (steppedAndQueried.after false (List.replicate 1 .quiet)) :=
    ⟨.quiet, focusSafe_of_waiting rfl (by decide +kernel), sessionStep_next (by decide +kernel)⟩
  have haccepted : FocusStep false (steppedAndQueried.after false (List.replicate 1 .quiet))
      (steppedAndQueried.after false (List.replicate 2 .quiet)) :=
    ⟨.quiet, focusSafe_of_waiting (by decide +kernel) (by decide +kernel),
      sessionStep_next (by decide +kernel)⟩
  have hstepped : FocusStep false (steppedAndQueried.after false (List.replicate 2 .quiet))
      (steppedAndQueried.after false (List.replicate 3 .quiet)) :=
    ⟨.quiet, focusSafe_of_stepping (by decide +kernel), sessionStep_next (by decide +kernel)⟩
  have hqueried : FocusStep false (steppedAndQueried.after false (List.replicate 3 .quiet))
      (steppedAndQueried.after false (List.replicate 4 .quiet)) :=
    ⟨.quiet, focusSafe_of_waiting (by decide +kernel) (by decide +kernel),
      sessionStep_next (by decide +kernel)⟩
  have hrun : Relation.ReflTransGen (FocusStep false)
      (initSession 2 (frame (ascii "Hgp1.2") ++ frame (ascii "s") ++ frame (ascii "?")))
      (steppedAndQueried.after false (List.replicate 3 .quiet)) := by
    rw [initSession_eq]
    exact ((Relation.ReflTransGen.single hselected).tail haccepted).tail hstepped
  obtain ⟨hagrees, hnames⟩ := focusAgrees_of_focusRun (by decide) hrun
  exact ⟨by decide +kernel, hagrees (by decide +kernel), hnames _ hqueried⟩

/-- Two harts, of which only the second one is run, to a breakpoint; then `Hg1` and `?`. -/
def otherHartSession : Session :=
  loadedSession 2 (frame (ascii "Z0,80000034,4") ++ frame (ascii "vCont;c:p1.2") ++
    frame (ascii "Hg1") ++ frame (ascii "?"))

/-- At the breakpoint the first thread is still selected and the focus hart is the second one;
later `?` names the second thread and the focus hart is the first one. -/
theorem not_focusAgrees_otherHartSession :
    (∃ packets, SessionRun false 2 packets
      (otherHartSession.after false (List.replicate 5 .quiet))) ∧
    (otherHartSession.after false (List.replicate 5 .quiet)).phase = .waiting ∧
    ¬FocusAgrees (otherHartSession.after false (List.replicate 5 .quiet)).world ∧
    (otherHartSession.after false (List.replicate 5 .quiet)).steps false [.quiet, .quiet] ∧
    ¬StopsNameFocus (otherHartSession.after false (List.replicate 6 .quiet))
      (otherHartSession.after false (List.replicate 7 .quiet)) := by
  have hstart : SessionRun false 2 [] otherHartSession := sessionRun_loadedSession _ _ _
  refine ⟨hstart.after (by decide +kernel), by decide +kernel, by decide +kernel,
    by decide +kernel, ?_⟩
  rintro ⟨new, hout, hnames⟩
  have hwritten : (otherHartSession.after false (List.replicate 7 .quiet)).world.stub.output =
      (otherHartSession.after false (List.replicate 6 .quiet)).world.stub.output ++
        [[chr '+'], frame (stopReplyPrefix false 5 2)] := by
    decide +kernel
  rw [hwritten] at hout
  have hmem : frame (stopReplyPrefix false 5 2) ∈ new := by
    rw [← List.append_cancel_left hout]
    exact List.mem_cons_of_mem _ (List.mem_singleton_self _)
  have hreply : NamesThread (2 : Nat) (frame (stopReplyPrefix false 5 2)) :=
    ⟨[], false, 5, by rw [List.append_nil]; rfl⟩
  have hother := hnames _ hmem 2 hreply
  have hfocus : (otherHartSession.after false (List.replicate 7 .quiet)).world.sim.sys.focusHart =
      0 := by
    decide +kernel
  rw [hfocus] at hother
  exact absurd (NamesThread.unique (m := 1) (by decide) (by decide) hother hreply) (by decide)

end Rv32Gdb
