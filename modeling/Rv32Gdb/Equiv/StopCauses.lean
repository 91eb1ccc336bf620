import Rv32Gdb.Equiv.WatchpointStops

/-!
# The cause in a stop reply

`repliesCause_of_resumeRun`: a run that begins with `breakpoint_hit` and `last_watchpoint_addr`
clear and whose steps are all `CauseSafe` ends with a stop reply that says `swbreak` if and only if
the hart came to an enabled breakpoint, and `watch:a` if and only if an access hit an enabled
watchpoint at `a`.  `CauseSafe` excludes the hits that `last_watchpoint_addr` cannot report: those
of workers inside a step of hart `0`, of instruction fetches, at address `0`, and of one access at
several addresses.
-/

namespace Rv32Gdb

/-! ### The texts of the causes -/

theorem watchText_ne_swbreak (a : Word) : watchText a ≠ ascii "swbreak:;" :=
  fun h => absurd (List.cons.inj h).1 (by decide)

theorem watchText_inj {a b : Word} (h : watchText a = watchText b) : a = b := by
  have haddr : addrText (x := .x32) a = addrText (x := .x32) b := by
    rw [watchText, watchText, List.append_assoc, List.append_assoc] at h
    exact List.append_cancel_right (List.append_cancel_left h)
  have hvalue := congrArg hexValue haddr
  rw [addrText, addrText, hexValue_hexPad, hexValue_hexPad] at hvalue
  exact BitVec.eq_of_toNat_eq hvalue

/-- Without a breakpoint and a watchpoint the cause is the pc, or nothing. -/
theorem stopReplyCause_none_ne (pc : Word) :
    stopReplyCause (x := .x32) false 0 pc ≠ ascii "swbreak:;" ∧
      ∀ a, stopReplyCause (x := .x32) false 0 pc ≠ watchText a := by
  have hcause : stopReplyCause (x := .x32) false 0 pc = [] ∨
      ∃ text, stopReplyCause (x := .x32) false 0 pc = chr '2' :: text := by
    unfold stopReplyCause
    rw [if_neg (by simp), if_neg fun h => h rfl]
    split_ifs
    · exact Or.inr ⟨_, rfl⟩
    · exact Or.inl rfl
  rcases hcause with h | ⟨text, h⟩
  · rw [h]
    exact ⟨nofun, fun a ha => nomatch ha⟩
  · rw [h]
    exact ⟨fun he => absurd (List.cons.inj he).1 (by decide),
      fun a he => absurd (List.cons.inj he).1 (by decide)⟩

/-! ### Hits of a turn -/

/-- The instruction fetch of a turn overlaps an enabled watchpoint at `a`. -/
def DebugState.FetchHits (d : DebugState .x32) (turn : Nat × Machine) (a : Word) : Prop :=
  d.Watches .load (turn.2.hart turn.1).pc 4 a

/-- The load or store of a turn overlaps an enabled watchpoint at `a`. -/
def DebugState.AccessHits (d : DebugState .x32) (turn : Nat × Machine) (a : Word) : Prop :=
  ∃ kind addr size, TurnAccess turn kind addr size ∧ d.Watches kind addr size a

/-- What the report of a cause needs in a step. -/
structure CauseSafe (debugMode : Bool) (e : Event) (s : Session) : Prop where
  worker : ∀ turn ∈ s.workerTurns debugMode e, ∀ a,
    ¬s.world.dbg.FetchHits turn a ∧ ¬s.world.dbg.AccessHits turn a
  fetch : ∀ turn ∈ s.executed debugMode e, (turn.2.hart turn.1).running ∨ debugMode →
    ∀ a, s.world.dbg.FetchHits turn a → s.world.dbg.AccessHits turn a
  own : ∀ turn ∈ s.executed debugMode e, ∀ a, s.world.dbg.AccessHits turn a →
    a ≠ 0 ∧ ∀ a', s.world.dbg.AccessHits turn a' → a' = a

/-- The stop reply at the end of the run from `s₁` to `s` gives the cause of the stop. -/
def RepliesCause (s₁ s : Session) : Prop :=
  ∃ evs tid cause reply, s.world.sim.trace = s₁.world.sim.trace ++ evs ∧
    s.world.stub.output.getLast? = some reply ∧ IsStopReply tid cause reply ∧
    (cause = ascii "swbreak:;" ↔ ∃ h pc, evs.getLast? = some (.turn h pc) ∧
      s₁.world.dbg.breakpointAt pc ∧ tid = sysThreadId h) ∧
    ∀ a, cause = watchText a ↔ ∃ h kind addr size, .access h kind addr size ∈ evs ∧
      s₁.world.dbg.Watches kind addr size a

/-! ### Runs that have not stopped -/

/-- Between `s₁` and `s` no access has hit a watchpoint, no hart has come to a breakpoint, and no
cause is recorded. -/
structure NoCause (n : Nat) (s₁ s : Session) : Prop where
  runInv : RunInv n s₁.world.dbg s.world
  breakpointHit : s.world.dbg.breakpointHit = false
  lastWatchpointAddr : s.world.dbg.lastWatchpointAddr = 0
  trace : ∃ evs, s.world.sim.trace = s₁.world.sim.trace ++ evs ∧
    (∀ ev ∈ evs, ¬ev.Hits s₁.world.dbg) ∧
    ∀ h pc, evs.getLast? = some (.turn h pc) → ¬s₁.world.dbg.breakpointAt pc

/-- A stop reply that gives no cause, at the end of a run that has none. -/
theorem repliesCause_of_none {s₁ s : Session} {evs : List HartEvent} {tid : Int} {pc : Word}
    {reply : List Byte} (htrace : s.world.sim.trace = s₁.world.sim.trace ++ evs)
    (hhits : ∀ ev ∈ evs, ¬ev.Hits s₁.world.dbg)
    (hlast : ∀ h pc, evs.getLast? = some (.turn h pc) → ¬s₁.world.dbg.breakpointAt pc)
    (hreply : s.world.stub.output.getLast? = some reply)
    (hstop : IsStopReply tid (stopReplyCause (x := .x32) false 0 pc) reply) :
    RepliesCause s₁ s := by
  have hne := stopReplyCause_none_ne pc
  refine ⟨evs, tid, _, reply, htrace, hreply, hstop, ⟨fun h => absurd h hne.1, ?_⟩, fun a =>
    ⟨fun h => absurd h (hne.2 a), ?_⟩⟩
  · rintro ⟨h, pc, hev, hbp, -⟩
    exact absurd hbp (hlast h pc hev)
  · rintro ⟨h, kind, addr, size, hmem, ha⟩
    exact absurd ⟨a, ha⟩ (hhits _ hmem)

/-- The last event of the execution of an instruction is not a turn. -/
theorem getLast?_turnEvents_ne {m : Machine} {h : Nat} (hrun : (m.hart h).running) (k : Nat)
    (pc : Word) : (turnEvents h m).getLast? ≠ some (.turn k pc) := by
  intro hlast
  rw [turnEvents, execEvents, if_pos hrun, List.getLast?_cons_cons] at hlast
  rcases List.mem_cons.mp (List.mem_of_getLast? hlast) with hev | hev
  · cases hev
  · obtain ⟨access, -, hev⟩ := List.mem_map.mp hev
    cases hev

/-- The last event of a step in which a hart has its turn: it is a turn only if it is the only
event. -/
theorem getLast?_executed {connected : Bool} {m : Machine} {h k : Nat} {pc : Word}
    (hlast : (HartEvent.turn h (m.hart h).pc :: (execEvents m h ++
      (nestedTurns connected m h).flatMap fun turn => turnEvents turn.1 turn.2)).getLast? =
        some (.turn k pc)) : pc = (m.hart h).pc := by
  rcases List.eq_nil_or_concat (nestedTurns connected m h) with hnil | ⟨init, turn, hturns⟩
  · rw [hnil, List.flatMap_nil, List.append_nil] at hlast
    by_cases hrun : (m.hart h).running
    · exact absurd hlast (getLast?_turnEvents_ne hrun k pc)
    · rw [execEvents, if_neg hrun] at hlast
      exact (HartEvent.turn.inj (Option.some.inj hlast)).2.symm
  · have hmem : turn ∈ nestedTurns connected m h := by
      rw [hturns, List.concat_eq_append]
      exact List.mem_concat_self
    have hrun := running_of_mem_nestedTurns hmem
    have hne : turnEvents turn.1 turn.2 ≠ [] := List.cons_ne_nil _ _
    rw [hturns, List.concat_eq_append, List.flatMap_append, List.flatMap_singleton,
      ← List.append_assoc, ← List.cons_append, List.getLast?_append_of_ne_nil _ hne] at hlast
    exact absurd hlast (getLast?_turnEvents_ne hrun k pc)

/-! ### One step -/

theorem noHit_of_not_hits {connected : Bool} {d : DebugState .x32} {turn : Nat × Machine}
    (hwatch : turn.2.dbg.watchpoints = d.watchpoints) (hrun : (turn.2.hart turn.1).running)
    (hno : ∀ a, ¬d.FetchHits turn a ∧ ¬d.AccessHits turn a) :
    NoHit connected turn.2 turn.1 := by
  constructor
  · rw [Option.eq_none_iff_forall_ne_some]
    exact fun a ha => (hno a).1 ((watches_congr hwatch).mp (watches_of_accessHit ha))
  · intro kind addr size hacc
    rw [Option.eq_none_iff_forall_ne_some]
    exact fun a ha => (hno a).2 ⟨kind, addr, size, ⟨hrun, hacc⟩,
      (watches_congr hwatch).mp (watches_of_accessHit ha)⟩

/-- No worker hits a watchpoint in the step. -/
theorem noHitFrame_cpuStep {debugMode : Bool} {e : Event} {s : Session} {h : Nat} {v : EmuWorld}
    (hsafe : CauseSafe debugMode e s) (hturn : s.begunTurn debugMode e = some (h, v))
    (hbp : ¬v.dbg.breakpointAt (v.toTarget.hart h).pc) :
    NoHitFrame (rv32CpuStep v.stub.connected v.toTarget h) (v.cpuStep h).toTarget := by
  have hpre := prelude_of_begunTurn hturn
  refine NoHitFrame.sysCpuStep fun turn hnested => ?_
  have hframe := (execFrame_sysCpuStep v.stub.connected v.toTarget h).2 turn hnested
  refine noHit_of_not_hits (hframe.runFrame.watchpoints.trans hpre.runFrame.watchpoints)
    (running_of_mem_nestedTurns hnested) (hsafe.worker turn ?_)
  rw [Session.workerTurns, executed_of_begunTurn hturn hbp]
  rwa [hpre.stub] at hnested

/-- The fetch of the debug trace records nothing if it hits nothing. -/
theorem lastWatchpointAddr_of_begunTurn {debugMode : Bool} {e : Event} {s : Session} {h : Nat}
    {v : EmuWorld} (hturn : s.begunTurn debugMode e = some (h, v))
    (hno : debugMode → ∀ a, ¬s.world.dbg.FetchHits (h, v.toTarget) a) :
    v.dbg.lastWatchpointAddr = s.world.dbg.lastWatchpointAddr := by
  have hsig := congrArg DebugState.lastWatchpointAddr (Prelude.dbg_signaled s e)
  have hwatch := (Prelude.signaled s e).runFrame.watchpoints
  unfold Session.begunTurn at hturn
  simp only at hturn
  split at hturn
  · split_ifs at hturn with hskip hdebug
    · obtain ⟨rfl, rfl⟩ := Prod.mk.inj (Option.some.inj hturn)
      set w := s.signaled e with hw
      set k := w.sim.sys.focusHart with hk
      have hnone : accessHit w.stub.connected w.dbg .load (w.toTarget.hart k).pc 4 = none := by
        rw [Option.eq_none_iff_forall_ne_some]
        intro a ha
        refine hno hdebug a ?_
        obtain ⟨b, hb⟩ := harts_checkAccess .load w.stub.connected w.toTarget k
          (w.toTarget.hart k).pc 4 k
        show s.world.dbg.Watches .load ((checkAccess .load w.stub.connected w.toTarget k
          (w.toTarget.hart k).pc 4).hart k).pc 4 a
        rw [hb]
        exact (watches_congr hwatch).mp (watches_of_accessHit ha)
      show (checkAccess .load w.stub.connected w.toTarget k (w.toTarget.hart k).pc
        4).dbg.lastWatchpointAddr = _
      rw [checkAccess_of_none hnone]
      exact hsig
    · obtain ⟨rfl, rfl⟩ := Prod.mk.inj (Option.some.inj hturn)
      exact hsig
  · split_ifs at hturn
    obtain ⟨rfl, rfl⟩ := Prod.mk.inj (Option.some.inj hturn)
    exact hsig
  · cases hturn

/-- What a turn that is not stopped by a breakpoint does to the recorded cause. -/
theorem lastWatchpointAddr_cpuStep {debugMode : Bool} {e : Event} {s : Session} {h : Nat}
    {v : EmuWorld} (hconn : v.stub.connected) (hsafe : CauseSafe debugMode e s)
    (hlast : s.world.dbg.lastWatchpointAddr = 0)
    (hturn : s.begunTurn debugMode e = some (h, v))
    (hbp : ¬v.dbg.breakpointAt (v.toTarget.hart h).pc) :
    ((∀ a, ¬s.world.dbg.AccessHits (h, v.toTarget) a) ∧
        (v.cpuStep h).dbg.lastWatchpointAddr = 0) ∨
      ∃ a, s.world.dbg.AccessHits (h, v.toTarget) a ∧
        (v.cpuStep h).dbg.lastWatchpointAddr = a ∧ ((v.cpuStep h).toTarget.hart h).halted := by
  have hexec := executed_of_begunTurn hturn hbp
  have hwatch := (prelude_of_begunTurn hturn).runFrame.watchpoints
  have hjob := noHitFrame_cpuStep hsafe hturn hbp
  by_cases hhit : ∃ a, s.world.dbg.AccessHits (h, v.toTarget) a
  · obtain ⟨a, ha⟩ := hhit
    obtain ⟨kind, addr, size, hacc, hwatches⟩ := ha
    obtain ⟨a', ha'⟩ := accessHit_of_watches ((watches_congr hwatch).mpr hwatches)
    have hrecord := rv32CpuStep_of_hit v.stub.connected hacc.1 hacc.2
      (by rw [hconn]; exact ha')
    refine Or.inr ⟨a', ⟨kind, addr, size, hacc, (watches_congr hwatch).mp
      (watches_of_accessHit ha')⟩, ?_, hjob.halted h hrecord.2⟩
    exact (congrArg DebugState.lastWatchpointAddr hjob.dbg).trans hrecord.1
  · rw [not_exists] at hhit
    have hfetch : (v.toTarget.hart h).running ∨ debugMode →
        ∀ a, ¬s.world.dbg.FetchHits (h, v.toTarget) a :=
      fun hor a ha => hhit a (hsafe.fetch _ hexec hor a ha)
    have hstep : NoHitFrame v.toTarget (rv32CpuStep v.stub.connected v.toTarget h) :=
      NoHitFrame.rv32CpuStep fun hrun => @noHit_of_not_hits _ _ (h, v.toTarget) hwatch hrun
        fun a => ⟨hfetch (Or.inl hrun) a, hhit a⟩
    refine Or.inl ⟨hhit, (congrArg DebugState.lastWatchpointAddr (hstep.trans hjob).dbg).trans ?_⟩
    exact (lastWatchpointAddr_of_begunTurn hturn fun hdebug => hfetch (Or.inr hdebug)).trans hlast

/-- The events of a turn hit what its access and the turns of workers in it hit. -/
theorem hits_of_mem_executed {d : DebugState .x32} {m : Machine} {h : Nat} {pc : Word}
    {turns : List (Nat × Machine)} (hworkers : ∀ turn ∈ turns, ∀ a, ¬d.AccessHits turn a)
    {k : Nat} {kind : AccessKind} {addr a : Word} {size : Nat}
    (hmem : .access k kind addr size ∈ HartEvent.turn h pc :: (execEvents m h ++
      turns.flatMap fun turn => turnEvents turn.1 turn.2))
    (ha : d.Watches kind addr size a) : d.AccessHits (h, m) a := by
  have hexec : ∀ {m : Machine} {h : Nat}, .access k kind addr size ∈ execEvents m h →
      d.AccessHits (h, m) a := by
    intro m h hev
    rcases mem_execEvents hev with he | ⟨kind', addr', size', he, hacc⟩
    · cases he
    · obtain ⟨-, rfl, rfl, rfl⟩ := HartEvent.access.inj he
      exact ⟨kind, addr, size, hacc, ha⟩
  rcases List.mem_cons.mp hmem with he | hmem
  · cases he
  rcases List.mem_append.mp hmem with hmem | hmem
  · exact hexec hmem
  · obtain ⟨turn, hturn, hmem⟩ := List.mem_flatMap.mp hmem
    rcases List.mem_cons.mp hmem with he | hmem
    · cases he
    · exact absurd (hexec hmem) (hworkers turn hturn a)

/-- The step lemma. -/
theorem NoCause.step {debugMode : Bool} {n : Nat} {s₁ s s' : Session} (h : NoCause n s₁ s)
    (hstep : RunStep debugMode (CauseSafe debugMode) s s') :
    (s'.Running ∧ NoCause n s₁ s') ∨ (s'.phase = .waiting ∧ RepliesCause s₁ s') := by
  have hrunInv' := h.runInv.of_runStep hstep
  obtain ⟨hrun, e, hsafe, hstep⟩ := hstep
  obtain ⟨evs, htrace, hhits, hlast⟩ := h.trace
  cases hturn : s.begunTurn debugMode e with
  | none =>
    -- no turn begins: the run goes on, or ends without an access or a breakpoint
    have hsig := Prelude.dbg_signaled s e
    have htrace' := trace_of_begunTurn_eq_none hrun hturn hstep
    rcases runStep_without_turn hrun hturn hstep with ⟨hgo, hworld⟩ | ⟨hwait, tid, -, hidle⟩
    · refine Or.inl ⟨hgo, hrunInv', ?_, ?_, evs, htrace'.trans htrace, hhits, hlast⟩
      · rw [hworld, hsig]
        exact h.breakpointHit
      · rw [hworld, hsig]
        exact h.lastWatchpointAddr
    · obtain ⟨u, signal, pc, hflag, hworld⟩ := hidle
      -- neither flag is set, so that the stop reply names no cause
      have hdbg : (gdbStubSetStopThread u.dbg tid).breakpointHit = false ∧
          (gdbStubSetStopThread u.dbg tid).lastWatchpointAddr = 0 := by
        have hu : u.dbg.breakpointHit = false ∧ u.dbg.lastWatchpointAddr = 0 := by
          rw [hflag.dbg, hsig]
          exact ⟨h.breakpointHit, h.lastWatchpointAddr⟩
        unfold gdbStubSetStopThread
        split_ifs <;> exact hu
      have hreply := isStopReply_stopReplyText (gdbStubSetStopThread u.dbg tid) signal
        (gdbStubSetStopThread u.dbg tid).replyThread pc
      rw [hdbg.1, hdbg.2] at hreply
      refine Or.inr ⟨hwait, repliesCause_of_none (htrace'.trans htrace) hhits hlast ?_ hreply⟩
      rw [hworld, stub_gdbStubSendStopReason]
      exact List.getLast?_concat
  | some turn =>
    obtain ⟨k, v⟩ := turn
    have hpre := prelude_of_begunTurn hturn
    have hv := (runInvariant_runInv n s₁.world.dbg).of_prelude hpre h.runInv
    have hk : k < n := (lt_numHarts_of_begunTurn hturn (h.runInv.sessionInv.numHarts.symm ▸
      h.runInv.sessionInv.focusHart_lt)).trans_eq h.runInv.sessionInv.numHarts
    have hcases := runStep_of_begunTurn hturn hstep
    -- a breakpoint at the pc stops the hart before it executes anything
    by_cases hbp : v.dbg.breakpointAt (v.toTarget.hart k).pc
    · rw [if_pos hbp] at hcases
      obtain ⟨-, reply, hreply, hstop⟩ := stoppedOn_handleHartStop
        (v.updDbg fun d => { d with breakpointHit := true }) k 5 (hv.sessionInv.hartId k hk)
      refine Or.inr ⟨by rw [hcases], evs ++ [.turn k (v.toTarget.hart k).pc], sysThreadId k,
        ascii "swbreak:;", reply, ?_, ?_, hstop, ⟨fun _ => ?_, fun _ => rfl⟩, fun a =>
        ⟨fun he => absurd he.symm (watchText_ne_swbreak a), ?_⟩⟩
      · rw [hcases, ← List.append_assoc, ← htrace, ← hpre.trace]
        exact trace_handleHartStop _ _ _
      · rw [hcases]
        exact hreply
      · refine ⟨k, _, List.getLast?_concat, ?_, rfl⟩
        rwa [← breakpointAt_congr hv.breakpoints]
      · rintro ⟨j, kind, addr, size, hmem, ha⟩
        rcases List.mem_append.mp hmem with hmem | hmem
        · exact absurd ⟨a, ha⟩ (hhits _ hmem)
        · cases List.mem_singleton.mp hmem
    · rw [if_neg hbp] at hcases
      have hexec := executed_of_begunTurn hturn hbp
      have hworkers : s.workerTurns debugMode e =
          nestedTurns s.world.stub.connected v.toTarget k := by
        rw [Session.workerTurns, hexec]
      have htrace' := trace_of_executed hexec hstep
      rw [htrace, List.append_assoc] at htrace'
      -- a turn that executes does not end at a breakpoint
      have hnever : ∀ j pc, (evs ++ .turn k (v.toTarget.hart k).pc :: (execEvents v.toTarget k ++
          (s.workerTurns debugMode e).flatMap fun turn => turnEvents turn.1 turn.2)).getLast? =
            some (.turn j pc) → ¬s₁.world.dbg.breakpointAt pc := by
        intro j pc hev
        rw [List.getLast?_append_of_ne_nil _ (List.cons_ne_nil _ _), hworkers] at hev
        rw [getLast?_executed hev, ← breakpointAt_congr hv.breakpoints]
        exact hbp
      -- the accesses before this turn hit nothing, so a hit is one of this turn
      have haccess : ∀ {j kind addr size a}, .access j kind addr size ∈
          evs ++ .turn k (v.toTarget.hart k).pc :: (execEvents v.toTarget k ++
            (s.workerTurns debugMode e).flatMap fun turn => turnEvents turn.1 turn.2) →
          s₁.world.dbg.Watches kind addr size a → s.world.dbg.AccessHits (k, v.toTarget) a := by
        intro j kind addr size a hmem ha
        rcases List.mem_append.mp hmem with hmem | hmem
        · exact absurd ⟨a, ha⟩ (hhits _ hmem)
        · exact hits_of_mem_executed (fun turn hturn a => (hsafe.worker turn hturn a).2) hmem
            ((watches_congr h.runInv.watchpoints).mpr ha)
      have hcpu := (runInvariant_runInv n s₁.world.dbg).cpuStep k hv
      have hflag : (v.cpuStep k).dbg.breakpointHit = false := by
        have hcpudbg := (execFrame_sysCpuStep v.stub.connected v.toTarget k).1.dbg
        show (sysCpuStep v.stub.connected v.toTarget k).dbg.breakpointHit = false
        rw [hcpudbg, hpre.dbg]
        exact h.breakpointHit
      rcases lastWatchpointAddr_cpuStep hv.sessionInv.connected hsafe h.lastWatchpointAddr hturn hbp
        with ⟨hnone, hzero⟩ | ⟨a, hhit, ha, hhalted⟩
      · -- nothing was hit: the reply, if there is one, names no cause
        have hhits' : ∀ ev ∈ evs ++ .turn k (v.toTarget.hart k).pc :: (execEvents v.toTarget k ++
            (s.workerTurns debugMode e).flatMap fun turn => turnEvents turn.1 turn.2),
            ¬ev.Hits s₁.world.dbg := by
          intro ev hmem hhit
          cases ev with
          | turn j pc => exact hhit
          | exec j pc => exact hhit
          | access j kind addr size =>
            obtain ⟨a, ha⟩ := hhit
            exact hnone a (haccess hmem ha)
        rcases hcases with ⟨singleStep, signal, -, rfl⟩ | ⟨rfl, -⟩
        · obtain ⟨hwait, reply, hreply, hstop⟩ := stoppedOn_handleHartStop
            ((v.cpuStep k).updDbg fun d => { d with singleStep := singleStep }) k signal
            (hcpu.sessionInv.hartId k hk)
          rw [World.dbg_updDbg, hflag, hzero] at hstop
          exact Or.inr ⟨hwait, repliesCause_of_none htrace' hhits' hnever hreply hstop⟩
        · exact Or.inl ⟨⟨by simp, by simp⟩, hrunInv', hflag, hzero, _, htrace', hhits', hnever⟩
      · rcases hcases with ⟨singleStep, signal, -, rfl⟩ | ⟨-, hgo, -⟩
        · obtain ⟨hwait, reply, hreply, hstop⟩ := stoppedOn_handleHartStop
            ((v.cpuStep k).updDbg fun d => { d with singleStep := singleStep }) k signal
            (hcpu.sessionInv.hartId k hk)
          -- a hit at address 0 would read as none; the step is safe from that
          obtain ⟨hnonzero, honly⟩ := hsafe.own _ hexec a hhit
          have hcause : ∀ pc, stopReplyCause (x := .x32) false a pc = watchText a := fun pc => by
            rw [stopReplyCause, if_neg (by simp), if_pos hnonzero]
            rfl
          rw [World.dbg_updDbg, hflag, ha, hcause] at hstop
          refine Or.inr ⟨hwait, _, _, _, reply, htrace', hreply, hstop,
            ⟨fun he => absurd he (watchText_ne_swbreak a), ?_⟩, fun a' => ⟨fun he => ?_, ?_⟩⟩
          · rintro ⟨j, pc, hev, hbp', -⟩
            exact absurd hbp' (hnever j pc hev)
          · obtain rfl := watchText_inj he
            obtain ⟨kind, addr, size, hacc, hwatch⟩ := hhit
            refine ⟨k, kind, addr, size, ?_, (watches_congr h.runInv.watchpoints).mp hwatch⟩
            refine List.mem_append_right _ (List.mem_cons_of_mem _ (List.mem_append_left _ ?_))
            rw [execEvents, if_pos hacc.1, hacc.2]
            exact List.mem_cons_of_mem _ List.mem_cons_self
          · rintro ⟨j, kind, addr, size, hmem, hwatch⟩
            rw [honly a' (haccess hmem hwatch)]
        · rw [hhalted] at hgo
          cases hgo

/-- The stop reply of every run whose steps are safe gives the cause of the stop. -/
theorem repliesCause_of_resumeRun {debugMode : Bool} {n : Nat} {s₁ s : Session}
    (hn : validHartCount n) (hresumed : Resumed debugMode n s₁)
    (hhit : s₁.world.dbg.breakpointHit = false) (hlast : s₁.world.dbg.lastWatchpointAddr = 0)
    (hrun : ResumeRun debugMode (CauseSafe debugMode) s₁ s) (hwait : s.phase = .waiting) :
    RepliesCause s₁ s := by
  have hgo : (s.Running ∧ NoCause n s₁ s) ∨ (s.phase = .waiting ∧ RepliesCause s₁ s) := by
    clear hwait
    induction hrun with
    | refl =>
      refine Or.inl ⟨?_, hresumed.runInv hn, hhit, hlast, [], (List.append_nil _).symm, nofun,
        nofun⟩
      obtain ⟨-, -, -, -, -, -, hrunning⟩ := hresumed
      exact hrunning
    | tail _ hstep ih =>
      rcases ih with ⟨-, h⟩ | ⟨hwait, -⟩
      · exact h.step hstep
      · exact absurd hwait hstep.1.1
  rcases hgo with ⟨hrunning, -⟩ | ⟨-, h⟩
  · exact absurd hwait hrunning.1
  · exact h

theorem repliesCause_watchpointSession :
    RepliesCause watchpointSession (watchpointSession.after false [.quiet]) := by
  have hworkers : watchpointSession.workerTurns false .quiet = [] :=
    List.eq_nil_of_length_eq_zero (by decide +kernel)
  have hslots : ∀ slot ∈ watchpointSession.world.dbg.watchpoints.slots,
      slot.enabled → slot.key.type = .write ∧ slot.key.addr = 0x80001000 := by
    decide +kernel
  have hsafe : CauseSafe false .quiet watchpointSession := by
    refine ⟨fun turn hturn => ?_, fun turn _ _ a hfetch => ?_, fun turn _ a hhit => ?_⟩
    · rw [hworkers] at hturn
      exact absurd hturn List.not_mem_nil
    · obtain ⟨slot, hslot, henabled, htype, -, -⟩ := hfetch
      rw [(hslots slot hslot henabled).1] at htype
      exact absurd htype (by decide)
    · obtain ⟨-, -, -, -, slot, hslot, henabled, -, -, rfl⟩ := hhit
      refine ⟨?_, ?_⟩
      · rw [(hslots slot hslot henabled).2]
        decide
      · rintro a' ⟨-, -, -, -, slot', hslot', henabled', -, -, rfl⟩
        rw [(hslots slot' hslot' henabled').2, (hslots slot hslot henabled).2]
  have hresumed : Resumed false 1 watchpointSession :=
    resumed_after (by decide +kernel) (by decide +kernel) (by decide +kernel) (by decide +kernel)
  refine repliesCause_of_resumeRun (by decide) hresumed (by decide +kernel) (by decide +kernel)
    (resumeRun_after ?_) (by decide +kernel)
  exact ⟨by decide +kernel, hsafe, by decide +kernel, trivial⟩

/-- One hart; `?` while a breakpoint is set at its pc, which is then removed, and a step. -/
def queriedSession : Session :=
  ((loadedSession 1 (frame (ascii "Z0,80000000,4") ++ frame (ascii "?") ++
    frame (ascii "z0,80000000,4") ++ frame (ascii "s"))).after false
    [.quiet, .quiet, .quiet]).next false .quiet

/-- The stop reply says that a breakpoint was hit. -/
theorem not_repliesCause_queriedSession :
    Resumed false 1 queriedSession ∧
      RunStep false (fun _ _ => True) queriedSession (queriedSession.next false .quiet) ∧
      (queriedSession.next false .quiet).phase = .waiting ∧
      ¬RepliesCause queriedSession (queriedSession.next false .quiet) := by
  have hresumed : Resumed false 1 queriedSession :=
    resumed_after (by decide +kernel) (by decide +kernel) (by decide +kernel) (by decide +kernel)
  have hok : (sessionStep false .quiet queriedSession).isOk := by decide +kernel
  refine ⟨hresumed, ⟨by decide +kernel, .quiet, trivial, sessionStep_next hok⟩,
    by decide +kernel, ?_⟩
  rintro ⟨evs, tid, cause, reply, -, hreply, hstop, hswbreak, -⟩
  have hwritten : (queriedSession.next false .quiet).world.stub.output.getLast? =
      some (frame (stopReplyPrefix false 5 1 ++ ascii "swbreak:;")) := by
    decide +kernel
  obtain rfl := Option.some.inj (hreply.symm.trans hwritten)
  have hsent : IsStopReply 1 (ascii "swbreak:;")
      (frame (stopReplyPrefix false 5 1 ++ ascii "swbreak:;")) := ⟨false, 5, rfl⟩
  obtain ⟨h, pc, -, hbp, -⟩ := hswbreak.mp (hstop.unique hsent).2
  have hdisabled : ∀ slot ∈ queriedSession.world.dbg.breakpoints.slots, slot.enabled = false := by
    decide +kernel
  obtain ⟨slot, hslot, hmatch⟩ := List.any_eq_true.mp hbp
  rw [hdisabled slot hslot] at hmatch
  cases hmatch

end Rv32Gdb
