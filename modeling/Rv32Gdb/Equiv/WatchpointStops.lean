import Rv32Gdb.Equiv.Resume

/-!
# Watchpoints in a run

`stopsAtWatchpoints_of_resumeRun`: a load or store that overlaps an enabled watchpoint ends the
run, with a stop reply for the hart that made it and the address of the watchpoint, in a run whose
steps are all `WatchSafe`: no worker hits a watchpoint inside a step of hart `0`; and an access of
the stepped hart that hits one starts no job, meets no other watchpoint at another address and none
at address `0`, and finds `breakpoint_hit` clear.
-/

namespace Rv32Gdb

/-! ### Watchpoints that an access overlaps -/

/-- An access overlaps an enabled watchpoint of a matching type, with the address `a`. -/
def DebugState.Watches (d : DebugState .x32) (kind : AccessKind) (addr : Word) (size : Nat)
    (a : Word) : Prop :=
  ∃ slot ∈ d.watchpoints.slots, slot.enabled ∧
    (slot.key.type = kind.watchpointType ∨ slot.key.type = .access) ∧
    rangesOverlap addr (BitVec.ofNat 32 size) slot.key.addr slot.key.len ∧ slot.key.addr = a

theorem watches_congr {d d' : DebugState .x32} (h : d'.watchpoints = d.watchpoints)
    {kind : AccessKind} {addr : Word} {size : Nat} {a : Word} :
    d'.Watches kind addr size a ↔ d.Watches kind addr size a := by
  rw [DebugState.Watches, h, DebugState.Watches]

theorem watches_of_accessHit {connected : Bool} {d : DebugState .x32} {kind : AccessKind}
    {addr : Word} {size : Nat} {a : Word} (h : accessHit connected d kind addr size = some a) :
    d.Watches kind addr size a := by
  unfold accessHit DebugState.watchpointFor at h
  split_ifs at h
  obtain ⟨slot, hfind, haddr⟩ := Option.map_eq_some_iff.mp h
  have hprop := List.find?_some hfind
  simp only [Bool.and_eq_true, Bool.or_eq_true, decide_eq_true_eq] at hprop
  exact ⟨slot, List.mem_of_find?_eq_some hfind, hprop.1.1, hprop.1.2, hprop.2, haddr⟩

theorem accessHit_of_watches {d : DebugState .x32} {kind : AccessKind} {addr : Word} {size : Nat}
    {a : Word} (h : d.Watches kind addr size a) :
    ∃ a', accessHit true d kind addr size = some a' := by
  obtain ⟨slot, hmem, henabled, htype, hoverlap, -⟩ := h
  have hfind : (d.watchpoints.slots.find? fun s =>
      s.enabled && (s.key.type = kind.watchpointType || s.key.type = .access) &&
        rangesOverlap addr (BitVec.ofNat 32 size) s.key.addr s.key.len).isSome := by
    rw [List.find?_isSome]
    refine ⟨slot, hmem, ?_⟩
    simp only [Bool.and_eq_true, Bool.or_eq_true, decide_eq_true_eq]
    exact ⟨⟨henabled, htype⟩, hoverlap⟩
  obtain ⟨found, hfound⟩ := Option.isSome_iff_exists.mp hfind
  refine ⟨found.key.addr, ?_⟩
  rw [accessHit, if_pos rfl, DebugState.watchpointFor, hfound]
  rfl

/-! ### Runs -/

/-- The text of a stop reply after the thread, for a watchpoint at `a`. -/
def watchText (a : Word) : List Byte := ascii "watch:" ++ addrText (x := .x32) a ++ ascii ";"

/-- The data access of a turn: hart, kind, address and size. -/
def TurnAccess (turn : Nat × Machine) (kind : AccessKind) (addr : Word) (size : Nat) : Prop :=
  (turn.2.hart turn.1).running ∧ pendingAccess turn.2 turn.1 = some (kind, addr, size)

/-- What the attribution of watchpoint hits needs in a step. -/
structure WatchSafe (debugMode : Bool) (e : Event) (s : Session) : Prop where
  worker : ∀ turn ∈ s.workerTurns debugMode e, ∀ kind addr size a,
    TurnAccess turn kind addr size → ¬s.world.dbg.Watches kind addr size a
  own : ∀ turn ∈ s.executed debugMode e, ∀ kind addr size a,
    TurnAccess turn kind addr size → s.world.dbg.Watches kind addr size a →
      a ≠ 0 ∧ (∀ a', s.world.dbg.Watches kind addr size a' → a' = a) ∧
      s.world.dbg.breakpointHit = false ∧ s.workerTurns debugMode e = []

/-- Between `s₁` and `s` an access that overlaps an enabled watchpoint is not followed by another
instruction, and a stop reply names the hart and the watchpoint. -/
def StopsAtWatchpoints (s₁ s : Session) : Prop :=
  ∃ evs, s.world.sim.trace = s₁.world.sim.trace ++ evs ∧
    ∀ pre h kind addr size post a, evs = pre ++ .access h kind addr size :: post →
      s₁.world.dbg.Watches kind addr size a →
      (∀ k pc, .exec k pc ∉ post) ∧ s.StoppedOn h (watchText a)

/-- An access that overlaps an enabled watchpoint. -/
def HartEvent.Hits (d : DebugState .x32) : HartEvent → Prop
  | .access _ kind addr size => ∃ a, d.Watches kind addr size a
  | _ => False

/-- The run has stopped on the watchpoints that an access overlaps. -/
def HartEvent.StopsAccess (d : DebugState .x32) (s : Session) : HartEvent → Prop
  | .access h kind addr size =>
    s.phase = .waiting ∧ ∀ a, d.Watches kind addr size a → s.StoppedOn h (watchText a)
  | _ => False

theorem mem_execEvents {m : Machine} {h : Nat} {ev : HartEvent} (hev : ev ∈ execEvents m h) :
    ev = .exec h (m.hart h).pc ∨
      ∃ kind addr size, ev = .access h kind addr size ∧ TurnAccess (h, m) kind addr size := by
  unfold execEvents at hev
  split_ifs at hev with hrun
  · rcases List.mem_cons.mp hev with rfl | hev
    · exact Or.inl rfl
    · obtain ⟨⟨kind, addr, size⟩, hacc, rfl⟩ := List.mem_map.mp hev
      exact Or.inr ⟨kind, addr, size, rfl, hrun, Option.mem_toList.mp hacc⟩
  · exact absurd hev List.not_mem_nil

theorem not_hits_execEvents {d : DebugState .x32} {m : Machine} {h : Nat}
    (hno : ∀ kind addr size a, TurnAccess (h, m) kind addr size → ¬d.Watches kind addr size a) :
    ∀ ev ∈ execEvents m h, ¬ev.Hits d := by
  intro ev hev
  rcases mem_execEvents hev with rfl | ⟨kind, addr, size, rfl, hacc⟩
  · exact id
  · rintro ⟨a, ha⟩
    exact hno kind addr size a hacc ha

/-- The hart that hits a watchpoint stops the run and is named. -/
theorem stoppedOn_of_watches {debugMode : Bool} {n : Nat} {e : Event} {s s' : Session} {h : Nat}
    {v : EmuWorld} (hinv : SessionInv n s.world) (hturn : s.begunTurn debugMode e = some (h, v))
    (hbp : ¬v.dbg.breakpointAt (v.toTarget.hart h).pc)
    (hstep : sessionStep debugMode e s = .ok s') {kind : AccessKind} {addr : Word} {size : Nat}
    {a : Word} (hacc : TurnAccess (h, v.toTarget) kind addr size)
    (hwatch : s.world.dbg.Watches kind addr size a) (hzero : a ≠ 0)
    (honly : ∀ a', s.world.dbg.Watches kind addr size a' → a' = a)
    (hhit : s.world.dbg.breakpointHit = false)
    (hjob : nestedTurns v.stub.connected v.toTarget h = []) : s'.StoppedOn h (watchText a) := by
  have hpre := prelude_of_begunTurn hturn
  have hv := (sessionInvariant_sessionInv n).runInvariant.of_prelude hpre hinv
  have hh := lt_numHarts_of_begunTurn hturn (hinv.numHarts.symm ▸ hinv.focusHart_lt)
  have hcpu := (sessionInvariant_sessionInv n).runInvariant.cpuStep h hv
  have hid := hcpu.hartId h (hh.trans_eq hinv.numHarts)
  -- the hit is recorded and halts the hart
  have hwatches : v.dbg.watchpoints = s.world.dbg.watchpoints := hpre.runFrame.watchpoints
  obtain ⟨a', ha'⟩ := accessHit_of_watches ((watches_congr hwatches).mpr hwatch)
  obtain rfl : a' = a := honly a' ((watches_congr hwatches).mp (watches_of_accessHit ha'))
  have hrecord := rv32CpuStep_of_hit v.stub.connected hacc.1 hacc.2
    (by rw [hv.connected]; exact ha')
  have hframe := sysCpuStep_of_nestedTurns_eq_nil hjob
  have hlast : (v.cpuStep h).dbg.lastWatchpointAddr = a' :=
    (congrArg DebugState.lastWatchpointAddr hframe.dbg).trans hrecord.1
  have hhalted : ((v.cpuStep h).toTarget.hart h).halted := hframe.sys.halted h hrecord.2
  have hflag : (v.cpuStep h).dbg.breakpointHit = false := by
    have hcpudbg := (execFrame_sysCpuStep v.stub.connected v.toTarget h).1.dbg
    show (sysCpuStep v.stub.connected v.toTarget h).dbg.breakpointHit = false
    rw [hcpudbg, hpre.dbg]
    exact hhit
  have hcases := runStep_of_begunTurn hturn hstep
  rw [if_neg hbp] at hcases
  rcases hcases with ⟨singleStep, signal, -, rfl⟩ | ⟨-, hrun, -⟩
  · have hstop := stoppedOn_handleHartStop
      ((v.cpuStep h).updDbg fun d => { d with singleStep := singleStep }) h signal hid
    -- the reply names a breakpoint first, and takes the address 0 for no hit
    have hcause : stopReplyCause (v.cpuStep h).dbg.breakpointHit
        (v.cpuStep h).dbg.lastWatchpointAddr ((v.cpuStep h).toTarget.hart h).pc =
          watchText a' := by
      rw [hflag, hlast, stopReplyCause, if_neg (by simp), if_pos hzero]
      rfl
    rw [← hcause]
    exact hstop
  · rw [hhalted] at hrun
    cases hrun

/-- The step lemma. -/
theorem onlyLast_of_watchSafe {debugMode : Bool} {n : Nat} {d : DebugState .x32} {s s' : Session}
    (hinv : RunInv n d s.world) (hstep : RunStep debugMode (WatchSafe debugMode) s s') :
    ∃ evs, s'.world.sim.trace = s.world.sim.trace ++ evs ∧
      OnlyLast (HartEvent.Hits d) (HartEvent.StopsAccess d s') evs := by
  obtain ⟨hrun, e, hsafe, hstep⟩ := hstep
  cases hturn : s.begunTurn debugMode e with
  | none =>
    refine ⟨[], ?_, onlyLast_of_forall_not (by simp)⟩
    rw [trace_of_begunTurn_eq_none hrun hturn hstep, List.append_nil]
  | some turn =>
    obtain ⟨h, v⟩ := turn
    have hpre := prelude_of_begunTurn hturn
    by_cases hbp : v.dbg.breakpointAt (v.toTarget.hart h).pc
    · have hcases := runStep_of_begunTurn hturn hstep
      rw [if_pos hbp] at hcases
      refine ⟨[.turn h (v.toTarget.hart h).pc], ?_, onlyLast_singleton fun hhit => hhit.elim⟩
      rw [hcases]
      exact (trace_handleHartStop _ _ _).trans hpre.trace
    have hexec := executed_of_begunTurn hturn hbp
    refine ⟨_, trace_of_executed hexec hstep, ?_⟩
    have hwatches : ∀ {kind addr size a}, d.Watches kind addr size a ↔
        s.world.dbg.Watches kind addr size a := (watches_congr hinv.watchpoints).symm
    by_cases hhit : ∃ kind addr size a, TurnAccess (h, v.toTarget) kind addr size ∧
        s.world.dbg.Watches kind addr size a
    · obtain ⟨kind, addr, size, a, hacc, hwatch⟩ := hhit
      obtain ⟨hzero, honly, hflag, hjob⟩ := hsafe.own _ hexec kind addr size a hacc hwatch
      -- the access is the last event of the turn, as no worker has a turn in it
      have hevents : execEvents v.toTarget h =
          [.exec h (v.toTarget.hart h).pc, .access h kind addr size] := by
        rw [execEvents, if_pos hacc.1, hacc.2]
        rfl
      have hnested : nestedTurns v.stub.connected v.toTarget h = [] := by
        rw [Session.workerTurns, hexec] at hjob
        rw [hpre.stub]
        exact hjob
      rw [hevents, hjob, List.flatMap_nil, List.append_nil]
      have hbefore : ∀ ev ∈ [HartEvent.turn h (v.toTarget.hart h).pc,
          HartEvent.exec h (v.toTarget.hart h).pc], ¬ev.Hits d := by
        intro ev hev
        rcases List.mem_pair.mp hev with rfl | rfl <;> exact id
      refine OnlyLast.append hbefore (onlyLast_singleton fun _ => ?_)
      have hstop := stoppedOn_of_watches hinv.sessionInv hturn hbp hstep hacc hwatch hzero honly
        hflag hnested
      refine ⟨hstop.1, fun a' ha' => ?_⟩
      rw [honly a' (hwatches.mp ha')]
      exact hstop
    · refine onlyLast_of_forall_not fun ev hev => ?_
      rcases List.mem_cons.mp hev with rfl | hev
      · exact id
      rcases List.mem_append.mp hev with hev | hev
      · exact not_hits_execEvents (fun kind addr size a hacc ha =>
          hhit ⟨kind, addr, size, a, hacc, hwatches.mp ha⟩) ev hev
      · obtain ⟨turn, hturn, hev⟩ := List.mem_flatMap.mp hev
        rcases List.mem_cons.mp hev with rfl | hev
        · exact id
        · exact not_hits_execEvents (fun kind addr size a hacc ha =>
            hsafe.worker turn hturn kind addr size a hacc (hwatches.mp ha)) ev hev

/-- Watchpoints stop every run whose steps are safe. -/
theorem stopsAtWatchpoints_of_resumeRun {debugMode : Bool} {n : Nat} {s₁ s : Session}
    (hn : validHartCount n) (hresumed : Resumed debugMode n s₁)
    (hrun : ResumeRun debugMode (WatchSafe debugMode) s₁ s) : StopsAtWatchpoints s₁ s := by
  have hlive : ∀ {s s' : Session} {ev : HartEvent},
      RunStep debugMode (WatchSafe debugMode) s s' → ¬ev.StopsAccess s₁.world.dbg s := by
    intro s s' ev hstep hstop
    cases ev with
    | turn h pc => exact hstop
    | exec h pc => exact hstop
    | access h kind addr size => exact hstep.1.1 hstop.1
  obtain ⟨-, evs, htrace, hlast⟩ := onlyLast_of_run
    (I := fun s : Session => RunInv n s₁.world.dbg s.world)
    (fun s : Session => s.world.sim.trace) RunInv.of_runStep hlive onlyLast_of_watchSafe
    (hresumed.runInv hn) hrun
  refine ⟨evs, htrace, fun pre h kind addr size post a hevs ha => ?_⟩
  obtain ⟨rfl, -, hstop⟩ := hlast pre _ post hevs ⟨a, ha⟩
  exact ⟨fun _ _ => List.not_mem_nil, hstop a ha⟩

/-- One hart at its loop store, a watchpoint on the word it stores to, and a step. -/
def watchpointSession : Session :=
  ((loadedSession 1 (frame (ascii "P20=14000080") ++ frame (ascii "P8=00100080") ++
    frame (ascii "Z2,80001000,4") ++ frame (ascii "s"))).after false
    [.quiet, .quiet, .quiet]).next false .quiet

theorem stopsAtWatchpoints_watchpointSession :
    StopsAtWatchpoints watchpointSession (watchpointSession.after false [.quiet]) := by
  have hworkers : watchpointSession.workerTurns false .quiet = [] :=
    List.eq_nil_of_length_eq_zero (by decide +kernel)
  have haddr : ∀ slot ∈ watchpointSession.world.dbg.watchpoints.slots,
      slot.enabled → slot.key.addr = 0x80001000 := by
    decide +kernel
  have hsafe : WatchSafe false .quiet watchpointSession := by
    refine ⟨fun turn hturn => ?_, fun turn _ kind addr size a _ hwatch => ?_⟩
    · rw [hworkers] at hturn
      exact absurd hturn List.not_mem_nil
    · obtain ⟨slot, hslot, henabled, -, -, rfl⟩ := hwatch
      refine ⟨?_, ?_, by decide +kernel, hworkers⟩
      · rw [haddr slot hslot henabled]
        decide
      · rintro a' ⟨slot', hslot', henabled', -, -, rfl⟩
        rw [haddr slot' hslot' henabled', haddr slot hslot henabled]
  have hresumed : Resumed false 1 watchpointSession :=
    resumed_after (by decide +kernel) (by decide +kernel) (by decide +kernel) (by decide +kernel)
  refine stopsAtWatchpoints_of_resumeRun (by decide) hresumed (resumeRun_after ?_)
  exact ⟨by decide +kernel, hsafe, by decide +kernel, trivial⟩

/-- One hart at its loop store, a watchpoint at address `0`, to which it stores, and a step. -/
def zeroWatchpointSession : Session :=
  ((loadedSession 1 (frame (ascii "P20=14000080") ++ frame (ascii "Z2,0,4") ++
    frame (ascii "s"))).after false [.quiet, .quiet]).next false .quiet

/-- The stop reply does not say that a watchpoint was hit. -/
theorem not_stopsAtWatchpoints_zeroWatchpointSession :
    Resumed false 1 zeroWatchpointSession ∧
      RunStep false (fun _ _ => True) zeroWatchpointSession
        (zeroWatchpointSession.next false .quiet) ∧
      ¬StopsAtWatchpoints zeroWatchpointSession (zeroWatchpointSession.next false .quiet) := by
  have hresumed : Resumed false 1 zeroWatchpointSession :=
    resumed_after (by decide +kernel) (by decide +kernel) (by decide +kernel) (by decide +kernel)
  have hok : (sessionStep false .quiet zeroWatchpointSession).isOk := by decide +kernel
  refine ⟨hresumed, ⟨by decide +kernel, .quiet, trivial, sessionStep_next hok⟩, ?_⟩
  rintro ⟨evs, htrace, hstops⟩
  have hevents : (zeroWatchpointSession.executed false .quiet).map
      (fun turn => (turn.1, execEvents turn.2 turn.1)) =
        some (0, [.exec 0 0x80000014, .access 0 .store 0 4]) := by
    decide +kernel
  obtain ⟨⟨h, m⟩, hexec, hevents⟩ := Option.map_eq_some_iff.mp hevents
  obtain ⟨rfl, hevents⟩ := Prod.mk.inj hevents
  have htrace' := trace_of_executed hexec (sessionStep_next hok)
  rw [hevents] at htrace'
  obtain rfl := List.append_cancel_left (htrace'.symm.trans htrace)
  have hwatch : ∃ slot ∈ zeroWatchpointSession.world.dbg.watchpoints.slots, slot.enabled ∧
      (slot.key.type = AccessKind.store.watchpointType ∨ slot.key.type = .access) ∧
      rangesOverlap 0 4 slot.key.addr slot.key.len ∧ slot.key.addr = 0 := by
    decide +kernel
  obtain ⟨-, -, reply, hlast, mp, signal, rfl⟩ :=
    hstops [_, _] 0 .store 0 4 _ 0 rfl hwatch
  have hreply : (zeroWatchpointSession.next false .quiet).world.stub.output.getLast? =
      some (frame (stopReplyPrefix false 5 1 ++ ascii "20:80000018;")) := by
    decide +kernel
  have htext := (stopReplyText_of_frame_eq (Option.some.inj (hlast.symm.trans hreply))).2
  cases mp
  · exact absurd (congrArg List.length (List.append_cancel_left htext)) (by decide +kernel)
  · exact absurd (congrArg List.head? htext) (by decide +kernel)

end Rv32Gdb
