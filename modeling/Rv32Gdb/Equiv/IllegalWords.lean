import Rv32Gdb.Equiv.DataWatchpoints
import Rv32Gdb.Equiv.ThreadStep

/-!
# What becomes of illegal words

`stopsIfIllegal_iff` is about all calls of `rv32_cpu_step` in a session (`Session.calls`): that of
the hart that has its turn, and those of a worker that runs a job inside it.  The hart stops at
exactly the illegal words, each reported as signal 4, if and only if the decoder gets the word right
and an illegal word is executed in the hart's own turn, by a hart that is not halted, and away from
read watchpoints.
-/

namespace Rv32Gdb

open Rv32i

/-- The words that the decoder gets right: the valid ones other than `FENCE`, and the illegal ones
of an unknown opcode. -/
def DecodedRight (w : Word) : Prop :=
  IsEncoding w ∧ w &&& 0x7F ≠ 0x0F ∨ ¬IsEncoding w ∧ ¬knownOpcode w

instance (w : Word) : Decidable (DecodedRight w) := inferInstanceAs (Decidable (_ ∨ _))

/-- A running hart stops at exactly the illegal words if and only if the decoder gets them right. -/
theorem stopsAsIllegal_iff_not_isEncoding_iff {connected : Bool} {m : Machine} {h : Nat}
    (hrun : (m.hart h).running) :
    (StopsAsIllegal h m (rv32CpuStep connected m h) ↔ ¬IsEncoding (fetched m h)) ↔
      DecodedRight (fetched m h) := by
  rw [stopsAsIllegal_iff connected hrun, DecodedRight]
  by_cases hvalid : IsEncoding (fetched m h)
  · rw [← knownOpcode_of_isEncoding hvalid]
    simp [hvalid]
  · simp [hvalid]

/-! ### Jobs in the step of a hart -/

theorem onlyMemory_ramWrite32 (s : Rv32System) (addr value : Word) (k : Nat) :
    OnlyMemory (s.harts k) ((ramWrite32 s addr value).harts k) := by
  unfold ramWrite32
  split_ifs
  · exact Rv32System.harts_ramStore _ _ _ _ _ _
  · exact .refl _

theorem onlyMemory_smpDeliverIpi (s : Rv32System) (target : Int) (item : Word) (k : Nat) :
    OnlyMemory (s.harts k) ((smpDeliverIpi s target item).harts k) := by
  unfold smpDeliverIpi
  split_ifs
  · exact .refl _
  · exact ((onlyMemory_ramWrite32 _ _ _ k).trans (onlyMemory_ramWrite32 _ _ _ k)).trans
      (onlyMemory_ramWrite32 _ _ _ k)

theorem onlyMemory_workerJobLoop (connected : Bool) {h k : Nat} (hk : k ≠ h) (guard : Nat)
    (m : Machine) : OnlyMemory (m.hart k) ((workerJobLoop connected h guard m).hart k) := by
  induction guard generalizing m with
  | zero => exact .refl _
  | succ guard ih =>
    have hstep := hart_rv32CpuStep_of_ne connected (m.log (.turn h (m.hart h).pc)) hk
    rw [workerJobLoop]
    simp only
    split_ifs
    · exact hstep
    · exact hstep.trans (ih _)
    · exact .refl _

/-- The job that a step of hart `h` starts leaves `h` alone. -/
theorem onlyMemory_sysCpuStep (connected : Bool) {m : Machine} {h : Nat}
    (hid : (m.hart h).hartId = h) :
    OnlyMemory ((rv32CpuStep connected m h).hart h) ((sysCpuStep connected m h).hart h) := by
  have hid' : ((rv32CpuStep connected m h).hart h).hartId = h := by
    rw [(execFrame_rv32CpuStep _ _ _).hartId, hid]
  unfold sysCpuStep
  generalize rv32CpuStep connected m h = m₁ at hid' ⊢
  unfold sysPostStep
  split_ifs with hone hstore
  · exact .refl _
  · obtain rfl : h = 0 := hid'.symm.trans hstore.1
    have hdeliver : ∀ target item, OnlyMemory (m₁.hart 0)
        ((m₁.updSys fun s => smpDeliverIpi s target item).hart 0) :=
      fun target item => onlyMemory_smpDeliverIpi m₁.sys target item 0
    unfold smpSyncOnCounterStore smpSyncRunWorkerJobs
    simp only
    split_ifs with hskip htarget hrange hrun
    · exact .refl _
    · exact .refl _
    · exact hdeliver _ _
    · exact hdeliver _ _
    · exact (hdeliver _ _).trans (onlyMemory_workerJobLoop connected (by omega) 128 _)
  · exact .refl _

/-! ### The report -/

/-- The calls of `rv32_cpu_step` in a step: who executes, and the machine in which it does. -/
def Session.calls (debugMode : Bool) (e : Event) (s : Session) : List (Nat × Machine) :=
  (s.executed debugMode e).toList ++ s.workerTurns debugMode e

/-- From `s` to `s'` the target stops, and the one thing written is a stop reply with the given
signal for the thread of hart `h`. -/
def ReportsSignal (signal : Int) (h : Nat) (s s' : Session) : Prop :=
  s'.phase = .waiting ∧ ∃ multiprocess cause, s'.world.stub.output = s.world.stub.output ++
    [frame (stopReplyPrefix multiprocess signal (sysThreadId h) ++ cause)]

/-- What comes of the turn of a hart that executes. -/
theorem output_of_executed {debugMode : Bool} {n : Nat} {e : Event} {s s' : Session} {h : Nat}
    {m : Machine} (hinv : SessionInv n s.world) (hexec : s.executed debugMode e = some (h, m))
    (hstep : sessionStep debugMode e s = .ok s') :
    m.sys.numHarts = n ∧ h < n ∧ (m.hart h).hartId = h ∧
    ∃ c : Rv32Cpu, OnlyMemory ((rv32CpuStep true m h).hart h) c ∧
      (ReportsSignal (stopSignal c) h s s' ∧ (s.phase = .stepping ∨ c.halted ∨ !c.running) ∨
        s'.world.stub.output = s.world.stub.output ∧ c.halted = false ∧ c.running) := by
  have hP := (sessionInvariant_sessionInv n).runInvariant
  unfold Session.executed at hexec
  cases hturn : s.begunTurn debugMode e with
  | none =>
    rw [hturn] at hexec
    cases hexec
  | some turn =>
    obtain ⟨k, v⟩ := turn
    rw [hturn] at hexec
    simp only at hexec
    split_ifs at hexec with hbp
    obtain ⟨rfl, rfl⟩ := Prod.mk.inj (Option.some.inj hexec)
    have hpre := prelude_of_begunTurn hturn
    have hv := hP.of_prelude hpre hinv
    have hk : k < n := (lt_numHarts_of_begunTurn hturn (hinv.numHarts.symm ▸
      hinv.focusHart_lt)).trans_eq hinv.numHarts
    have hid := hv.hartId k hk
    have honly := onlyMemory_sysCpuStep v.stub.connected hid
    have hid' : ((v.cpuStep k).toTarget.hart k).hartId = k := (hP.cpuStep k hv).hartId k hk
    have hcases := runStep_of_begunTurn hturn hstep
    rw [if_neg hbp] at hcases
    refine ⟨hv.numHarts, hk, hid, (v.cpuStep k).toTarget.hart k, ?_, ?_⟩
    · rw [← hv.connected]
      exact honly
    rcases hcases with ⟨singleStep, signal, ⟨hwhy, rfl⟩, rfl⟩ | ⟨rfl, hgo⟩
    · refine Or.inl ⟨⟨rfl, (v.cpuStep k).dbg.multiprocessActive, stopReplyCause
        (v.cpuStep k).dbg.breakpointHit (v.cpuStep k).dbg.lastWatchpointAddr
        ((v.cpuStep k).toTarget.hart k).pc, ?_⟩, hwhy⟩
      rw [stub_handleHartStop, ← hpre.stub]
      show v.stub.output ++ [frame (stopReplyText _ _ (sysThreadId
        ((v.cpuStep k).toTarget.hart k).hartId) _)] = _
      rw [hid']
      rfl
    · exact Or.inr ⟨congrArg GdbStub.output hpre.stub, hgo⟩

/-- An illegal word of an unknown opcode in the hart's own turn is reported as signal 4 unless the
hart is halted, by now or by the fetch. -/
theorem reportsSignal_of_executed {debugMode : Bool} {n : Nat} {e : Event} {s s' : Session}
    {h : Nat} {m : Machine} (hinv : SessionInv n s.world)
    (hexec : s.executed debugMode e = some (h, m)) (hstep : sessionStep debugMode e s = .ok s')
    (hrun : (m.hart h).running) (hno : ¬knownOpcode (fetched m h)) :
    ReportsSignal 4 h s s' ↔
      ¬(m.hart h).halted ∧ ¬m.dbg.Overlapped .load (m.hart h).pc 4 := by
  obtain ⟨-, -, -, c, ⟨memory, hc⟩, hreport⟩ := output_of_executed hinv hexec hstep
  have hrunning : ¬c.running := by
    rw [hc]
    show ¬((rv32CpuStep true m h).hart h).running
    rw [running_rv32CpuStep true hrun]
    exact hno
  -- no data access, and no `EBREAK`
  have hother : ∀ opcode ∈ [0x37, 0x17, 0x6F, 0x67, 0x63, 0x03, 0x23, 0x13, 0x33, 0x73],
      fetched m h &&& 0x7F ≠ opcode := by
    rintro opcode hmem rfl
    exact hno (decide_eq_true hmem)
  have hnone : pendingAccess m h = none := by
    rw [pendingAccess]
    simp only [if_neg (hother 0x03 (by decide)), if_neg (hother 0x23 (by decide))]
  have hhalted : c.halted ↔
      (m.hart h).halted ∨ m.dbg.Overlapped .load (m.hart h).pc 4 := by
    rw [hc]
    show ((rv32CpuStep true m h).hart h).halted ↔ _
    rw [halted_rv32CpuStep_iff hrun, hnone]
    have hbreak : ¬decodedAsEbreak (fetched m h) :=
      fun hbreak => hother 0x73 (by decide) (of_decide_eq_true hbreak).1
    tauto
  rw [← not_or, ← hhalted]
  rcases hreport with ⟨hreport, -⟩ | ⟨-, -, hgo⟩
  swap
  · exact absurd hgo hrunning
  constructor
  · rintro ⟨-, mp, cause, hout⟩ hhalt
    -- a halted hart is reported as signal 5
    rw [stopSignal_of_halted hhalt] at hreport
    obtain ⟨-, mp', cause', hout'⟩ := hreport
    have htext := List.append_cancel_left (hout.symm.trans hout')
    have hsignal := (stopReplyText_of_frame_eq (List.singleton_inj.mp htext)).1
    exact absurd hsignal (by decide)
  · intro hhalt
    rwa [stopSignal_of_not hhalt hrunning] at hreport

/-- What a worker executes inside the step of hart `0` is not reported. -/
theorem not_reportsSignal_of_workerTurns {debugMode : Bool} {n : Nat} {e : Event}
    {s s' : Session} {turn : Nat × Machine} (hn : n ≤ 8) (hinv : SessionInv n s.world)
    (hstep : sessionStep debugMode e s = .ok s') (hturn : turn ∈ s.workerTurns debugMode e)
    (signal : Int) :
    ¬ReportsSignal signal turn.1 s s' ∧ s.executed debugMode e ≠ some turn := by
  unfold Session.workerTurns at hturn
  cases hexec : s.executed debugMode e with
  | none =>
    rw [hexec] at hturn
    exact absurd hturn List.not_mem_nil
  | some turn₀ =>
    obtain ⟨k, m⟩ := turn₀
    rw [hexec] at hturn
    obtain ⟨hnum, hk, hid, c, -, hreport⟩ := output_of_executed hinv hexec hstep
    have hne := ne_of_mem_nestedTurns hid hturn
    refine ⟨?_, fun heq => hne (congrArg Prod.fst (Option.some.inj heq)).symm⟩
    rintro ⟨-, mp, cause, hout⟩
    rcases hreport with ⟨⟨-, mp', cause', hout'⟩, -⟩ | ⟨hout', -⟩
    · -- the reply names the hart that has the turn
      have hframe := List.singleton_inj.mp (List.append_cancel_left (hout.symm.trans hout'))
      have hthread : turn.1 + 1 = k + 1 := by
        have hlt := hnum ▸ (of_mem_nestedTurns hturn).2.2
        exact NamesThread.unique (by omega) (by omega) ⟨cause, mp, signal, rfl⟩
          ⟨cause', mp', _, hframe⟩
      omega
    · rw [hout'] at hout
      exact absurd (List.self_eq_append_right.mp hout) (List.cons_ne_nil _ _)

/-! ### Main result -/

/-- The call of hart `h` in `m`, in a step from `s` to `s'`: the hart stops, and is reported as
signal 4, if and only if the word is illegal, and a valid word leaves it running. -/
def StopsIfIllegal (h : Nat) (m : Machine) (s s' : Session) : Prop :=
  let m' := rv32CpuStep s.world.stub.connected m h
  (StopsAsIllegal h m m' ∧ ReportsSignal 4 h s s' ↔ ¬IsEncoding (fetched m h)) ∧
    (IsEncoding (fetched m h) → (m'.hart h).running)

/-- What the report of an illegal word needs: it is executed in the hart's own turn, by a hart that
is not halted, and away from read watchpoints. -/
def Session.Reportable (debugMode : Bool) (e : Event) (s : Session) (h : Nat) (m : Machine) :
    Prop :=
  s.executed debugMode e = some (h, m) ∧ ¬(m.hart h).halted ∧
    ¬m.dbg.Overlapped .load (m.hart h).pc 4

theorem reportsSignal_iff {debugMode : Bool} {n : Nat} {e : Event} {s s' : Session} {h : Nat}
    {m : Machine} (hn : n ≤ 8) (hinv : SessionInv n s.world)
    (hstep : sessionStep debugMode e s = .ok s') (hcall : (h, m) ∈ s.calls debugMode e)
    (hrun : (m.hart h).running) (hno : ¬knownOpcode (fetched m h)) :
    ReportsSignal 4 h s s' ↔ s.Reportable debugMode e h m := by
  rcases List.mem_append.mp hcall with hown | hworker
  · have hexec := Option.mem_toList.mp hown
    rw [reportsSignal_of_executed hinv hexec hstep hrun hno, Session.Reportable]
    exact (and_iff_right hexec).symm
  · obtain ⟨hnot, hne⟩ := not_reportsSignal_of_workerTurns hn hinv hstep hworker 4
    exact iff_of_false hnot fun hreportable => hne hreportable.1

/-- The target runs in a step that calls `rv32_cpu_step`. -/
theorem running_of_mem_calls {debugMode : Bool} {e : Event} {s : Session} {turn : Nat × Machine}
    (hcall : turn ∈ s.calls debugMode e) : s.Running := by
  by_contra hnot
  have hnone : s.executed debugMode e = none := by
    rw [Session.executed, Session.begunTurn]
    unfold Session.Running at hnot
    cases hphase : s.phase <;> simp_all
  rw [Session.calls, Session.workerTurns, hnone] at hcall
  exact absurd hcall List.not_mem_nil

theorem stopsIfIllegal_of_sessionRun {debugMode : Bool} {n : Nat} {packets : List (List Byte)}
    {e : Event} {s s' : Session} {h : Nat} {m : Machine} (hn : validHartCount n)
    (hsession : SessionRun debugMode n packets s) (hstep : sessionStep debugMode e s = .ok s')
    (hcall : (h, m) ∈ s.calls debugMode e) (hrun : (m.hart h).running) :
    StopsIfIllegal h m s s' ↔ DecodedRight (fetched m h) ∧
      (¬IsEncoding (fetched m h) → s.Reportable debugMode e h m) := by
  have hinv := sessionInv_of_sessionRun hn hsession (running_of_mem_calls hcall).2
  have h8 : n ≤ 8 := by
    simp [validHartCount] at hn
    omega
  have hstop := stopsAsIllegal_iff s.world.stub.connected hrun
  have hrunning := running_rv32CpuStep s.world.stub.connected hrun
  have hreport := reportsSignal_iff h8 hinv hstep hcall hrun
  rw [StopsIfIllegal, DecodedRight, hstop, hrunning]
  by_cases hvalid : IsEncoding (fetched m h)
  · -- a valid word has nothing to report
    rw [← knownOpcode_of_isEncoding hvalid]
    by_cases hopcode : knownOpcode (fetched m h)
    · simp [hvalid, hopcode]
    · simp [hvalid, hopcode]
  · by_cases hopcode : knownOpcode (fetched m h)
    · simp [hvalid, hopcode]
    · simp [hvalid, hopcode, hreport hopcode]

/-- A running hart, in any machine, stops at exactly the illegal words if and only if the decoder
gets its word right.  In a session, with the report, this holds of a call if and only if the decoder
gets the word right and an illegal word can be reported. -/
theorem stopsIfIllegal_iff (connected : Bool) {m : Machine} {h : Nat}
    (hrun : (m.hart h).running) :
    ((StopsAsIllegal h m (rv32CpuStep connected m h) ↔ ¬IsEncoding (fetched m h)) ↔
      DecodedRight (fetched m h)) ∧
    ∀ {debugMode : Bool} {n : Nat} {packets : List (List Byte)} {e : Event} {s s' : Session},
      validHartCount n → SessionRun debugMode n packets s →
      sessionStep debugMode e s = .ok s' → (h, m) ∈ s.calls debugMode e →
      (StopsIfIllegal h m s s' ↔ DecodedRight (fetched m h) ∧
        (¬IsEncoding (fetched m h) → s.Reportable debugMode e h m)) := by
  refine ⟨stopsAsIllegal_iff_not_isEncoding_iff hrun, ?_⟩
  intro debugMode n packets e s s' hn hsession hstep hcall
  exact stopsIfIllegal_of_sessionRun hn hsession hstep hcall hrun

/-- The session after some packets, one handled in each step. -/
def packetSession (n : Nat) (packets : List (List Byte)) : Session :=
  (loadedSession n (packets.flatMap frame)).after false (packets.map fun _ => .quiet)

theorem sessionRun_packetSession {n : Nat} {packets : List (List Byte)}
    (hsteps : (loadedSession n (packets.flatMap frame)).steps false
      (packets.map fun _ => .quiet)) :
    ∃ handled, SessionRun false n handled (packetSession n packets) :=
  (sessionRun_loadedSession false n _).after hsteps

/-- Two harts, the word `0` at the start of the program, and a step. -/
def zeroSession : Session := packetSession 2 [ascii "M80000000,4:00000000", ascii "s"]

theorem stopsIfIllegal_zeroSession :
    ∃ turn ∈ zeroSession.calls false .quiet, fetched turn.2 turn.1 = 0 ∧
      StopsIfIllegal turn.1 turn.2 zeroSession (zeroSession.next false .quiet) := by
  have hexec : ((zeroSession.executed false .quiet).map fun turn => (fetched turn.2 turn.1,
      (turn.2.hart turn.1).running, (turn.2.hart turn.1).halted,
      (accessHit true turn.2.dbg .load (turn.2.hart turn.1).pc 4).isSome)) =
        some (0, true, false, false) := by
    decide +kernel
  obtain ⟨turn, hturn, hfacts⟩ := Option.map_eq_some_iff.mp hexec
  simp only [Prod.mk.injEq] at hfacts
  obtain ⟨hword, hrun, hhalted, hhit⟩ := hfacts
  have hcall : turn ∈ zeroSession.calls false .quiet :=
    List.mem_append_left _ (Option.mem_toList.mpr hturn)
  obtain ⟨packets, hsession⟩ : ∃ packets, SessionRun false 2 packets zeroSession :=
    sessionRun_packetSession (by decide +kernel)
  refine ⟨turn, hcall, hword, ?_⟩
  refine ((stopsIfIllegal_iff true hrun).2 (by decide) hsession
    (sessionStep_next (by decide +kernel)) hcall).mpr ⟨?_, fun _ => ⟨hturn, ?_, ?_⟩⟩
  · rw [hword]
    decide +kernel
  · rw [hhalted]
    decide
  · rw [← isSome_accessHit_iff (by decide), hhit]
    decide

/-- A running hart that executes the word `w` in the next step, against the claim. -/
def Session.Misjudges (s : Session) (w : Word) : Prop :=
  ∃ turn ∈ s.calls false .quiet, (turn.2.hart turn.1).running ∧ fetched turn.2 turn.1 = w ∧
    ¬StopsIfIllegal turn.1 turn.2 s (s.next false .quiet)

theorem misjudges_of_not {n : Nat} {handled : List (List Byte)} {s : Session} {w : Word}
    {turn : Nat × Machine} (hn : validHartCount n) (hsession : SessionRun false n handled s)
    (hok : (sessionStep false .quiet s).isOk) (hcall : turn ∈ s.calls false .quiet)
    (hfacts : fetched turn.2 turn.1 = w ∧ (turn.2.hart turn.1).running)
    (hnot : DecodedRight w → ¬IsEncoding w ∧ ¬s.Reportable false .quiet turn.1 turn.2) :
    s.Misjudges w := by
  obtain ⟨hfetched, hrun⟩ := hfacts
  refine ⟨turn, hcall, hrun, hfetched, fun hstops => ?_⟩
  obtain ⟨hright, hreportable⟩ :=
    (stopsIfIllegal_of_sessionRun hn hsession (sessionStep_next hok) hcall hrun).mp hstops
  rw [hfetched] at hright hreportable
  obtain ⟨hillegal, hno⟩ := hnot hright
  exact hno (hreportable hillegal)

/-- A word that the decoder gets wrong, in a hart's own turn. -/
theorem misjudges_of_executed {n : Nat} {packets : List (List Byte)} {w : Word}
    (hn : validHartCount n)
    (hsteps : (loadedSession n (packets.flatMap frame)).steps false
      (packets.map fun _ => .quiet))
    (hok : (sessionStep false .quiet (packetSession n packets)).isOk) (hword : ¬DecodedRight w)
    (hexec : (((packetSession n packets).executed false .quiet).map fun turn =>
      (fetched turn.2 turn.1, (turn.2.hart turn.1).running)) = some (w, true)) :
    (packetSession n packets).Misjudges w := by
  obtain ⟨handled, hsession⟩ := sessionRun_packetSession hsteps
  obtain ⟨turn, hturn, hfacts⟩ := Option.map_eq_some_iff.mp hexec
  exact misjudges_of_not hn hsession hok (List.mem_append_left _ (Option.mem_toList.mpr hturn))
    (Prod.mk.inj hfacts) fun hright => absurd hright hword

/-- One hart and a step: of `FENCE`, of `MUL`, which is not in the base set, and of the illegal word
`0` with a read watchpoint on it; two harts, hart `0` at its loop store, the word `0` where the
worker waits, and a step. -/
theorem not_stopsIfIllegal_packetSession :
    IsEncoding 0x0FF0000F ∧
    (packetSession 1 [ascii "M80000000,4:0f00f00f", ascii "s"]).Misjudges 0x0FF0000F ∧
    ¬IsEncoding 0x02208033 ∧
    (packetSession 1 [ascii "M80000000,4:33802002", ascii "s"]).Misjudges 0x02208033 ∧
    ¬IsEncoding 0 ∧
    (packetSession 1 [ascii "M80000000,4:00000000", ascii "Z3,80000000,4",
      ascii "s"]).Misjudges 0 ∧
    (packetSession 2 [ascii "M80000034,4:00000000", ascii "P20=14000080",
      ascii "s"]).Misjudges 0 := by
  have hzero : ¬IsEncoding 0 := by decide +kernel
  refine ⟨by decide +kernel, ?_, by decide +kernel, ?_, hzero, ?_, ?_⟩
  · exact misjudges_of_executed (by decide) (by decide +kernel) (by decide +kernel)
      (by decide +kernel) (by decide +kernel)
  · exact misjudges_of_executed (by decide) (by decide +kernel) (by decide +kernel)
      (by decide +kernel) (by decide +kernel)
  · set s := packetSession 1 [ascii "M80000000,4:00000000", ascii "Z3,80000000,4", ascii "s"]
    obtain ⟨handled, hsession⟩ : ∃ handled, SessionRun false 1 handled s :=
      sessionRun_packetSession (by decide +kernel)
    have hexec : ((s.executed false .quiet).map fun turn => ((fetched turn.2 turn.1,
        (turn.2.hart turn.1).running),
        (accessHit true turn.2.dbg .load (turn.2.hart turn.1).pc 4).isSome)) =
          some ((0, true), true) := by
      decide +kernel
    obtain ⟨turn, hturn, hfacts⟩ := Option.map_eq_some_iff.mp hexec
    obtain ⟨hfacts, hhit⟩ := Prod.mk.inj hfacts
    refine misjudges_of_not (by decide) hsession (by decide +kernel)
      (List.mem_append_left _ (Option.mem_toList.mpr hturn)) (Prod.mk.inj hfacts)
      fun _ => ⟨hzero, fun hreportable => hreportable.2.2 ?_⟩
    exact (isSome_accessHit_iff (by decide)).mp hhit
  · set s := packetSession 2 [ascii "M80000034,4:00000000", ascii "P20=14000080", ascii "s"]
    obtain ⟨handled, hsession⟩ : ∃ handled, SessionRun false 2 handled s :=
      sessionRun_packetSession (by decide +kernel)
    have hhead : ((s.workerTurns false .quiet).head?.map fun turn => (fetched turn.2 turn.1,
        (turn.2.hart turn.1).running)) = some (0, true) := by
      decide +kernel
    have hok : (sessionStep false .quiet s).isOk := by decide +kernel
    obtain ⟨turn, hturn, hfacts⟩ := Option.map_eq_some_iff.mp hhead
    have hworker := List.mem_of_mem_head? hturn
    have hinv : SessionInv 2 s.world :=
      sessionInv_of_sessionRun (by decide) hsession (by decide +kernel)
    refine misjudges_of_not (by decide) hsession hok (List.mem_append_right _ hworker)
      (Prod.mk.inj hfacts) fun _ => ⟨hzero, fun hreportable => ?_⟩
    exact (not_reportsSignal_of_workerTurns (by decide) hinv (sessionStep_next hok) hworker 4).2
      hreportable.1

end Rv32Gdb
