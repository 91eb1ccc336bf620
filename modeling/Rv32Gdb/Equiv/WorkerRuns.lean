import Rv32Gdb.Equiv.Reachable
import Rv32Gdb.Equiv.WorkerJobs

/-!
# Runs of the demo

`SmpRun` says what the harts of the demo and the debugger do, in any order: hart `0` executes the loop
store, a worker executes an instruction, the debugger halts and resumes harts.  The workers are the
servers of a mailbox in every state of a run (`WorkersInv`).
-/

namespace Rv32Gdb

open Rv32i Mailbox

/-! ### Runs -/

/-- What happens next: hart `0` executes the loop store, the worker of a hart executes an
instruction, or the debugger halts some harts and resumes the others. -/
inductive SmpEvent
  | store (counter : Word)
  | worker (h : Nat)
  | debug (halted : Nat → Bool) (d : DebugState .x32)

/-- Who executes is running and not halted. -/
def SmpEvent.enabled (m : Machine) : SmpEvent → Bool
  | .store _ => (m.hart 0).running && !(m.hart 0).halted
  | .worker h =>
    decide (0 < h ∧ h < m.sys.numHarts) && (m.hart h).running && !(m.hart h).halted
  | .debug _ _ => true

/-- Whether hart `0` executes the loop store. -/
def SmpEvent.isStore : SmpEvent → Bool
  | .store _ => true
  | _ => false

/-- The effect of an event. -/
def smpStep (connected : Bool) (m : Machine) : SmpEvent → Machine
  | .store counter => smpSyncOnCounterStore connected m 0 counter
  | .worker h => rv32CpuStep connected m h
  | .debug halted d =>
    { m.updSys fun s => s.forHarts fun h c => { c with halted := halted h } with dbg := d }

/-- The runs from the start with `n` harts, each of whose steps is `allowed`. -/
inductive SmpRun (connected : Bool) (n : Nat) (allowed : Machine → SmpEvent → Prop) :
    List SmpEvent → Machine → Prop
  | init {m : Machine} (hsys : m.sys = initSystem n) : SmpRun connected n allowed [] m
  | step {events : List SmpEvent} {m : Machine} {e : SmpEvent}
    (hrun : SmpRun connected n allowed events m) (henabled : e.enabled m) (hallowed : allowed m e) :
    SmpRun connected n allowed (events ++ [e]) (smpStep connected m e)

/-! ### The workers are servers -/

theorem WorkerRel.congr {h : Nat} {w : Server Word} {s s' : Rv32i.State} (hrel : WorkerRel h w s)
    (hpc : s'.pc = s.pc) (hreg : ∀ r, s'.reg r = s.reg r) : WorkerRel h w s' where
  pc := hpc.trans hrel.pc
  base := (hreg 8).trans hrel.base
  hart := (hreg 4).trans hrel.hart
  word := (hreg 6).trans hrel.word
  count := (hreg 7).trans hrel.count
  item := (hreg 9).trans hrel.item
  total := (hreg 18).trans hrel.total
  scratch v hv := (hreg 5).trans (hrel.scratch v hv)
  index haddr := (hreg 28).trans (hrel.index haddr)

theorem HasWorkerCode.congr {s s' : Rv32i.State} (hcode : HasWorkerCode s)
    (hmem : ∀ a, ¬InSyncWords a → s'.mem a = s.mem a) : HasWorkerCode s' := by
  intro l
  rw [← hcode l]
  exact State.load_congr fun k hk => hmem _ (not_inSyncWords_pc l k hk)

/-- The harts from `1` on are the servers of the mailbox; the others are idle. -/
structure WorkersInv (n : Nat) (ms : Mailbox.State Word) (m : Machine) : Prop where
  sys : SystemInv n m.sys
  shared : SharedRel ms (archState m 0)
  code : HasWorkerCode (archState m 0)
  worker : ∀ h, 0 < h → h < n → WorkerRel h (ms.server h) (archState m h)
  others : ∀ h, h = 0 ∨ n ≤ h → ms.bell h = 0 ∧ (ms.server h).loc = .poll

/-- A hart with another memory has the same program counter and registers. -/
theorem OnlyMemory.archState_eq {m m' : Machine} {h : Nat}
    (honly : OnlyMemory (m.hart h) (m'.hart h)) :
    (archState m' h).pc = (archState m h).pc ∧
      ∀ r, (archState m' h).reg r = (archState m h).reg r := by
  obtain ⟨memory, hhart⟩ := honly
  constructor
  · show (m'.hart h).pc = (m.hart h).pc
    rw [hhart]
  · intro r
    show rv32CpuReadReg (m'.hart h) r.toNat = rv32CpuReadReg (m.hart h) r.toNat
    rw [hhart]
    rfl

/-- What is halted and what the debugger knows is nothing to the instruction set. -/
theorem archState_debug (connected : Bool) (m : Machine) (halted : Nat → Bool) (d : DebugState .x32)
    (h : Nat) : archState (smpStep connected m (.debug halted d)) h = archState m h := by
  have hhart : ∀ k, ∃ b, (smpStep connected m (.debug halted d)).hart k =
      { m.hart k with halted := b } := by
    intro k
    show ∃ b, (m.sys.forHarts fun h c => { c with halted := halted h }).harts k = _
    rw [Rv32System.forHarts_eq]
    show ∃ b, (if k < m.sys.numHarts then _ else m.sys.harts k) = _
    split_ifs
    · exact ⟨halted k, rfl⟩
    · exact ⟨(m.sys.harts k).halted, rfl⟩
  have howner : (smpStep connected m (.debug halted d)).sys.ramOwner h = m.sys.ramOwner h := by
    obtain ⟨b, hb⟩ := hhart h
    show ((smpStep connected m (.debug halted d)).hart h).sharedRam.getD h = _
    rw [hb]
    rfl
  have hram : (smpStep connected m (.debug halted d)).sys.ram h = m.sys.ram h := by
    obtain ⟨b, hb⟩ := hhart (m.sys.ramOwner h)
    funext off
    show ((smpStep connected m (.debug halted d)).hart
      ((smpStep connected m (.debug halted d)).sys.ramOwner h)).memory off = _
    rw [howner, hb]
    rfl
  have hmem : ramAt (smpStep connected m (.debug halted d)).sys h = ramAt m.sys h := by
    funext a
    rw [ramAt, ramAt, hram]
  obtain ⟨b, hb⟩ := hhart h
  rw [archState, archState, hmem, hb]
  rfl

namespace WorkersInv

variable {connected : Bool} {n : Nat} {ms : Mailbox.State Word} {m : Machine}

theorem ramOwner (hinv : WorkersInv n ms m) {h : Nat} (hh : h < n) :
    m.sys.ramOwner h = m.sys.ramOwner 0 := by
  rw [hinv.sys.ramOwner hh, hinv.sys.ramOwner (by omega)]

/-- One worker as in a job. -/
theorem workerInv (hinv : WorkersInv n ms m) {h : Nat} (hpos : 0 < h) (hlt : h < n) :
    WorkerInv h ms (archState m h) := by
  have hmem := mem_archState_congr (hinv.ramOwner hlt)
  refine ⟨hinv.code.congr fun a _ => by rw [hmem], hinv.shared.congr hmem, hinv.worker h hpos hlt⟩

/-- An instruction of a worker is a step of its server. -/
theorem rv32CpuStep (hn : n ≤ 8) (hinv : WorkersInv n ms m) {h : Nat} (hpos : 0 < h) (hlt : h < n)
    (hrun : (m.hart h).running) :
    WorkersInv n (ms.step workerTag h) (rv32CpuStep connected m h) := by
  obtain ⟨hworker, -, hframe⟩ :=
    (hinv.workerInv hpos hlt).rv32CpuStep connected (by omega) (hinv.ramOwner hlt) hrun
  have howner := hframe.ramOwner
  have hmem := mem_archState_congr (m := Rv32Gdb.rv32CpuStep connected m h) (h := 0) (k := h)
    (by rw [howner, howner, hinv.ramOwner hlt])
  refine ⟨hinv.sys.rv32CpuStep connected hlt, hworker.shared.congr hmem,
    hinv.code.congr hframe.mem, fun k hk hkn => ?_, fun k hk => ?_⟩
  · by_cases hkh : k = h
    · subst hkh
      exact hworker.worker
    · obtain ⟨hpc, hreg⟩ := (hframe.hart k hkh).archState_eq
      rw [State.server_step_of_ne hkh]
      exact (hinv.worker k hk hkn).congr hpc hreg
  · have hkh : k ≠ h := by omega
    rw [State.bell_step_of_ne hkh, State.server_step_of_ne hkh]
    exact hinv.others k hk

/-- The delivery of a work item posts it. -/
theorem smpDeliverIpi (hn : n ≤ 8) (hinv : WorkersInv n ms m) {w : Nat} (hpos : 0 < w) (hlt : w < n)
    (item : Word) : WorkersInv n (ms.post w item) (m.updSys fun s => smpDeliverIpi s w item) := by
  have hnum := hinv.sys.numHarts
  obtain ⟨hposted, hframe⟩ := smpDeliverIpi_spec hinv.shared hpos (by omega) (by omega) item
  refine ⟨hinv.sys.smpDeliverIpi _ _, hposted, hinv.code.congr (hframe 0).mem, fun k hk hkn => ?_,
    fun k hk => ?_⟩
  · obtain ⟨hpc, hreg⟩ := ((hframe (k + 1)).hart k (by omega)).archState_eq
    exact (hinv.worker k hk hkn).congr hpc hreg
  · have hkw : k ≠ w := by omega
    obtain ⟨hbell, hloc⟩ := hinv.others k hk
    exact ⟨(Function.update_of_ne hkw _ _).trans hbell, hloc⟩

section Invariant

variable {P : Mailbox.State Word → Prop}

/-- What the steps of the servers keep holds after the loop, wherever it ends. -/
theorem workerJobLoop (hn : n ≤ 8) (hinv : WorkersInv n ms m) {h : Nat} (hpos : 0 < h) (hlt : h < n)
    (hstep : ∀ ms, P ms → P (ms.step workerTag h)) (hP : P ms) (guard : Nat) :
    ∃ ms', WorkersInv n ms' (workerJobLoop connected h guard m) ∧ P ms' := by
  induction guard generalizing ms m with
  | zero => exact ⟨ms, hinv, hP⟩
  | succ guard ih =>
    rw [Rv32Gdb.workerJobLoop]
    by_cases hgo : ((m.hart h).running && !(m.hart h).halted) = true
    · rw [if_pos hgo]
      have hlog : WorkersInv n ms (m.log (.turn h (m.hart h).pc)) :=
        ⟨hinv.sys, hinv.shared, hinv.code, hinv.worker, hinv.others⟩
      have hnext : WorkersInv n _ (Rv32Gdb.rv32CpuStep connected _ h) :=
        hlog.rv32CpuStep hn hpos hlt ((Bool.and_eq_true _ _).mp hgo).1
      simp only
      split_ifs
      · exact ⟨_, hnext, hstep ms hP⟩
      · exact ih hnext (hstep ms hP)
    · rw [if_neg hgo]
      exact ⟨ms, hinv, hP⟩

/-- A loop store posts a job and runs the worker. -/
theorem smpSyncOnCounterStore (hn : n = 2 ∨ n = 4 ∨ n = 8) (hinv : WorkersInv n ms m)
    (counter : Word) (hstep : ∀ h < n, ∀ ms, P ms → P (ms.step workerTag h))
    (hP : P (ms.post (selectedWorker n counter) counter)) :
    ∃ ms', WorkersInv n ms' (smpSyncOnCounterStore connected m 0 counter) ∧ P ms' := by
  have hnum := hinv.sys.numHarts
  have hlt := selectedWorker_lt hn counter
  have hpos : 0 < selectedWorker n counter := Nat.succ_pos _
  have hposted := hinv.smpDeliverIpi (by omega) hpos hlt counter
  rw [smpSyncOnCounterStore_eq hn hnum]
  exact hposted.workerJobLoop (by omega) hpos hlt (hstep _ hlt) hP 128

end Invariant

/-- Halting and resuming is nothing to the servers. -/
theorem debug (hinv : WorkersInv n ms m) (halted : Nat → Bool) (d : DebugState .x32) :
    WorkersInv n ms (smpStep connected m (.debug halted d)) := by
  have harch : ∀ h, archState (smpStep connected m (.debug halted d)) h = archState m h :=
    archState_debug connected m halted d
  refine ⟨hinv.sys.forHarts fun h c hc => ⟨hc.hartId, hc.zero, hc.sharedRam⟩, ?_, ?_,
    fun h hpos hlt => ?_, hinv.others⟩
  · rw [harch]
    exact hinv.shared
  · rw [harch]
    exact hinv.code
  · rw [harch]
    exact hinv.worker h hpos hlt

/-- At the start every server polls an empty mailbox. -/
theorem init (hn : n = 2 ∨ n = 4 ∨ n = 8) (hsys : m.sys = initSystem n) :
    WorkersInv n State.start m := by
  have hinv : SystemInv n m.sys := hsys ▸ systemInv_initSystem (by omega)
  have hcode : CodeIntact m.sys := by
    rw [hsys, initSystem_eq]
    unfold CodeIntact
    rcases hn with rfl | rfl | rfl <;> decide +kernel
  have hword : ∀ k < 12, ramRead32 m.sys (syncWord k) = 0 := by
    rw [hsys, initSystem_eq]
    rcases hn with rfl | rfl | rfl <;> decide +kernel
  have hworker : ∀ h < n, 0 < h → (m.hart h).pc = smpWorkerPoll ∧
      (m.hart h).regs 8 = smpSyncBase ∧ (m.hart h).regs 4 = BitVec.ofNat 32 h ∧
      (m.hart h).regs 6 = 0 ∧ (m.hart h).regs 7 = 0 ∧ (m.hart h).regs 9 = 0 ∧
      (m.hart h).regs 18 = 0 := by
    have hhart : ∀ h, m.hart h = (loadedSystem n).harts h := by
      intro h
      rw [Target.hart, hsys, initSystem_eq]
    simp only [hhart]
    rcases hn with rfl | rfl | rfl <;> decide +kernel
  have hshared := sharedRel_mailboxOf m ⟨.poll, 0, 0, 0, 0, 0⟩
  refine ⟨hinv, ⟨hshared.mapped, fun k hk => ?_⟩, hcode.hasWorkerCode, fun h hpos hlt => ?_,
    fun _ _ => ⟨rfl, rfl⟩⟩
  · rw [← ramRead32_syncWord m hk, hword k hk]
    rcases k with _ | _ | _ | _ | k <;> rfl
  · obtain ⟨hpc, hbase, hhart, hitem, hcount, hlast, htotal⟩ := hworker h hlt hpos
    refine ⟨hpc, hbase, hhart, hitem, hcount, hlast, htotal, ?_, ?_⟩
    · intro v hv
      cases hv
    · intro haddr
      cases haddr

/-! What a machine shows of the mailbox. -/

theorem word (hinv : WorkersInv n ms m) {k : Nat} (hk : k < 12) :
    ramRead32 m.sys (syncWord k) = ms.word k := by
  rw [ramRead32_syncWord m hk, hinv.shared.load k hk]

theorem bell (hinv : WorkersInv n ms m) {h : Nat} (hh : h < 8) :
    ramRead32 m.sys (ipiPending h) = ms.bell h := by
  rw [ipiPending_eq]
  exact hinv.word (k := h + 4) (by omega)

theorem pc (hinv : WorkersInv n ms m) {h : Nat} (hpos : 0 < h) (hlt : h < n) :
    (m.hart h).pc = (ms.server h).loc.pc := (hinv.worker h hpos hlt).pc

end WorkersInv

/-- What posts and the steps of servers keep holds after every run; the posts are the loop
stores. -/
theorem SmpRun.workersInv {connected : Bool} {n : Nat} {allowed : Machine → SmpEvent → Prop}
    {events : List SmpEvent} {m : Machine} {P : Nat → Mailbox.State Word → Prop}
    (hn : n = 2 ∨ n = 4 ∨ n = 8) (hstart : P 0 State.start)
    (hstep : ∀ posts, ∀ h < n, ∀ ms, P posts ms → P posts (ms.step workerTag h))
    (hpost : ∀ posts ms m counter, WorkersInv n ms m → allowed m (.store counter) → P posts ms →
      P (posts + 1) (ms.post (selectedWorker n counter) counter))
    (hrun : SmpRun connected n allowed events m) :
    ∃ ms, WorkersInv n ms m ∧ P (events.countP SmpEvent.isStore) ms := by
  induction hrun with
  | init hsys => exact ⟨State.start, .init hn hsys, hstart⟩
  | @step events m e hrun henabled hallowed ih =>
    obtain ⟨ms, hinv, hP⟩ := ih
    rw [List.countP_append, List.countP_singleton]
    cases e with
    | store counter =>
      exact hinv.smpSyncOnCounterStore hn counter (hstep _) (hpost _ _ _ _ hinv hallowed hP)
    | worker h =>
      unfold SmpEvent.enabled at henabled
      rw [Bool.and_eq_true, Bool.and_eq_true, decide_eq_true_iff, hinv.sys.numHarts] at henabled
      obtain ⟨⟨⟨hpos, hlt⟩, hrunning⟩, -⟩ := henabled
      exact ⟨_, hinv.rv32CpuStep (by omega) hpos hlt hrunning, hstep _ h hlt ms hP⟩
    | debug halted d => exact ⟨ms, hinv.debug halted d, hP⟩

/-! ### Runs without watchpoints -/

/-- The mailbox of a machine without watchpoints, whose harts all run and are halted as in
`halted`. -/
structure Tracks (n : Nat) (ms : Mailbox.State Word) (halted : Nat → Bool) (m : Machine) : Prop
    extends WorkersInv n ms m where
  running : ∀ h < n, (m.hart h).running
  halted_eq : ∀ h < n, (m.hart h).halted = halted h
  watchpoints : m.dbg.watchpoints = (DebugState.init .x32).watchpoints

theorem noHit_of_watchpoints {connected : Bool} {m : Machine}
    (hnone : m.dbg.watchpoints = (DebugState.init .x32).watchpoints) (h : Nat) :
    NoHit connected m h := by
  have hmiss : ∀ kind addr size, accessHit connected m.dbg kind addr size = none := by
    intro kind addr size
    rw [accessHit, DebugState.watchpointFor, hnone]
    split_ifs <;> rfl
  exact ⟨hmiss _ _ _, fun _ _ _ _ => hmiss _ _ _⟩

/-- A run leads to the mailbox `ms`. -/
def Reaches (connected : Bool) (n : Nat) (allowed : Machine → SmpEvent → Prop)
    (events : List SmpEvent) (ms : Mailbox.State Word) (halted : Nat → Bool) : Prop :=
  ∃ m, SmpRun connected n allowed events m ∧ Tracks n ms halted m

namespace Reaches

variable {connected : Bool} {n : Nat} {allowed : Machine → SmpEvent → Prop}
  {events : List SmpEvent} {ms : Mailbox.State Word} {halted : Nat → Bool}

theorem start (connected : Bool) (hn : n = 2 ∨ n = 4 ∨ n = 8)
    (allowed : Machine → SmpEvent → Prop) :
    Reaches connected n allowed [] State.start fun _ => false := by
  set m : Machine := (loadedSession n []).world.toTarget
  have hsys : m.sys = initSystem n := (initSystem_eq n).symm
  refine ⟨m, .init hsys, .init hn hsys, ?_, ?_, rfl⟩
  · show ∀ h < n, ((loadedSystem n).harts h).running
    rcases hn with rfl | rfl | rfl <;> decide +kernel
  · show ∀ h < n, ((loadedSystem n).harts h).halted = false
    rcases hn with rfl | rfl | rfl <;> decide +kernel

/-- The debugger halts the harts of `halted'`. -/
theorem debug (hallowed : ∀ m halted d, allowed m (.debug halted d))
    (hreach : Reaches connected n allowed events ms halted) (halted' : Nat → Bool) :
    Reaches connected n allowed (events ++ [.debug halted' (.init .x32)]) ms halted' := by
  obtain ⟨m, hrun, htrack⟩ := hreach
  have hnum := htrack.sys.numHarts
  have hhart : ∀ h < n, (smpStep connected m (.debug halted' (.init .x32))).hart h =
      { m.hart h with halted := halted' h } := by
    intro h hh
    show (m.sys.forHarts fun h c => { c with halted := halted' h }).harts h = _
    rw [Rv32System.forHarts_eq]
    exact if_pos (by omega)
  refine ⟨_, hrun.step rfl (hallowed _ _ _), htrack.toWorkersInv.debug _ _, ?_, ?_, rfl⟩
  · intro h hh
    rw [hhart h hh]
    exact htrack.running h hh
  · intro h hh
    rw [hhart h hh]

/-- A worker that is not halted executes `k` instructions. -/
theorem worker (hn : n ≤ 8) (hallowed : ∀ m h, allowed m (.worker h))
    (hreach : Reaches connected n allowed events ms halted) {h : Nat} (hpos : 0 < h) (hlt : h < n)
    (hgo : halted h = false) (k : Nat) :
    Reaches connected n allowed (events ++ List.replicate k (.worker h))
      ((State.step workerTag h)^[k] ms) halted := by
  induction k generalizing events ms with
  | zero =>
    rw [List.replicate_zero, List.append_nil]
    exact hreach
  | succ k ih =>
    obtain ⟨m, hrun, htrack⟩ := hreach
    have hrunning := htrack.running h hlt
    have hhalted : (m.hart h).halted = false := (htrack.halted_eq h hlt).trans hgo
    have henabled : SmpEvent.enabled m (.worker h) := by
      show (decide (0 < h ∧ h < m.sys.numHarts) && (m.hart h).running && !(m.hart h).halted) = true
      rw [hrunning, hhalted, decide_eq_true ⟨hpos, htrack.sys.numHarts.symm ▸ hlt⟩]
      rfl
    have hno : NoHit connected m h := noHit_of_watchpoints htrack.watchpoints h
    obtain ⟨-, hrunning', hframe⟩ :=
      (htrack.workerInv hpos hlt).rv32CpuStep connected (by omega) (htrack.ramOwner hlt) hrunning
    -- the worker code contains no EBREAK
    have hop : fetched m h &&& 0x7F ≠ 0x73 := by
      rw [fetched_of_fetch (htrack.workerInv hpos hlt).fetch]
      exact (opcode_instr _).2
    have htrack' : Tracks n (ms.step workerTag h) halted (rv32CpuStep connected m h) := by
      refine ⟨htrack.toWorkersInv.rv32CpuStep hn hpos hlt hrunning, ?_, ?_, ?_⟩
      · intro j hj
        by_cases hjh : j = h
        · rw [hjh, hrunning']
        · obtain ⟨memory, hmemory⟩ := hframe.hart j hjh
          rw [hmemory]
          exact htrack.running j hj
      · intro j hj
        by_cases hjh : j = h
        · rw [hjh, halted_rv32CpuStep hrunning hno hop, hhalted, hgo]
        · obtain ⟨memory, hmemory⟩ := hframe.hart j hjh
          rw [hmemory]
          exact htrack.halted_eq j hj
      · rw [(execFrame_rv32CpuStep connected m h).dbg]
        exact htrack.watchpoints
    have hnext := ih ⟨_, hrun.step henabled (hallowed m h), htrack'⟩
    rw [List.append_assoc, List.singleton_append, ← List.replicate_succ] at hnext
    rw [Function.iterate_succ_apply]
    exact hnext

/-- Hart `0` posts a job to a worker that is halted. -/
theorem store (hn : n = 2 ∨ n = 4 ∨ n = 8) (counter : Word)
    (hallowed : ∀ m, WorkersInv n ms m → allowed m (.store counter))
    (hreach : Reaches connected n allowed events ms halted) (hgo : halted 0 = false)
    (hhalted : halted (selectedWorker n counter) = true) :
    Reaches connected n allowed (events ++ [.store counter])
      (ms.post (selectedWorker n counter) counter) halted := by
  obtain ⟨m, hrun, htrack⟩ := hreach
  have hnum := htrack.sys.numHarts
  have hlt := selectedWorker_lt hn counter
  have hpos : 0 < selectedWorker n counter := Nat.succ_pos _
  have henabled : SmpEvent.enabled m (.store counter) := by
    show ((m.hart 0).running && !(m.hart 0).halted) = true
    rw [htrack.running 0 (by omega), htrack.halted_eq 0 (by omega), hgo]
    rfl
  obtain ⟨-, hframe⟩ := smpDeliverIpi_spec htrack.shared hpos (by omega) (by omega) counter
  have hdelivered := htrack.toWorkersInv.smpDeliverIpi (by omega) hpos hlt counter
  set m' := m.updSys fun s => smpDeliverIpi s (selectedWorker n counter) counter
  have hhart : ∀ h, (m'.hart h).running = (m.hart h).running ∧
      (m'.hart h).halted = (m.hart h).halted := by
    intro h
    obtain ⟨memory, hmemory⟩ := (hframe (h + 1)).hart h (by omega)
    rw [hmemory]
    exact ⟨rfl, rfl⟩
  -- the worker does not run
  have hstep : smpStep connected m (.store counter) = m' := by
    show smpSyncOnCounterStore connected m 0 counter = m'
    rw [smpSyncOnCounterStore_eq hn hnum, workerJobLoop, (hhart _).2, htrack.halted_eq _ hlt,
      hhalted, Bool.not_true, Bool.and_false]
    rfl
  refine ⟨_, hrun.step henabled (hallowed m htrack.toWorkersInv), ?_⟩
  rw [hstep]
  refine ⟨hdelivered, fun h hh => ?_, fun h hh => ?_, htrack.watchpoints⟩
  · rw [(hhart h).1]
    exact htrack.running h hh
  · rw [(hhart h).2]
    exact htrack.halted_eq h hh

end Reaches

instance : NeZero (1 : Word) := ⟨by decide⟩

/-! ### The lock -/

/-- The worker is past the lock store and not past the release store. -/
def InCritical (m : Machine) (h : Nat) : Prop :=
  0x80000064 ≤ (m.hart h).pc ∧ (m.hart h).pc ≤ 0x80000088

/-- The worker has an IPI pending, or has taken one and not yet the lock. -/
def ContendsForLock (m : Machine) (h : Nat) : Prop :=
  ramRead32 m.sys (ipiPending h) ≠ 0 ∨ (m.hart h).pc = 0x8000004c ∨
    0x80000054 ≤ (m.hart h).pc ∧ (m.hart h).pc ≤ 0x80000060

/-- A loop store finds that no worker but its target contends for the lock. -/
def PostsAlone (m : Machine) : SmpEvent → Prop
  | .store counter => ∀ h < m.sys.numHarts, 0 < h → (h : Int) ≠ smpWorkerTarget m.sys counter →
      ¬ContendsForLock m h
  | _ => True

theorem inSection_iff (l : Loc) : l.inSection ↔ 0x80000064 ≤ l.pc ∧ l.pc ≤ 0x80000088 := by
  cases l <;> decide

theorem inWindow_iff (l : Loc) :
    l.inWindow ↔ l.pc = 0x8000004c ∨ 0x80000054 ≤ l.pc ∧ l.pc ≤ 0x80000060 := by
  cases l <;> decide

section Lock

variable {connected : Bool} {n : Nat} {ms : Mailbox.State Word} {m : Machine} {events : List SmpEvent}

theorem WorkersInv.contends_iff (hn : n ≤ 8) (hinv : WorkersInv n ms m) {h : Nat} (hpos : 0 < h)
    (hlt : h < n) : ms.Contends h ↔ ContendsForLock m h := by
  rw [State.Contends, ContendsForLock, hinv.bell (by omega), hinv.pc hpos hlt, inWindow_iff]

theorem WorkersInv.inCritical_iff (hinv : WorkersInv n ms m) {h : Nat} (hpos : 0 < h) (hlt : h < n) :
    InCritical m h ↔ (ms.server h).loc.inSection := by
  rw [InCritical, hinv.pc hpos hlt, inSection_iff]

/-- At most one worker is in the critical section, as long as jobs are posted when no other worker
contends for the lock. -/
theorem eq_of_inCritical (hn : n = 2 ∨ n = 4 ∨ n = 8)
    (hrun : SmpRun connected n PostsAlone events m) {h k : Nat} (hh : 0 < h ∧ h < n)
    (hk : 0 < k ∧ k < n) (hh' : InCritical m h) (hk' : InCritical m k) : h = k := by
  have hpost : ∀ (posts : Nat) ms m counter, WorkersInv n ms m → PostsAlone m (.store counter) →
      Exclusive workerTag ms → Exclusive workerTag (ms.post (selectedWorker n counter) counter) := by
    intro _ ms m counter hinv halone hs
    refine hs.post (fun k hk => ?_) counter
    by_cases hk' : k = 0 ∨ n ≤ k
    · obtain ⟨hbell, hloc⟩ := hinv.others k hk'
      rintro (hring | hwin)
      · exact hring hbell
      · rw [hloc] at hwin
        cases hwin
    · rw [hinv.contends_iff (by omega) (by omega) (by omega)]
      refine halone k (by rw [hinv.sys.numHarts]; omega) (by omega) ?_
      rw [smpWorkerTarget_eq hn hinv.sys.numHarts]
      exact_mod_cast hk
  obtain ⟨ms, hinv, hs⟩ := hrun.workersInv (P := fun _ => Exclusive workerTag) hn
    (Exclusive.start _) (fun _ h hh ms hs => hs.step (workerTag_ne_zero (by omega))) hpost
  exact hs.inSection h k ((hinv.inCritical_iff hh.1 hh.2).mp hh')
    ((hinv.inCritical_iff hk.1 hk.2).mp hk')

end Lock

/-- A worker past the lock has the critical section for itself. -/
theorem eq_of_inCritical_posted : ∃ m, SmpRun true 4 PostsAlone
    ([.debug (fun h => decide (0 < h)) (.init .x32)] ++ [.store 0] ++
      [.debug (fun _ => false) (.init .x32)] ++ List.replicate 11 (.worker 1)) m ∧
    InCritical m 1 ∧ ∀ k, 0 < k ∧ k < 4 → InCritical m k → 1 = k := by
  have hn : 4 = 2 ∨ 4 = 4 ∨ 4 = 8 := by decide
  have halone : ∀ m, WorkersInv 4 State.start m → PostsAlone m (.store 0) := by
    intro m hinv h hlt hpos _
    rw [hinv.sys.numHarts] at hlt
    rw [← hinv.contends_iff (by decide) hpos hlt]
    exact State.not_contends_start h
  have hhalted := (Reaches.start true hn PostsAlone).debug (fun _ _ _ => trivial) fun h =>
    decide (0 < h)
  have hresumed := (hhalted.store hn 0 halone rfl rfl).debug (fun _ _ _ => trivial) fun _ => false
  obtain ⟨m, hrun, htrack⟩ := hresumed.worker (h := 1) (by decide) (fun _ _ => trivial) (by decide)
    (by decide) rfl 11
  have hin : InCritical m 1 := by
    rw [htrack.inCritical_iff (by decide) (by decide)]
    decide +kernel
  exact ⟨m, hrun, hin, fun k hk hk' => eq_of_inCritical hn hrun (by decide) hk hin hk'⟩

/-- Halted workers that are sent two jobs and resumed take the lock together. -/
theorem two_inCritical : ∃ m, SmpRun true 4 (fun _ _ => True)
    ([.debug (fun h => decide (0 < h)) (.init .x32)] ++ [.store 0] ++ [.store 1] ++
      [.debug (fun _ => false) (.init .x32)] ++ List.replicate 8 (.worker 1) ++
      List.replicate 8 (.worker 2) ++ List.replicate 3 (.worker 1) ++ List.replicate 3 (.worker 2))
    m ∧ InCritical m 1 ∧ InCritical m 2 := by
  have hn : 4 = 2 ∨ 4 = 4 ∨ 4 = 8 := by decide
  have hstart := Reaches.start true hn fun _ _ => True
  have hhalted := hstart.debug (fun _ _ _ => trivial) fun h => decide (0 < h)
  have hposted := (hhalted.store hn 0 (fun _ _ => trivial) rfl rfl).store hn 1 (fun _ _ => trivial)
    rfl rfl
  have hresumed := hposted.debug (fun _ _ _ => trivial) fun _ => false
  have hworker : ∀ (_ : Machine) (_ : Nat), True := fun _ _ => trivial
  have hsaw := (hresumed.worker (h := 1) (by decide) hworker (by decide) (by decide) rfl 8).worker
    (h := 2) (by decide) hworker (by decide) (by decide) rfl 8
  obtain ⟨m, hrun, htrack⟩ :=
    (hsaw.worker (h := 1) (by decide) hworker (by decide) (by decide) rfl 3).worker (h := 2)
      (by decide) hworker (by decide) (by decide) rfl 3
  refine ⟨m, hrun, ?_, ?_⟩
  · rw [htrack.inCritical_iff (by decide) (by decide)]
    decide +kernel
  · rw [htrack.inCritical_iff (by decide) (by decide)]
    decide +kernel


/-! ### The jobs -/

/-- The worker is inside the handler. -/
def InHandler (m : Machine) (h : Nat) : Prop :=
  smpWorkerHandle ≤ (m.hart h).pc ∧ (m.hart h).pc < smpWorkerEnd

/-- No IPI is pending, and no worker is inside the handler. -/
def Quiet (m : Machine) : Prop :=
  ∀ h < m.sys.numHarts, 0 < h → ramRead32 m.sys (ipiPending h) = 0 ∧ ¬InHandler m h

/-- A loop store finds that the work item of the last one has been taken. -/
def FindsFlagClear (m : Machine) : SmpEvent → Prop
  | .store _ => ramRead32 m.sys (smpSyncBase + smpOffWorkReady) = 0
  | _ => True

/-- The call of the handler is not part of the handler. -/
theorem not_inHandler {l : Loc} (hout : ¬(smpWorkerHandle ≤ l.pc ∧ l.pc < smpWorkerEnd)) :
    ¬l.inFlight ∧ (l.unconsumed ↔ l.pc = 0x8000004c) := by
  revert hout
  cases l <;> decide

section Jobs

variable {connected : Bool} {n : Nat} {ms : Mailbox.State Word} {m : Machine} {events : List SmpEvent}

theorem WorkersInv.quiet_iff (hn : n ≤ 8) (hinv : WorkersInv n ms m) : Quiet m ↔
    ∀ h < n, 0 < h → ms.bell h = 0 ∧
      ¬(smpWorkerHandle ≤ (ms.server h).loc.pc ∧ (ms.server h).loc.pc < smpWorkerEnd) := by
  rw [Quiet, hinv.sys.numHarts]
  refine forall_congr' fun h => forall_congr' fun hlt => forall_congr' fun hpos => ?_
  rw [hinv.bell (by omega), InHandler, hinv.pc hpos hlt]

/-- Quiet workers have no job in progress, and one to do only at the call of the handler. -/
theorem WorkersInv.quiet (hn : n ≤ 8) (hinv : WorkersInv n ms m) (hquiet : Quiet m) :
    (∀ h, ¬(ms.server h).loc.inFlight) ∧
      ∀ h, ms.Owns h ↔ (0 < h ∧ h < n) ∧ (m.hart h).pc = 0x8000004c := by
  have hworker : ∀ h, 0 < h → h < n → ms.bell h = 0 ∧ ¬(ms.server h).loc.inFlight ∧
      ((ms.server h).loc.unconsumed ↔ (m.hart h).pc = 0x8000004c) := by
    intro h hpos hlt
    obtain ⟨hbell, hout⟩ := (hinv.quiet_iff hn).mp hquiet h hlt hpos
    rw [hinv.pc hpos hlt]
    exact ⟨hbell, not_inHandler hout⟩
  constructor
  · intro h
    by_cases hh : h = 0 ∨ n ≤ h
    · rw [(hinv.others h hh).2]
      decide
    · exact (hworker h (by omega) (by omega)).2.1
  · intro h
    unfold State.Owns
    by_cases hh : h = 0 ∨ n ≤ h
    · obtain ⟨hbell, hloc⟩ := hinv.others h hh
      rw [hbell, hloc]
      refine iff_of_false ?_ fun hcall => by omega
      rintro (hring | hun)
      · exact hring rfl
      · cases hun
    · obtain ⟨hbell, -, hcall⟩ := hworker h (by omega) (by omega)
      rw [hbell, hcall]
      constructor
      · rintro (hring | hpc)
        · exact absurd rfl hring
        · exact ⟨by omega, hpc⟩
      · exact fun hpc => Or.inr hpc.2

/-- No job is lost or done twice, as long as jobs are posted when the last one has been taken: when
all is quiet the jobs are counted, unless a worker has taken its IPI and not yet called the
handler. -/
theorem sharedDone_eq_iff (hn : n = 2 ∨ n = 4 ∨ n = 8)
    (hrun : SmpRun connected n FindsFlagClear events m) (hquiet : Quiet m) :
    ramRead32 m.sys (smpSyncBase + smpOffSharedDone) =
        BitVec.ofNat 32 (events.countP SmpEvent.isStore) ↔
      ∀ h, 0 < h → h < n → (m.hart h).pc ≠ 0x8000004c := by
  obtain ⟨ms, hinv, hs⟩ := hrun.workersInv (P := Counted workerTag) hn (Counted.start _)
    (fun _ h hh ms hs => hs.step (workerTag_ne_zero (by omega)))
    (fun _ ms m counter hinv hclear hs =>
      hs.post ((hinv.word (k := 2) (by decide)).symm.trans hclear) _ counter)
  obtain ⟨hfly, hown⟩ := hinv.quiet (by omega) hquiet
  have hdone : ramRead32 m.sys (smpSyncBase + smpOffSharedDone) = ms.done :=
    hinv.word (k := 3) (by decide)
  have hposts : BitVec.ofNat 32 (events.countP SmpEvent.isStore) = ms.done + ms.pending :=
    hs.posts_of_not_inFlight hfly
  have hpending : ms.pending = 0 ↔ ∀ h, ¬ms.Owns h := by
    rw [← not_exists, ← hs.ready_iff, not_not, State.pending]
    split_ifs with hready
    · exact iff_of_true rfl hready
    · exact iff_of_false one_ne_zero hready
  rw [hdone, hposts, left_eq_add, hpending]
  constructor
  · intro hnone h hpos hlt hpc
    exact hnone h ((hown h).mpr ⟨⟨hpos, hlt⟩, hpc⟩)
  · intro hnone h hown'
    obtain ⟨⟨hpos, hlt⟩, hpc⟩ := (hown h).mp hown'
    exact hnone h hpos hlt hpc

end Jobs

/-- A job that is posted, taken and counted. -/
theorem sharedDone_eq_iff_posted : ∃ m, SmpRun true 2 FindsFlagClear
    ([.debug (fun h => decide (0 < h)) (.init .x32)] ++ [.store 7] ++
      [.debug (fun _ => false) (.init .x32)] ++ List.replicate 22 (.worker 1)) m ∧
    ramRead32 m.sys (smpSyncBase + smpOffSharedDone) = 1 := by
  have hn : 2 = 2 ∨ 2 = 4 ∨ 2 = 8 := by decide
  have hclear : ∀ m, WorkersInv 2 State.start m → FindsFlagClear m (.store 7) :=
    fun m hinv => hinv.word (k := 2) (by decide)
  have hhalted := (Reaches.start true hn FindsFlagClear).debug (fun _ _ _ => trivial) fun h =>
    decide (0 < h)
  have hresumed := (hhalted.store hn 7 hclear rfl rfl).debug (fun _ _ _ => trivial) fun _ => false
  obtain ⟨m, hrun, htrack⟩ := hresumed.worker (h := 1) (by decide) (fun _ _ => trivial) (by decide)
    (by decide) rfl 22
  have hquiet : Quiet m := by
    rw [htrack.quiet_iff (by decide)]
    decide +kernel
  refine ⟨m, hrun, (sharedDone_eq_iff hn hrun hquiet).mpr fun h hpos hlt => ?_⟩
  obtain rfl : h = 1 := by omega
  rw [htrack.pc (by decide) (by decide)]
  decide +kernel

/-- Of two jobs that a halted worker is sent, one is lost. -/
theorem sharedDone_ne_stores : ∃ events m, SmpRun true 2 (fun _ _ => True) events m ∧ Quiet m ∧
    ramRead32 m.sys (smpSyncBase + smpOffSharedDone) = 1 ∧
    events.countP SmpEvent.isStore = 2 := by
  have hn : 2 = 2 ∨ 2 = 4 ∨ 2 = 8 := by decide
  have hhalted := (Reaches.start true hn fun _ _ => True).debug (fun _ _ _ => trivial) fun h =>
    decide (0 < h)
  have hposted := (hhalted.store hn 0 (fun _ _ => trivial) rfl rfl).store hn 1 (fun _ _ => trivial)
    rfl rfl
  have hresumed := hposted.debug (fun _ _ _ => trivial) fun _ => false
  obtain ⟨m, hrun, htrack⟩ := hresumed.worker (h := 1) (by decide) (fun _ _ => trivial) (by decide)
    (by decide) rfl 22
  refine ⟨_, m, hrun, ?_, ?_, rfl⟩
  · rw [htrack.quiet_iff (by decide)]
    decide +kernel
  · refine (htrack.word (k := 3) (by decide)).trans ?_
    decide +kernel

end Rv32Gdb
