import Rv32Gdb.Equiv.Session

/-!
# Executing sessions

`Session.next` and `Session.after` run a session step by step.  The initial state is built from
many stores to RAM, each of which looks up whose RAM it is; in `loadedSession` they are applied to
the memory of hart `0`, so that the state evaluates, and `initSession_eq` says that it is the same.
-/

namespace Rv32Gdb

/-! ### The initial state -/

/-- A store of a word to the RAM, when hart `0` owns it. -/
def memWrite32 (memory : BitVec 16 → Byte) (addr value : Word) : BitVec 16 → Byte :=
  if inRam32 addr then
    let off := ramOffset addr
    Function.update (Function.update (Function.update (Function.update memory off
      (value.setWidth 8)) (off + 1) ((value >>> 8).setWidth 8)) (off + 2)
      ((value >>> 16).setWidth 8)) (off + 3) ((value >>> 24).setWidth 8)
  else memory

/-- The words that `smp_sync_ram_init` stores. -/
def syncWords (numHarts : Nat) : List (Word × Word) :=
  [(smpSyncBase + smpOffLock, 0), (smpSyncBase + smpOffWorkItem, 0),
    (smpSyncBase + smpOffWorkReady, 0), (smpSyncBase + smpOffSharedDone, 0),
    (smpSyncBase + smpOffNumHarts, BitVec.ofNat 32 numHarts)] ++
    (List.range rv32MaxHarts).map fun h => (ipiPending h, 0)

theorem Rv32System.updHart_updHart (s : Rv32System) (h : Nat) (f g : Rv32Cpu → Rv32Cpu) :
    (s.updHart h f).updHart h g = s.updHart h fun c => g (f c) := by
  simp only [Rv32System.updHart, Function.update_self, Function.update_idem]

/-- A store of a byte to the memory of a hart. -/
def Rv32Cpu.storeByte (off : BitVec 16) (b : Byte) (c : Rv32Cpu) : Rv32Cpu :=
  { c with memory := Function.update c.memory off b }

theorem setRam_of_none {s : Rv32System} (hown : (s.harts 0).sharedRam = none) (off : BitVec 16)
    (b : Byte) : s.setRam 0 off b = s.updHart 0 (Rv32Cpu.storeByte off b) := by
  rw [Rv32System.setRam, Rv32System.ramOwner, hown]
  rfl

theorem sharedRam_storeByte {s : Rv32System} (hown : (s.harts 0).sharedRam = none)
    (off : BitVec 16) (b : Byte) :
    ((s.updHart 0 (Rv32Cpu.storeByte off b)).harts 0).sharedRam = none := by
  rw [Rv32System.harts_updHart, if_pos rfl]
  exact hown

theorem ramWrite32_of_none {s : Rv32System} (hown : (s.harts 0).sharedRam = none)
    (addr value : Word) :
    ramWrite32 s addr value =
      s.updHart 0 fun c => { c with memory := memWrite32 c.memory addr value } := by
  unfold ramWrite32 memWrite32
  split_ifs
  · unfold Rv32System.ramStore
    simp only
    have h1 := sharedRam_storeByte hown (ramOffset addr) (value.setWidth 8)
    have h2 := sharedRam_storeByte h1 (ramOffset addr + 1) ((value >>> 8).setWidth 8)
    have h3 := sharedRam_storeByte h2 (ramOffset addr + 2) ((value >>> 16).setWidth 8)
    rw [setRam_of_none hown, setRam_of_none h1, setRam_of_none h2, setRam_of_none h3]
    simp only [Rv32System.updHart_updHart]
    rfl
  · simp [Rv32System.updHart]

theorem foldl_ramWrite32 {s : Rv32System} (hown : (s.harts 0).sharedRam = none)
    (words : List (Word × Word)) :
    words.foldl (fun s w => ramWrite32 s w.1 w.2) s = s.updHart 0 fun c =>
      { c with memory := words.foldl (fun memory w => memWrite32 memory w.1 w.2) c.memory } := by
  induction words generalizing s with
  | nil => simp [Rv32System.updHart]
  | cons w words ih =>
    have hown' : ((s.updHart 0 fun c =>
        { c with memory := memWrite32 c.memory w.1 w.2 }).harts 0).sharedRam = none := by
      rw [Rv32System.harts_updHart, if_pos rfl]
      exact hown
    rw [List.foldl_cons, ramWrite32_of_none hown, ih hown', Rv32System.updHart_updHart]
    rfl

theorem smpSyncRamInit_eq (s : Rv32System) :
    smpSyncRamInit s = (syncWords s.numHarts).foldl (fun s w => ramWrite32 s w.1 w.2) s := by
  simp only [smpSyncRamInit, syncWords, List.foldl_append, List.foldl_map, List.foldl_cons,
    List.foldl_nil]

/-- The RAM of hart `0` at the start. -/
def initMemory (numHarts : Nat) : BitVec 16 → Byte :=
  (syncWords numHarts).foldl (fun memory w => memWrite32 memory w.1 w.2)
    (memcpyWords (memcpyWords (fun _ => 0) 0 testProgram) 0x30 smpWorkerCode)

/-- The initial state with the stores carried out. -/
def loadedSystem (n : Nat) : Rv32System where
  harts k :=
    let c := if k = 0 then { initHart n 0 with memory := initMemory n } else initHart n k
    if k < n then if k > 0 then smpSyncInitWorkerHart c else c else c
  numHarts := n
  focusHart := 0
  stopHart := -1

theorem initSystem_eq (n : Nat) : initSystem n = loadedSystem n := by
  set s : Rv32System :=
    { harts := initHart n, numHarts := n, focusHart := 0, stopHart := -1 } with hs
  set load : Rv32Cpu → Rv32Cpu := fun c =>
    { c with memory := memcpyWords (memcpyWords c.memory 0 testProgram) 0x30 smpWorkerCode }
    with hload
  have hinit : initSystem n = (smpSyncRamInit (s.updHart 0 load)).forHarts fun h c =>
      if h > 0 then smpSyncInitWorkerHart c else c := by
    simp only [initSystem, createTestProgram, hs, hload]
  have hown : ((s.updHart 0 load).harts 0).sharedRam = none := by
    rw [Rv32System.harts_updHart, if_pos rfl]
    show (initHart n 0).sharedRam = none
    unfold initHart
    by_cases hn : 0 < n
    · rw [if_pos hn]
      rfl
    · rw [if_neg hn]
      rfl
  have hnum : (s.updHart 0 load).numHarts = n := rfl
  have hnum' : ∀ f, ((s.updHart 0 load).updHart 0 f).numHarts = n := fun _ => rfl
  rw [hinit, smpSyncRamInit_eq, foldl_ramWrite32 hown, Rv32System.forHarts_eq, hnum, hnum']
  have hmem : (initHart n 0).memory = fun _ => 0 := by
    unfold initHart
    split_ifs <;> rfl
  have hharts : ∀ k, (((s.updHart 0 load).updHart 0 fun c => { c with
      memory := (syncWords n).foldl (fun memory w => memWrite32 memory w.1 w.2) c.memory }).harts
        k) = if k = 0 then { initHart n 0 with memory := initMemory n } else initHart n k := by
    intro k
    rw [Rv32System.updHart_updHart, Rv32System.harts_updHart, initMemory, ← hmem]
  simp only [hharts]
  rfl

/-- The program when the client has connected, with the stores carried out. -/
def loadedSession (n : Nat) (input : List Byte) : Session where
  phase := .waiting
  world :=
    { dbg := DebugState.init .x32
      sim := { sys := loadedSystem n, interruptReceived := false, trace := [] }
      stub := gdbStubAccept GdbStub.init input }

theorem initSession_eq (n : Nat) (input : List Byte) :
    initSession n input = loadedSession n input := by
  rw [initSession, initSystem_eq, loadedSession]

theorem sessionRun_loadedSession (debugMode : Bool) (n : Nat) (input : List Byte) :
    SessionRun debugMode n [] (loadedSession n input) := initSession_eq n input ▸ .init input

/-! ### Executing sessions -/

/-- A step without a signal and without new input. -/
def Event.quiet : Event := ⟨false, false, 0⟩

/-- The session after a step, if the step does not get stuck. -/
def Session.next (debugMode : Bool) (s : Session) (e : Event) : Session :=
  match sessionStep debugMode e s with
  | .ok s' => s'
  | .error _ => s

/-- The session after some steps. -/
def Session.after (debugMode : Bool) (es : List Event) (s : Session) : Session :=
  es.foldl (Session.next debugMode) s

/-- Whether none of some steps gets stuck. -/
def Session.steps (debugMode : Bool) : List Event → Session → Bool
  | [], _ => true
  | e :: es, s => (sessionStep debugMode e s).isOk && (s.next debugMode e).steps debugMode es

theorem sessionStep_next {debugMode : Bool} {e : Event} {s : Session}
    (h : (sessionStep debugMode e s).isOk) :
    sessionStep debugMode e s = .ok (s.next debugMode e) := by
  unfold Session.next
  cases hstep : sessionStep debugMode e s with
  | error err =>
    rw [hstep] at h
    cases h
  | ok s' => rfl

theorem SessionFrom.after {debugMode : Bool} {es : List Event} {packets : List (List Byte)}
    {s₀ s : Session} (hrun : SessionFrom debugMode s₀ packets s) (hsteps : s.steps debugMode es) :
    ∃ packets, SessionFrom debugMode s₀ packets (s.after debugMode es) := by
  induction es generalizing packets s with
  | nil => exact ⟨packets, hrun⟩
  | cons e es ih =>
    simp only [Session.steps, Bool.and_eq_true] at hsteps
    exact ih (hrun.step e (sessionStep_next hsteps.1)) hsteps.2

theorem SessionRun.after {debugMode : Bool} {n : Nat} {es : List Event} {packets : List (List Byte)}
    {s : Session} (hrun : SessionRun debugMode n packets s) (hsteps : s.steps debugMode es) :
    ∃ packets, SessionRun debugMode n packets (s.after debugMode es) := by
  obtain ⟨packets', h⟩ := SessionFrom.refl.after hsteps
  exact ⟨_, hrun.trans h⟩

end Rv32Gdb
