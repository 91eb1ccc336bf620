import Rv32Gdb.Equiv.Reachable
import Rv32Gdb.Equiv.TablePackets

/-!
# Resetting the target

`Restored n w`: harts, sync region, selection of harts and threads, tables and flags are as right
after the start of the program with `n` harts.  `R` does all this but for the address of a
watchpoint that was hit and not yet reported, and for the bytes of the sync region that no sync word
covers: `restored_of_sessionRun_iff`.
-/

namespace Rv32Gdb

/-! ### The sync words -/

/-- A word stored at `addr` covers the offset `off`. -/
def Covers (addr : Word) (off : BitVec 16) : Prop :=
  inRam32 addr ∧ (off = ramOffset addr ∨ off = ramOffset addr + 1 ∨ off = ramOffset addr + 2 ∨
    off = ramOffset addr + 3)

instance (addr : Word) (off : BitVec 16) : Decidable (Covers addr off) :=
  inferInstanceAs (Decidable (_ ∧ _))

theorem memWrite32_of_not_covers {addr : Word} {off : BitVec 16} (h : ¬Covers addr off)
    (memory : BitVec 16 → Byte) (value : Word) : memWrite32 memory addr value off = memory off := by
  unfold memWrite32
  by_cases hin : inRam32 addr
  · unfold Covers at h
    rw [if_pos hin, Function.update_of_ne, Function.update_of_ne, Function.update_of_ne,
      Function.update_of_ne]
    all_goals tauto
  · rw [if_neg hin]

/-- What is stored does not depend on what was there before. -/
theorem memWrite32_congr {addr : Word} {off : BitVec 16} {memory memory' : BitVec 16 → Byte}
    (h : memory off = memory' off ∨ Covers addr off) (value : Word) :
    memWrite32 memory addr value off = memWrite32 memory' addr value off := by
  by_cases hcovers : Covers addr off
  · unfold memWrite32
    rw [if_pos hcovers.1, if_pos hcovers.1]
    simp only [Function.update_apply]
    rcases hcovers.2 with hoff | hoff | hoff | hoff <;> simp only [hoff, if_true]
  · rw [memWrite32_of_not_covers hcovers, memWrite32_of_not_covers hcovers]
    exact h.resolve_right hcovers

/-- Storing some words. -/
def memWords (words : List (Word × Word)) (memory : BitVec 16 → Byte) : BitVec 16 → Byte :=
  words.foldl (fun memory w => memWrite32 memory w.1 w.2) memory

theorem memWords_congr {words : List (Word × Word)} {off : BitVec 16}
    {memory memory' : BitVec 16 → Byte}
    (h : memory off = memory' off ∨ ∃ a ∈ words.map Prod.fst, Covers a off) :
    memWords words memory off = memWords words memory' off := by
  induction words generalizing memory memory' with
  | nil => simpa [memWords] using h
  | cons w words ih =>
    refine ih ?_
    rcases h with hsame | ⟨a, ha, hcovers⟩
    · exact Or.inl (memWrite32_congr (Or.inl hsame) w.2)
    · rw [List.map_cons, List.mem_cons] at ha
      rcases ha with rfl | ha
      · exact Or.inl (memWrite32_congr (Or.inr hcovers) w.2)
      · exact Or.inr ⟨a, ha, hcovers⟩

theorem memWords_of_not_covers {words : List (Word × Word)} {off : BitVec 16}
    (h : ∀ a ∈ words.map Prod.fst, ¬Covers a off) (memory : BitVec 16 → Byte) :
    memWords words memory off = memory off := by
  induction words generalizing memory with
  | nil => rfl
  | cons w words ih =>
    rw [List.map_cons, List.forall_mem_cons] at h
    exact (ih h.2 _).trans (memWrite32_of_not_covers h.1 _ _)

/-- Offset `k` of the sync region. -/
def syncOffset (k : Nat) : BitVec 16 := ramOffset (smpSyncBase + BitVec.ofNat 32 k)

theorem fst_syncWords (n : Nat) : (syncWords n).map Prod.fst = (syncWords 0).map Prod.fst := by
  unfold syncWords
  rw [List.map_append, List.map_append, List.map_map]
  rfl

/-- The sync words are the first `0x34` bytes of the sync region. -/
theorem covers_syncWords_iff (n : Nat) {k : Nat} (hk : k < 0x40) :
    (∃ a ∈ (syncWords n).map Prod.fst, Covers a (syncOffset k)) ↔ k < 0x34 := by
  have hall : ∀ k < 0x40, (((syncWords 0).map Prod.fst).any fun a => Covers a (syncOffset k)) =
      decide (k < 0x34) := by decide +kernel
  have hany := hall k hk
  rw [fst_syncWords n, ← decide_eq_true_iff (p := k < 0x34), ← hany, List.any_eq_true]
  simp only [decide_eq_true_iff]

/-! ### The target -/

/-- A hart is as another one, but for its number and its memory. -/
structure SameHart (c c' : Rv32Cpu) : Prop where
  regs : c.regs = c'.regs
  pc : c.pc = c'.pc
  running : c.running = c'.running
  halted : c.halted = c'.halted
  instructionCount : c.instructionCount = c'.instructionCount

theorem Target.hart_updSys (m : Machine) (f : Rv32System → Rv32System) (h : Nat) :
    (m.updSys f).hart h = (f m.sys).harts h := rfl

/-- `gdb_reset`, with the stores carried out. -/
theorem harts_gdbReset {n : Nat} {m : Machine} (hs : SystemInv n m.sys) {h : Nat} (hh : h < n) :
    (gdbReset m).hart h = if h = 0 then
      { resetHart 0 (m.hart 0) with memory := memWords (syncWords n) (m.hart 0).memory }
      else resetHart h (m.hart h) := by
  have hpos : 0 < n := Nat.zero_lt_of_lt hh
  have hreset : ∀ k < n, (m.sys.forHarts resetHart).harts k = resetHart k (m.hart k) := by
    intro k hk
    rw [Rv32System.forHarts_eq]
    exact if_pos (hs.numHarts.symm ▸ hk)
  have hinv := hs.forHarts fun k _ hc => hc.resetHart k
  have hown : ((m.sys.forHarts resetHart).harts 0).sharedRam = none := by
    rw [(hinv.hart 0 hpos).sharedRam, if_pos rfl]
  have hstored : (smpSyncRamInit (m.sys.forHarts resetHart)).harts h =
      if h = 0 then { (m.sys.forHarts resetHart).harts 0 with
        memory := memWords (syncWords n) ((m.sys.forHarts resetHart).harts 0).memory }
      else (m.sys.forHarts resetHart).harts h := by
    rw [smpSyncRamInit_eq, foldl_ramWrite32 hown, Rv32System.harts_updHart, hinv.numHarts]
    unfold memWords
    rfl
  have hmemory : (resetHart 0 (m.hart 0)).memory = (m.hart 0).memory := rfl
  rw [← hmemory, ← hreset 0 hpos, ← hreset h hh, ← hstored, gdbReset, Target.hart_updSys]

theorem SameHart.trans {c₁ c₂ c₃ : Rv32Cpu} (h₁ : SameHart c₁ c₂) (h₂ : SameHart c₂ c₃) :
    SameHart c₁ c₃ :=
  ⟨h₁.regs.trans h₂.regs, h₁.pc.trans h₂.pc, h₁.running.trans h₂.running,
    h₁.halted.trans h₂.halted, h₁.instructionCount.trans h₂.instructionCount⟩

theorem SameHart.eq {c c' : Rv32Cpu} (h : SameHart c c') (hid : c.hartId = c'.hartId)
    (hown : c.sharedRam = c'.sharedRam) : c = { c' with memory := c.memory } := by
  rw [Rv32Cpu.mk.injEq]
  exact ⟨h.regs, h.pc, rfl, hown, hid, h.running, h.halted, h.instructionCount⟩

/-- A reset leaves nothing of a hart but its memory. -/
theorem sameHart_resetHart (h : Nat) (c c' : Rv32Cpu) :
    SameHart (resetHart h c) (resetHart h c') := by
  unfold resetHart rv32CpuReset
  simp only [Function.update_idem]
  split_ifs
  · exact ⟨rfl, rfl, rfl, rfl, rfl⟩
  · exact ⟨rfl, rfl, rfl, rfl, rfl⟩

theorem sameHart_initSystem {n h : Nat} (hh : h < n) :
    SameHart (resetHart h rv32CpuInit) ((initSystem n).harts h) := by
  have hinit : (initSystem n).harts h =
      if h > 0 then smpSyncInitWorkerHart (initHart n h)
      else { initHart n 0 with memory := initMemory n } := by
    rw [initSystem_eq, loadedSystem]
    simp only [if_pos hh]
    by_cases h0 : h = 0
    · rw [if_pos h0, if_neg (by omega), if_neg (by omega)]
    · rw [if_neg h0, if_pos (by omega), if_pos (by omega)]
  rw [hinit]
  unfold resetHart rv32CpuReset
  simp only [Function.update_idem]
  by_cases h0 : h > 0
  · rw [if_pos h0, if_pos h0, initHart, if_pos hh]
    exact ⟨rfl, rfl, rfl, rfl, rfl⟩
  · have hzero : h = 0 := by omega
    rw [if_neg h0, if_neg h0, initHart, if_pos (hzero ▸ hh), hzero]
    exact ⟨rfl, rfl, rfl, rfl, rfl⟩

theorem sameHart_gdbReset {n : Nat} {m : Machine} (hs : SystemInv n m.sys) {h : Nat} (hh : h < n) :
    SameHart ((gdbReset m).hart h) ((initSystem n).harts h) := by
  have hreset : SameHart ((gdbReset m).hart h) (resetHart h (m.hart h)) := by
    rw [harts_gdbReset hs hh]
    split_ifs with h0
    · subst h0
      exact ⟨rfl, rfl, rfl, rfl, rfl⟩
    · exact ⟨rfl, rfl, rfl, rfl, rfl⟩
  exact (hreset.trans (sameHart_resetHart h _ _)).trans (sameHart_initSystem hh)

/-- The sync region is as right after the start if and only if its last bytes are. -/
theorem syncRegion_gdbReset_iff {n : Nat} {m : Machine} (hs : SystemInv n m.sys) :
    (∀ k < 0x40, (gdbReset m).sys.ram 0 (syncOffset k) = (initSystem n).ram 0 (syncOffset k)) ↔
      ∀ k < 0x40, 0x34 ≤ k → m.sys.ram 0 (syncOffset k) = 0 := by
  have hpos : 0 < n := Nat.zero_lt_of_lt hs.focusHart_lt
  have hram : ∀ off, m.sys.ram 0 off = (m.hart 0).memory off := fun off => by
    rw [Rv32System.ram, hs.ramOwner hpos]
    rfl
  have hreset : ∀ off, (gdbReset m).sys.ram 0 off =
      memWords (syncWords n) (m.hart 0).memory off := fun off => by
    rw [Rv32System.ram, hs.gdbReset.ramOwner hpos, ← Target.hart, harts_gdbReset hs hpos,
      if_pos rfl]
  have hinit : ∀ off, (initSystem n).ram 0 off = memWords (syncWords n)
      (memcpyWords (memcpyWords (fun _ => 0) 0 testProgram) 0x30 smpWorkerCode) off := fun off => by
    have hmemory : ((loadedSystem n).harts 0).memory = initMemory n := by
      unfold loadedSystem
      simp only [if_pos hpos, if_true, gt_iff_lt, lt_irrefl, if_false]
    rw [Rv32System.ram, (systemInv_initSystem hpos).ramOwner hpos, initSystem_eq, hmemory,
      initMemory, memWords]
  have hzero : ∀ k < 0x40, 0x34 ≤ k → memcpyWords (memcpyWords (fun _ => 0) 0 testProgram) 0x30
      smpWorkerCode (syncOffset k) = 0 := by decide +kernel
  have hiff : ∀ k < 0x40, ((gdbReset m).sys.ram 0 (syncOffset k) =
      (initSystem n).ram 0 (syncOffset k) ↔ (0x34 ≤ k → m.sys.ram 0 (syncOffset k) = 0)) := by
    intro k hk
    have hcovers := covers_syncWords_iff n hk
    rw [hreset, hinit, hram]
    by_cases hword : k < 0x34
    · refine iff_of_true (memWords_congr (Or.inr (hcovers.mpr hword))) fun hlast => ?_
      omega
    · have hnone : ∀ a ∈ (syncWords n).map Prod.fst, ¬Covers a (syncOffset k) :=
        fun a ha hcover => hword (hcovers.mp ⟨a, ha, hcover⟩)
      rw [memWords_of_not_covers hnone, memWords_of_not_covers hnone, hzero k hk (not_lt.mp hword)]
      exact ⟨fun h _ => h, fun h => h (not_lt.mp hword)⟩
  exact forall₂_congr hiff

/-! ### The session -/

/-- The target and the stub are as right after the start with `n` harts. -/
structure Restored (n : Nat) (w : EmuWorld) : Prop where
  hart : ∀ h < n, SameHart (w.toTarget.hart h) ((initSystem n).harts h)
  syncRegion : ∀ k < 0x40, w.sim.sys.ram 0 (syncOffset k) = (initSystem n).ram 0 (syncOffset k)
  focusHart : w.sim.sys.focusHart = (initSystem n).focusHart
  stopHart : w.sim.sys.stopHart = (initSystem n).stopHart
  breakpoints : w.dbg.breakpoints.slots = []
  watchpoints : w.dbg.watchpoints.slots = []
  singleStep : w.dbg.singleStep = (DebugState.init .x32).singleStep
  breakpointHit : w.dbg.breakpointHit = (DebugState.init .x32).breakpointHit
  lastWatchpointAddr : w.dbg.lastWatchpointAddr = (DebugState.init .x32).lastWatchpointAddr
  currentThread : w.dbg.currentThread = (DebugState.init .x32).currentThread
  continueThread : w.dbg.continueThread = (DebugState.init .x32).continueThread
  stopThread : w.dbg.stopThread = (DebugState.init .x32).stopThread

/-- Nothing that happened before is left but the RAM, the negotiated modes and the connection. -/
structure Forgotten (n : Nat) (w : EmuWorld) : Prop where
  hart : ∀ h < n, w.toTarget.hart h =
    { (initSystem n).harts h with memory := (w.toTarget.hart h).memory }
  numHarts : w.sim.sys.numHarts = n
  focusHart : w.sim.sys.focusHart = 0
  stopHart : w.sim.sys.stopHart = -1
  interruptReceived : w.sim.interruptReceived = false
  dbg : w.dbg = { DebugState.init .x32 with
    shouldStop := true
    lastStopSignal := 5
    multiprocessActive := w.dbg.multiprocessActive }

section HandleReset

variable {n : Nat} {w : EmuWorld}

theorem restored_handleReset_iff (h : MachineInv n w.toTarget) :
    Restored n (handleReset emuCallbacks w) ↔ w.dbg.lastWatchpointAddr = 0 ∧
      ∀ k < 0x40, 0x34 ≤ k → w.sim.sys.ram 0 (syncOffset k) = 0 := by
  have hregion := syncRegion_gdbReset_iff h.sys
  have hfocus : (initSystem n).focusHart = 0 := by rw [initSystem_eq, loadedSystem]
  have hstop : (initSystem n).stopHart = -1 := by rw [initSystem_eq, loadedSystem]
  constructor
  · intro hrestored
    exact ⟨hrestored.lastWatchpointAddr, hregion.mp hrestored.syncRegion⟩
  · rintro ⟨hnone, hzero⟩
    exact ⟨fun k hk => sameHart_gdbReset h.sys hk, hregion.mpr hzero, hfocus.symm, hstop.symm,
      rfl, rfl, rfl, rfl, hnone, rfl, rfl, rfl⟩

theorem forgotten_handleReset_iff (h : MachineInv n w.toTarget) :
    Forgotten n (handleReset emuCallbacks w) ↔
      w.dbg.lastWatchpointAddr = 0 ∧ w.sim.interruptReceived = false := by
  have hpos : 0 < n := Nat.zero_lt_of_lt h.sys.focusHart_lt
  constructor
  · intro hforgotten
    exact ⟨congrArg DebugState.lastWatchpointAddr hforgotten.dbg, hforgotten.interruptReceived⟩
  · rintro ⟨hnone, hint⟩
    refine ⟨fun k hk => ?_, h.sys.gdbReset.numHarts, rfl, rfl, hint, ?_⟩
    · have hsame := sameHart_gdbReset h.sys hk
      have hown := h.sys.gdbReset.hart k hk
      have hinit := (systemInv_initSystem hpos).hart k hk
      exact hsame.eq (hown.hartId.trans hinit.hartId.symm)
        (hown.sharedRam.trans hinit.sharedRam.symm)
    · have hdbg : (handleReset emuCallbacks w).dbg = { w.dbg with
          breakpoints := SlotTable.empty _ _
          watchpoints := SlotTable.empty _ _
          shouldStop := true
          singleStep := false
          lastStopSignal := 5
          breakpointHit := false
          currentThread := 1
          continueThread := -1
          stopThread := 0 } := rfl
      rw [hdbg, DebugState.mk.injEq]
      exact ⟨rfl, rfl, rfl, rfl, hnone, rfl, rfl, rfl, rfl, rfl, rfl⟩

end HandleReset

theorem interruptReceived_sigintHandler (w : EmuWorld) :
    (sigintHandler w).sim.interruptReceived = true := by
  unfold sigintHandler
  simp only
  split_ifs
  · rfl
  · rfl

/-- The client sends some packets, and then `R` and `?`. -/
def resetSession (packets : List String) : Session :=
  (loadedSession 1 ((packets ++ ["R", "?"]).flatMap fun p => frame (ascii p))).after false
    (packets.map fun _ => .quiet)

theorem sessionRun_resetSession {packets : List String}
    (hsteps : (loadedSession 1 ((packets ++ ["R", "?"]).flatMap fun p => frame (ascii p))).steps false
      (packets.map fun _ => .quiet)) :
    ∃ handled, SessionRun false 1 handled (resetSession packets) :=
  (sessionRun_loadedSession false 1 _).after hsteps

end Rv32Gdb
