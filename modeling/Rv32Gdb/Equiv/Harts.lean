import Rv32Gdb.Equiv.Ram
import Rv32Gdb.Equiv.Turn

/-!
# The harts of the system

`SystemInv n s` says that the harts below `n` are what the rest of the emulator takes for granted:
each has its own number, its register `x0` is zero and its RAM pointer leads to hart `0`; the focus
hart and the stop hart are among them.  Every function of the emulator keeps it, on behalf of a hart
below `n` (`SystemInv.rv32CpuStep`, `SystemInv.sysCpuStep`, `SystemInv.sysWriteMem`,
`SystemInv.gdbReset`).
-/

namespace Rv32Gdb

/-! ### One hart -/

/-- What hart `h` keeps from `init_system` on. -/
structure HartInv (h : Nat) (c : Rv32Cpu) : Prop where
  hartId : c.hartId = h
  zero : c.regs 0 = 0
  sharedRam : c.sharedRam = if h = 0 then none else some 0

namespace HartInv

variable {h : Nat} {c : Rv32Cpu}

/-- A change of the other registers keeps `x0`. -/
theorem updReg (hc : HartInv h c) {reg : Fin 32} (hreg : reg ≠ 0) (value : Word) :
    HartInv h { c with regs := Function.update c.regs reg value } := by
  refine ⟨hc.hartId, ?_, hc.sharedRam⟩
  show Function.update c.regs reg value 0 = 0
  rw [Function.update_of_ne hreg.symm]
  exact hc.zero

theorem rv32CpuWriteReg (hc : HartInv h c) (reg : Nat) (value : Word) :
    HartInv h (rv32CpuWriteReg c reg value) := by
  unfold Rv32Gdb.rv32CpuWriteReg
  split_ifs with hzero hlt
  · exact hc
  · exact hc.updReg (fun heq => hzero (congrArg Fin.val heq)) value
  · exact hc

theorem setPc (hc : HartInv h c) (pc : Word) : HartInv h { c with pc := pc } :=
  ⟨hc.hartId, hc.zero, hc.sharedRam⟩

theorem halt (hc : HartInv h c) : HartInv h c.halt := ⟨hc.hartId, hc.zero, hc.sharedRam⟩

theorem resume (hc : HartInv h c) : HartInv h { c with halted := false } :=
  ⟨hc.hartId, hc.zero, hc.sharedRam⟩

theorem advance (hc : HartInv h c) : HartInv h c.advance := ⟨hc.hartId, hc.zero, hc.sharedRam⟩

theorem execHart (hc : HartInv h c) (currentPc i : Word) : HartInv h (execHart currentPc i c) := by
  have hreg := fun reg value => hc.rv32CpuWriteReg reg value
  exact execHart_induction _ _ _ hreg (fun reg value pc => (hreg reg value).setPc pc) hc.setPc hc
    (fun _ => hc.halt) ⟨hc.hartId, hc.zero, hc.sharedRam⟩

theorem smpSyncInitWorkerHart (hc : HartInv h c) : HartInv h (smpSyncInitWorkerHart c) :=
  (hc.updReg (show regS0 ≠ 0 by decide) smpSyncBase).setPc smpWorkerPoll

theorem resetHart (hc : HartInv h c) (k : Nat) : HartInv h (resetHart k c) := by
  have hreset : HartInv h (rv32CpuReset c) := by
    refine ⟨hc.hartId, ?_, hc.sharedRam⟩
    rw [rv32CpuReset]
    simp only
    rw [Function.update_of_ne (by decide), Function.update_of_ne (by decide)]
  have htp := hreset.updReg (show regTp ≠ 0 by decide) (BitVec.ofNat 32 k)
  unfold Rv32Gdb.resetHart
  simp only
  split_ifs
  · exact htp.smpSyncInitWorkerHart
  · exact htp

end HartInv

/-! ### The system -/

/-- What the system keeps from `init_system` with `n` harts on. -/
structure SystemInv (n : Nat) (s : Rv32System) : Prop where
  numHarts : s.numHarts = n
  focusHart_lt : s.focusHart < n
  stopHart_ge : -1 ≤ s.stopHart
  stopHart_lt : s.stopHart < n
  hart : ∀ h < n, HartInv h (s.harts h)

namespace SystemInv

variable {n : Nat} {s : Rv32System}

/-- The RAM of every hart is that of hart `0`. -/
theorem ramOwner (hs : SystemInv n s) {h : Nat} (hh : h < n) : s.ramOwner h = 0 := by
  rw [Rv32System.ramOwner, (hs.hart h hh).sharedRam]
  split_ifs with h0
  · exact h0
  · rfl

theorem updHart (hs : SystemInv n s) (h : Nat) {f : Rv32Cpu → Rv32Cpu}
    (hf : ∀ c, HartInv h c → HartInv h (f c)) : SystemInv n (s.updHart h f) := by
  refine ⟨hs.numHarts, hs.focusHart_lt, hs.stopHart_ge, hs.stopHart_lt, fun k hk => ?_⟩
  rw [Rv32System.harts_updHart]
  split_ifs with heq
  · subst heq
    exact hf _ (hs.hart k hk)
  · exact hs.hart k hk

theorem forHarts (hs : SystemInv n s) {f : Nat → Rv32Cpu → Rv32Cpu}
    (hf : ∀ h c, HartInv h c → HartInv h (f h c)) : SystemInv n (s.forHarts f) := by
  rw [Rv32System.forHarts_eq]
  refine ⟨hs.numHarts, hs.focusHart_lt, hs.stopHart_ge, hs.stopHart_lt, fun k hk => ?_⟩
  show HartInv k (if k < s.numHarts then f k (s.harts k) else s.harts k)
  split_ifs
  · exact hf k _ (hs.hart k hk)
  · exact hs.hart k hk

/-- The selection of a focus hart and a stop hart. -/
theorem select (hs : SystemInv n s) {focus : Nat} {stop : Int} (hfocus : focus < n)
    (hge : -1 ≤ stop) (hlt : stop < n) :
    SystemInv n { s with focusHart := focus, stopHart := stop } :=
  ⟨hs.numHarts, hfocus, hge, hlt, hs.hart⟩

/-! ### Stores -/

theorem ramStore (hs : SystemInv n s) (h : Nat) (off : BitVec 16) (value : Word) (size : Nat) :
    SystemInv n (s.ramStore h off value size) := by
  have hframe := SysFrame.ramStore s h off value size
  refine ⟨hframe.numHarts.trans hs.numHarts, hframe.focusHart.trans_lt hs.focusHart_lt, ?_, ?_,
    fun k hk => ?_⟩
  · rw [hframe.stopHart]
    exact hs.stopHart_ge
  · rw [hframe.stopHart]
    exact hs.stopHart_lt
  · obtain ⟨memory, hmemory⟩ := s.harts_ramStore h off value size k
    rw [hmemory]
    exact ⟨(hs.hart k hk).hartId, (hs.hart k hk).zero, (hs.hart k hk).sharedRam⟩

theorem ramWrite32 (hs : SystemInv n s) (addr value : Word) :
    SystemInv n (ramWrite32 s addr value) := by
  unfold Rv32Gdb.ramWrite32
  split_ifs
  · exact hs.ramStore _ _ _ _
  · exact hs

theorem smpDeliverIpi (hs : SystemInv n s) (targetHart : Int) (workItem : Word) :
    SystemInv n (smpDeliverIpi s targetHart workItem) := by
  unfold Rv32Gdb.smpDeliverIpi
  split_ifs
  · exact hs
  · exact ((hs.ramWrite32 _ _).ramWrite32 _ _).ramWrite32 _ _

theorem smpSyncWriteRam (hs : SystemInv n s) (addr value : Word) (size : Nat) :
    SystemInv n (smpSyncWriteRam s addr value size) := by
  unfold Rv32Gdb.smpSyncWriteRam
  split_ifs
  · exact hs.ramStore _ _ _ _
  · exact hs

theorem smpSyncRamInit (hs : SystemInv n s) : SystemInv n (smpSyncRamInit s) := by
  have hfold : ∀ (l : List Nat) {s : Rv32System}, SystemInv n s →
      SystemInv n (l.foldl (fun s h => Rv32Gdb.ramWrite32 s (ipiPending h) 0) s) := by
    intro l
    induction l with
    | nil => exact id
    | cons h l ih => exact fun hs => ih (hs.ramWrite32 _ _)
  unfold Rv32Gdb.smpSyncRamInit
  exact hfold _ (((((hs.ramWrite32 _ _).ramWrite32 _ _).ramWrite32 _ _).ramWrite32 _ _).ramWrite32
    _ _)

/-! ### Instructions -/

section Execution

variable {m : Machine} (connected : Bool)

/-- A hit records a hart that exists. -/
theorem checkAccess (hs : SystemInv n m.sys) (kind : AccessKind) {h : Nat} (hh : h < n)
    (addr : Word) (size : Nat) :
    SystemInv n (checkAccess kind connected m h addr size).sys := by
  cases hhit : accessHit connected m.dbg kind addr size with
  | none =>
    rw [checkAccess_of_none hhit]
    exact hs
  | some a =>
    rw [checkAccess_of_some hhit]
    have hge : (-1 : Int) ≤ (m.sys.harts h).hartId := by omega
    have hlt : ((m.sys.harts h).hartId : Int) < n := by
      rw [(hs.hart h hh).hartId]
      exact_mod_cast hh
    exact (hs.select hs.focusHart_lt hge hlt).updHart h fun _ hc => hc.halt

theorem rv32CpuReadMem (hs : SystemInv n m.sys) {h : Nat} (hh : h < n) (addr : Word)
    (size : Nat) : SystemInv n (rv32CpuReadMem connected m h addr size).2.sys :=
  hs.checkAccess connected .load hh addr size

theorem rv32CpuWriteMem (hs : SystemInv n m.sys) {h : Nat} (hh : h < n) (addr value : Word)
    (size : Nat) : SystemInv n (rv32CpuWriteMem connected m h addr value size).sys := by
  have hcheck := hs.checkAccess connected .store hh addr size
  unfold Rv32Gdb.rv32CpuWriteMem
  simp only
  split_ifs
  · exact hcheck.ramStore _ _ _ _
  · exact hcheck

theorem execLoad (hs : SystemInv n m.sys) {h : Nat} (hh : h < n) (i : Word) :
    SystemInv n (execLoad connected m h i).sys := by
  unfold Rv32Gdb.execLoad
  simp only
  split
  · exact hs.updHart h fun _ hc => hc.rv32CpuWriteReg _ _
  · rename_i size _
    refine updHart ?_ h fun _ hc => hc.rv32CpuWriteReg _ _
    exact rv32CpuReadMem (m := m.log _) connected hs hh _ size

theorem execStore (hs : SystemInv n m.sys) {h : Nat} (hh : h < n) (i : Word) :
    SystemInv n (execStore connected m h i).sys := by
  unfold Rv32Gdb.execStore
  simp only
  split
  · exact hs
  · rename_i size _
    exact rv32CpuWriteMem (m := m.log _) connected hs hh _ _ size

theorem rv32CpuStep (hs : SystemInv n m.sys) {h : Nat} (hh : h < n) :
    SystemInv n (rv32CpuStep connected m h).sys := by
  unfold Rv32Gdb.rv32CpuStep
  have hfetch := rv32CpuReadMem (m := m.log (.exec h (m.hart h).pc)) connected hs hh
    (m.hart h).pc 4
  have hadvance := hfetch.updHart h fun _ hc => hc.advance
  simp only
  split_ifs
  · exact hs
  · exact execLoad connected hadvance hh _
  · exact execStore connected hadvance hh _
  · exact hadvance.updHart h fun _ hc => hc.execHart _ _

/-! ### Worker jobs -/

theorem workerJobLoop (hs : SystemInv n m.sys) {h : Nat} (hh : h < n) (guard : Nat) :
    SystemInv n (workerJobLoop connected h guard m).sys := by
  induction guard generalizing m with
  | zero => exact hs
  | succ guard ih =>
    have hstep := rv32CpuStep (m := m.log (.turn h (m.hart h).pc)) connected hs hh
    rw [Rv32Gdb.workerJobLoop]
    simp only
    split_ifs
    · exact hstep
    · exact ih hstep
    · exact hs

theorem smpSyncRunWorkerJobs (hs : SystemInv n m.sys) (hartId : Int) :
    SystemInv n (smpSyncRunWorkerJobs connected m hartId).sys := by
  have hnum := hs.numHarts
  unfold Rv32Gdb.smpSyncRunWorkerJobs
  split_ifs with hrange
  · exact hs
  · exact hs
  · exact hs.workerJobLoop connected (by omega) 128

theorem smpSyncOnCounterStore (hs : SystemInv n m.sys) (srcHart : Nat) (counter : Word) :
    SystemInv n (smpSyncOnCounterStore connected m srcHart counter).sys := by
  unfold Rv32Gdb.smpSyncOnCounterStore
  simp only
  split_ifs
  · exact hs
  · exact hs
  · exact smpSyncRunWorkerJobs connected (m := m.updSys _) (hs.smpDeliverIpi _ _) _

theorem sysCpuStep (hs : SystemInv n m.sys) {h : Nat} (hh : h < n) :
    SystemInv n (sysCpuStep connected m h).sys := by
  have hstep := hs.rv32CpuStep connected hh
  unfold Rv32Gdb.sysCpuStep sysPostStep
  split_ifs
  · exact hstep
  · exact hstep.smpSyncOnCounterStore connected _ _
  · exact hstep

/-! ### The debugger -/

theorem sysReadMem (hs : SystemInv n m.sys) (addr : Word) (size : Nat) :
    SystemInv n (sysReadMem connected m addr size).2.sys := by
  unfold Rv32Gdb.sysReadMem
  split_ifs
  · exact hs
  · exact hs
  · exact hs.rv32CpuReadMem connected (Nat.zero_lt_of_lt hs.focusHart_lt) _ _

theorem sysWriteMem (hs : SystemInv n m.sys) {src : Nat} (hsrc : src < n) (addr value : Word)
    (size : Nat) : SystemInv n (sysWriteMem connected m src addr value size).sys := by
  unfold Rv32Gdb.sysWriteMem smpSyncHandleMmio
  simp only
  split_ifs
  · exact hs.smpSyncWriteRam _ _ _
  · exact hs.rv32CpuWriteMem connected hsrc _ _ _
  all_goals exact smpSyncRunWorkerJobs connected (m := m.updSys _) (hs.smpDeliverIpi _ _) _

end Execution

theorem gdbWriteReg {m : Machine} (hs : SystemInv n m.sys) (regNum : Nat) (value : Word) :
    SystemInv n (gdbWriteReg m regNum value).sys := by
  have hreg : ∀ c, HartInv m.sys.focusHart c → HartInv m.sys.focusHart
      (if regNum < 32 then Rv32Gdb.rv32CpuWriteReg c regNum value
        else if regNum = 32 then { c with pc := value } else c) := by
    intro c hc
    split_ifs
    · exact hc.rv32CpuWriteReg _ _
    · exact hc.setPc _
    · exact hc
  exact hs.updHart m.sys.focusHart hreg

/-- `sys_halt_all`, with the focus hart as the new stop hart. -/
theorem sysHaltAll (hs : SystemInv n s) :
    SystemInv n { sysHaltAll s with stopHart := s.focusHart } := by
  have hhalt : SystemInv n (Rv32Gdb.sysHaltAll s) := hs.forHarts fun _ _ hc => hc.halt
  exact hhalt.select hhalt.focusHart_lt (by omega) (by exact_mod_cast hs.focusHart_lt)

theorem sysResumeRunnable {m : Machine} (hs : SystemInv n m.sys) :
    SystemInv n (sysResumeRunnable m).sys := by
  refine hs.forHarts fun h c hc => ?_
  split_ifs
  · exact hc
  · exact hc.resume

theorem gdbReset {m : Machine} (hs : SystemInv n m.sys) : SystemInv n (gdbReset m).sys := by
  have hpos : 0 < n := Nat.zero_lt_of_lt hs.focusHart_lt
  exact (hs.forHarts fun k _ hc => hc.resetHart k).smpSyncRamInit.select hpos (by omega) (by omega)

theorem gdbSetFocusHart {m : Machine} (hs : SystemInv n m.sys) (hart : Int) :
    SystemInv n (gdbSetFocusHart m hart).sys := by
  have hnum := hs.numHarts
  unfold Rv32Gdb.gdbSetFocusHart
  show SystemInv n (if 0 ≤ hart ∧ hart < m.sys.numHarts then
    { m.sys with focusHart := hart.toNat } else m.sys)
  split_ifs with hrange
  · exact hs.select (by omega) hs.stopHart_ge hs.stopHart_lt
  · exact hs

end SystemInv

end Rv32Gdb
