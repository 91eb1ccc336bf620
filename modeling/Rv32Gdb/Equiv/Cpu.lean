import Rv32Gdb.Emu.Callbacks

/-!
# What executing an instruction changes

`rv32CpuStep_cases` takes an instruction apart: the fetch, which is checked against the
watchpoints, and then either no data access or the one that `pendingAccess` reads off the state
before.  A check that hits is `recordHit`; everything else an instruction does is a `HartFrame`.
`ExecFrame` says what the execution of any number of instructions leaves alone, worker jobs
(`execFrame_sysCpuStep`) and the debugger's memory accesses (`execFrame_sysWriteMem`) included.
-/

namespace Rv32Gdb

/-! ### Watchpoint hits -/

/-- The type of watchpoint that an access of a kind triggers, besides those for any access. -/
def AccessKind.watchpointType : AccessKind → WatchpointType
  | .load => .read
  | .store => .write

/-- The address of the watchpoint that an access hits. -/
def accessHit (connected : Bool) (d : DebugState .x32) (kind : AccessKind) (addr : Word)
    (size : Nat) : Option Word :=
  if connected then d.watchpointFor kind.watchpointType addr (BitVec.ofNat 32 size) else none

/-- A hit of hart `h` on the watchpoint at `a`: it is recorded and halts the hart. -/
def recordHit (m : Machine) (h : Nat) (a : Word) : Machine :=
  let m : Machine := { m with dbg := { m.dbg with lastWatchpointAddr := a } }
  (m.updSys fun s => { s with stopHart := (s.harts h).hartId }).updHart h Rv32Cpu.halt

theorem checkAccess_of_none {kind : AccessKind} {connected : Bool} {m : Machine} {h : Nat}
    {addr : Word} {size : Nat} (hhit : accessHit connected m.dbg kind addr size = none) :
    checkAccess kind connected m h addr size = m := by
  unfold accessHit at hhit
  cases connected with
  | false => rfl
  | true =>
    rw [if_pos rfl] at hhit
    cases kind <;>
      simp only [AccessKind.watchpointType] at hhit <;>
      simp [checkAccess, gdbWatchpoint, gdbStubCheckWatchpointRead, gdbStubCheckWatchpointWrite,
        checkWatchpoint, hhit]

theorem checkAccess_of_some {kind : AccessKind} {connected : Bool} {m : Machine} {h : Nat}
    {addr : Word} {size : Nat} {a : Word}
    (hhit : accessHit connected m.dbg kind addr size = some a) :
    checkAccess kind connected m h addr size = recordHit m h a := by
  unfold accessHit at hhit
  cases connected with
  | false => exact absurd hhit (by simp)
  | true =>
    rw [if_pos rfl] at hhit
    cases kind <;>
      simp only [AccessKind.watchpointType] at hhit <;>
      simp [checkAccess, gdbWatchpoint, gdbStubCheckWatchpointRead, gdbStubCheckWatchpointWrite,
        checkWatchpoint, hhit, recordHit]

/-! ### Frames -/

/-- What changing the contents of harts and of the RAM leaves alone. -/
structure SysFrame (s s' : Rv32System) : Prop where
  numHarts : s'.numHarts = s.numHarts
  focusHart : s'.focusHart = s.focusHart
  stopHart : s'.stopHart = s.stopHart
  hartId : ∀ k, (s'.harts k).hartId = (s.harts k).hartId
  halted : ∀ k, (s.harts k).halted → (s'.harts k).halted

namespace SysFrame

theorem refl (s : Rv32System) : SysFrame s s := ⟨rfl, rfl, rfl, fun _ => rfl, fun _ h => h⟩

theorem trans {s₁ s₂ s₃ : Rv32System} (h₁ : SysFrame s₁ s₂) (h₂ : SysFrame s₂ s₃) :
    SysFrame s₁ s₃ where
  numHarts := h₂.numHarts.trans h₁.numHarts
  focusHart := h₂.focusHart.trans h₁.focusHart
  stopHart := h₂.stopHart.trans h₁.stopHart
  hartId k := (h₂.hartId k).trans (h₁.hartId k)
  halted k h := h₂.halted k (h₁.halted k h)

/-- A change of one hart. -/
theorem updHart (s : Rv32System) (h : Nat) {f : Rv32Cpu → Rv32Cpu}
    (hid : (f (s.harts h)).hartId = (s.harts h).hartId)
    (hhalted : (s.harts h).halted → (f (s.harts h)).halted) : SysFrame s (s.updHart h f) where
  numHarts := rfl
  focusHart := rfl
  stopHart := rfl
  hartId k := by
    rw [Rv32System.harts_updHart]
    split_ifs with hk
    · rw [hid, hk]
    · rfl
  halted k hk := by
    rw [Rv32System.harts_updHart]
    split_ifs with hkh
    · exact hhalted (hkh ▸ hk)
    · exact hk

theorem setRam (s : Rv32System) (h : Nat) (off : BitVec 16) (b : Byte) :
    SysFrame s (s.setRam h off b) := updHart s _ rfl id

theorem ramStore (s : Rv32System) (h : Nat) (off : BitVec 16) (value : Word) (size : Nat) :
    SysFrame s (s.ramStore h off value size) := by
  unfold Rv32System.ramStore
  split
  · exact setRam _ _ _ _
  · exact (setRam _ _ _ _).trans (setRam _ _ _ _)
  · exact (((setRam _ _ _ _).trans (setRam _ _ _ _)).trans (setRam _ _ _ _)).trans
      (setRam _ _ _ _)
  · exact refl s

theorem ramWrite32 (s : Rv32System) (addr value : Word) : SysFrame s (ramWrite32 s addr value) := by
  unfold Rv32Gdb.ramWrite32
  split_ifs
  · exact ramStore _ _ _ _ _
  · exact refl s

theorem smpDeliverIpi (s : Rv32System) (targetHart : Int) (workItem : Word) :
    SysFrame s (smpDeliverIpi s targetHart workItem) := by
  unfold Rv32Gdb.smpDeliverIpi
  split_ifs
  · exact refl s
  · exact ((ramWrite32 _ _ _).trans (ramWrite32 _ _ _)).trans (ramWrite32 _ _ _)

theorem smpSyncWriteRam (s : Rv32System) (addr value : Word) (size : Nat) :
    SysFrame s (smpSyncWriteRam s addr value size) := by
  unfold Rv32Gdb.smpSyncWriteRam
  split_ifs
  · exact ramStore _ _ _ _ _
  · exact refl s

end SysFrame

/-- A step that changes the contents of harts and of the RAM, and nothing else. -/
structure HartFrame (m m' : Machine) : Prop where
  dbg : m'.dbg = m.dbg
  trace : m'.sim.trace = m.sim.trace
  interruptReceived : m'.sim.interruptReceived = m.sim.interruptReceived
  sys : SysFrame m.sys m'.sys

namespace HartFrame

theorem refl (m : Machine) : HartFrame m m := ⟨rfl, rfl, rfl, SysFrame.refl _⟩

theorem trans {m₁ m₂ m₃ : Machine} (h₁ : HartFrame m₁ m₂) (h₂ : HartFrame m₂ m₃) :
    HartFrame m₁ m₃ where
  dbg := h₂.dbg.trans h₁.dbg
  trace := h₂.trace.trans h₁.trace
  interruptReceived := h₂.interruptReceived.trans h₁.interruptReceived
  sys := h₁.sys.trans h₂.sys

theorem updSys {m : Machine} {f : Rv32System → Rv32System} (h : SysFrame m.sys (f m.sys)) :
    HartFrame m (m.updSys f) := ⟨rfl, rfl, rfl, h⟩

theorem updHart (m : Machine) (h : Nat) {f : Rv32Cpu → Rv32Cpu}
    (hid : (f (m.hart h)).hartId = (m.hart h).hartId)
    (hhalted : (m.hart h).halted → (f (m.hart h)).halted) : HartFrame m (m.updHart h f) :=
  updSys (SysFrame.updHart _ _ hid hhalted)

end HartFrame

/-- What executing instructions leaves alone. -/
structure ExecFrame (m m' : Machine) : Prop where
  dbg : m'.dbg = { m.dbg with lastWatchpointAddr := m'.dbg.lastWatchpointAddr }
  trace : m.sim.trace <+: m'.sim.trace
  interruptReceived : m'.sim.interruptReceived = m.sim.interruptReceived
  numHarts : m'.sys.numHarts = m.sys.numHarts
  focusHart : m'.sys.focusHart = m.sys.focusHart
  hartId : ∀ k, (m'.hart k).hartId = (m.hart k).hartId

theorem HartFrame.execFrame {m m' : Machine} (h : HartFrame m m') : ExecFrame m m' where
  dbg := by rw [h.dbg]
  trace := h.trace ▸ List.prefix_refl _
  interruptReceived := h.interruptReceived
  numHarts := h.sys.numHarts
  focusHart := h.sys.focusHart
  hartId := h.sys.hartId

namespace ExecFrame

theorem refl (m : Machine) : ExecFrame m m := (HartFrame.refl m).execFrame

theorem trans {m₁ m₂ m₃ : Machine} (h₁ : ExecFrame m₁ m₂) (h₂ : ExecFrame m₂ m₃) :
    ExecFrame m₁ m₃ where
  dbg := by rw [h₂.dbg, h₁.dbg]
  trace := h₁.trace.trans h₂.trace
  interruptReceived := h₂.interruptReceived.trans h₁.interruptReceived
  numHarts := h₂.numHarts.trans h₁.numHarts
  focusHart := h₂.focusHart.trans h₁.focusHart
  hartId k := (h₂.hartId k).trans (h₁.hartId k)

theorem log (m : Machine) (e : HartEvent) : ExecFrame m (m.log e) :=
  ⟨rfl, List.prefix_append _ _, rfl, rfl, rfl, fun _ => rfl⟩

theorem recordHit (m : Machine) (h : Nat) (a : Word) : ExecFrame m (recordHit m h a) := by
  have hf := SysFrame.updHart ({ m.sys with stopHart := (m.sys.harts h).hartId } : Rv32System) h
    (f := Rv32Cpu.halt) rfl fun _ => rfl
  exact ⟨rfl, List.prefix_refl _, rfl, hf.numHarts, hf.focusHart, hf.hartId⟩

theorem checkAccess (kind : AccessKind) (connected : Bool) (m : Machine) (h : Nat) (addr : Word)
    (size : Nat) : ExecFrame m (checkAccess kind connected m h addr size) := by
  cases hhit : accessHit connected m.dbg kind addr size with
  | none =>
    rw [checkAccess_of_none hhit]
    exact refl m
  | some a =>
    rw [checkAccess_of_some hhit]
    exact recordHit m h a

end ExecFrame

/-! ### One instruction -/

/-- The instruction that hart `h` executes next. -/
def fetched (m : Machine) (h : Nat) : Word :=
  if inRam (m.hart h).pc 4 then m.sys.ramLoad h (ramOffset (m.hart h).pc) 4 else 0

/-- The data access that the next instruction of hart `h` makes: kind, address and size. -/
def pendingAccess (m : Machine) (h : Nat) : Option (AccessKind × Word × Nat) :=
  let i := fetched m h
  let opcode := i &&& 0x7F
  if opcode = 0x03 then
    (loadSize (funct3Field i)).map fun size =>
      (.load, rv32CpuReadReg (m.hart h) (rs1Field i) + signExtend (immI i) 12, size)
  else if opcode = 0x23 then
    (storeSize (funct3Field i)).map fun size =>
      (.store, rv32CpuReadReg (m.hart h) (rs1Field i) + signExtend (immS i) 12, size)
  else none

/-- What a check that hits does to the harts: the one that accesses is halted. -/
theorem hart_checkAccess (kind : AccessKind) (connected : Bool) (m : Machine) (h : Nat)
    (addr : Word) (size : Nat) :
    ∃ b, ∀ k, (checkAccess kind connected m h addr size).hart k =
      if k = h then { m.hart h with halted := b } else m.hart k := by
  cases hhit : accessHit connected m.dbg kind addr size with
  | none =>
    rw [checkAccess_of_none hhit]
    refine ⟨(m.hart h).halted, fun k => ?_⟩
    split_ifs with hk
    · rw [hk]
    · rfl
  | some a =>
    rw [checkAccess_of_some hhit]
    refine ⟨true, fun k => ?_⟩
    rw [recordHit, Target.hart_updHart]
    rfl

theorem harts_checkAccess (kind : AccessKind) (connected : Bool) (m : Machine) (h : Nat)
    (addr : Word) (size : Nat) (k : Nat) :
    ∃ b, (checkAccess kind connected m h addr size).hart k = { m.hart k with halted := b } := by
  obtain ⟨b, hb⟩ := hart_checkAccess kind connected m h addr size
  rw [hb]
  split_ifs with hk
  · exact ⟨b, hk ▸ rfl⟩
  · exact ⟨(m.hart k).halted, rfl⟩

/-- The RAM does not depend on which harts are halted. -/
theorem ram_checkAccess (kind : AccessKind) (connected : Bool) (m : Machine) (h : Nat)
    (addr : Word) (size k : Nat) (off : BitVec 16) :
    (checkAccess kind connected m h addr size).sys.ram k off = m.sys.ram k off := by
  obtain ⟨b, hb⟩ := harts_checkAccess kind connected m h addr size k
  have howner : (checkAccess kind connected m h addr size).sys.ramOwner k = m.sys.ramOwner k := by
    show (((checkAccess kind connected m h addr size).hart k).sharedRam).getD k = _
    rw [hb]
    rfl
  obtain ⟨b', hb'⟩ := harts_checkAccess kind connected m h addr size (m.sys.ramOwner k)
  rw [Rv32System.ram, howner]
  show ((checkAccess kind connected m h addr size).hart (m.sys.ramOwner k)).memory off = _
  rw [hb']
  rfl

theorem ramLoad_checkAccess (kind : AccessKind) (connected : Bool) (m : Machine) (h : Nat)
    (addr : Word) (size k : Nat) (off : BitVec 16) (n : Nat) :
    (checkAccess kind connected m h addr size).sys.ramLoad k off n = m.sys.ramLoad k off n := by
  unfold Rv32System.ramLoad
  split <;> simp only [ram_checkAccess]

theorem fst_rv32CpuReadMem (connected : Bool) (m : Machine) (h : Nat) (addr : Word) (size : Nat) :
    (rv32CpuReadMem connected m h addr size).1 =
      if inRam addr size then m.sys.ramLoad h (ramOffset addr) size else 0 := by
  rw [rv32CpuReadMem]
  simp only [ramLoad_checkAccess]

theorem snd_rv32CpuReadMem (connected : Bool) (m : Machine) (h : Nat) (addr : Word) (size : Nat) :
    (rv32CpuReadMem connected m h addr size).2 = checkAccess .load connected m h addr size := rfl

theorem HartFrame.rv32CpuWriteMem (connected : Bool) (m : Machine) (h : Nat) (addr value : Word)
    (size : Nat) : HartFrame (checkAccess .store connected m h addr size)
      (rv32CpuWriteMem connected m h addr value size) := by
  unfold Rv32Gdb.rv32CpuWriteMem
  simp only
  split_ifs
  · exact updSys (SysFrame.ramStore _ _ _ _ _)
  · exact refl _

theorem hartId_rv32CpuWriteReg (c : Rv32Cpu) (reg : Nat) (value : Word) :
    (rv32CpuWriteReg c reg value).hartId = c.hartId ∧
      (rv32CpuWriteReg c reg value).halted = c.halted := by
  unfold rv32CpuWriteReg
  split_ifs <;> exact ⟨rfl, rfl⟩

theorem HartFrame.updReg (m : Machine) (h reg : Nat) (value : Rv32Cpu → Word) :
    HartFrame m (m.updHart h fun c => rv32CpuWriteReg c reg (value c)) :=
  updHart m h (hartId_rv32CpuWriteReg _ _ _).1 fun hh => by
    rw [(hartId_rv32CpuWriteReg _ _ _).2]
    exact hh

/-- An instruction without data access may halt its hart, by `EBREAK`. -/
theorem execHart_frame (currentPc i : Word) (c : Rv32Cpu) :
    (execHart currentPc i c).hartId = c.hartId ∧ (c.halted → (execHart currentPc i c).halted) := by
  have hreg := fun reg value => hartId_rv32CpuWriteReg c reg value
  have hhalted : ∀ reg value, c.halted → (rv32CpuWriteReg c reg value).halted := fun reg value h =>
    (hreg reg value).2 ▸ h
  exact execHart_induction (P := fun c' => c'.hartId = c.hartId ∧ (c.halted → c'.halted)) _ _ _
    (fun reg value => ⟨(hreg reg value).1, hhalted reg value⟩)
    (fun reg value _ => ⟨(hreg reg value).1, hhalted reg value⟩)
    (fun _ => ⟨rfl, id⟩) ⟨rfl, id⟩ (fun _ => ⟨rfl, fun _ => rfl⟩) ⟨rfl, id⟩

/-- The state after the fetch of an instruction. -/
def afterFetch (connected : Bool) (m : Machine) (h : Nat) : Machine :=
  (checkAccess .load connected (m.log (.exec h (m.hart h).pc)) h (m.hart h).pc 4).updHart h
    Rv32Cpu.advance

/-- The three kinds of instructions. -/
theorem rv32CpuStep_of_running (connected : Bool) {m : Machine} {h : Nat}
    (hrun : (m.hart h).running) : rv32CpuStep connected m h =
      if fetched m h &&& 0x7F = 0x03 then execLoad connected (afterFetch connected m h) h (fetched m h)
      else if fetched m h &&& 0x7F = 0x23 then
        execStore connected (afterFetch connected m h) h (fetched m h)
      else (afterFetch connected m h).updHart h (execHart (m.hart h).pc (fetched m h)) := by
  have hfetch : (rv32CpuReadMem connected (m.log (.exec h (m.hart h).pc)) h (m.hart h).pc 4).1 =
      fetched m h := by
    rw [fst_rv32CpuReadMem]
    rfl
  rw [rv32CpuStep, if_neg (by simpa using hrun)]
  simp only [hfetch, snd_rv32CpuReadMem, afterFetch]

/-- The fetch advances its hart, and may halt it. -/
theorem hart_afterFetch (connected : Bool) (m : Machine) (h : Nat) :
    ∃ b, ∀ k, (afterFetch connected m h).hart k =
      if k = h then Rv32Cpu.advance { m.hart h with halted := b } else m.hart k := by
  obtain ⟨b, hb⟩ := hart_checkAccess .load connected (m.log (.exec h (m.hart h).pc)) h
    (m.hart h).pc 4
  refine ⟨b, fun k => ?_⟩
  rw [afterFetch, Target.hart_updHart, hb, hb, if_pos rfl]
  split_ifs
  · rfl
  · rfl

/-- One instruction: the fetch, then the data access if there is one; the rest concerns the
contents of harts and RAM. -/
theorem rv32CpuStep_cases (connected : Bool) {m : Machine} {h : Nat}
    (hrun : (m.hart h).running) :
    ∃ m₁, HartFrame (checkAccess .load connected (m.log (.exec h (m.hart h).pc)) h (m.hart h).pc 4)
        m₁ ∧
      match pendingAccess m h with
      | none => HartFrame m₁ (rv32CpuStep connected m h)
      | some (kind, addr, size) =>
        HartFrame (checkAccess kind connected (m₁.log (.access h kind addr size)) h addr size)
          (rv32CpuStep connected m h) := by
  set m₁ := afterFetch connected m h with hm₁
  have hregs : ∀ reg, rv32CpuReadReg (m₁.hart h) reg = rv32CpuReadReg (m.hart h) reg := by
    intro reg
    obtain ⟨b, hb⟩ := hart_afterFetch connected m h
    rw [hm₁, hb, if_pos rfl]
    rfl
  refine ⟨m₁, HartFrame.updHart _ _ rfl id, ?_⟩
  rw [rv32CpuStep_of_running connected hrun, ← hm₁]
  unfold pendingAccess
  simp only
  split_ifs with hload hstore
  · rw [execLoad, hregs]
    cases loadSize (funct3Field (fetched m h)) with
    | none => exact HartFrame.updReg _ _ _ _
    | some size => exact HartFrame.updReg _ _ _ _
  · rw [execStore, hregs]
    cases storeSize (funct3Field (fetched m h)) with
    | none => exact HartFrame.refl _
    | some size => exact HartFrame.rv32CpuWriteMem _ _ _ _ _ _
  · have hf := execHart_frame (m.hart h).pc (fetched m h) (m₁.hart h)
    exact HartFrame.updHart _ _ hf.1 hf.2

theorem execFrame_rv32CpuStep (connected : Bool) (m : Machine) (h : Nat) :
    ExecFrame m (rv32CpuStep connected m h) := by
  by_cases hrun : (m.hart h).running
  · obtain ⟨m₁, h₁, h₂⟩ := rv32CpuStep_cases connected hrun
    have hfetch : ExecFrame m m₁ :=
      ((ExecFrame.log _ _).trans (ExecFrame.checkAccess _ _ _ _ _ _)).trans h₁.execFrame
    cases hacc : pendingAccess m h with
    | none =>
      rw [hacc] at h₂
      exact hfetch.trans h₂.execFrame
    | some access =>
      rw [hacc] at h₂
      exact ((hfetch.trans (ExecFrame.log _ _)).trans (ExecFrame.checkAccess _ _ _ _ _ _)).trans
        h₂.execFrame
  · rw [rv32CpuStep, if_pos (by simpa using hrun)]
    exact ExecFrame.refl m

/-- The events of one instruction of hart `h`, executed in `m`; a hart that is not running
executes none. -/
def execEvents (m : Machine) (h : Nat) : List HartEvent :=
  if (m.hart h).running then
    .exec h (m.hart h).pc ::
      (pendingAccess m h).toList.map fun (kind, addr, size) => .access h kind addr size
  else []

theorem trace_checkAccess (kind : AccessKind) (connected : Bool) (m : Machine) (h : Nat)
    (addr : Word) (size : Nat) :
    (checkAccess kind connected m h addr size).sim.trace = m.sim.trace := by
  cases hhit : accessHit connected m.dbg kind addr size with
  | none => rw [checkAccess_of_none hhit]
  | some a =>
    rw [checkAccess_of_some hhit]
    rfl

theorem trace_rv32CpuStep (connected : Bool) (m : Machine) (h : Nat) :
    (rv32CpuStep connected m h).sim.trace = m.sim.trace ++ execEvents m h := by
  unfold execEvents
  by_cases hrun : (m.hart h).running
  · obtain ⟨m₁, h₁, h₂⟩ := rv32CpuStep_cases connected hrun
    have htrace₁ : m₁.sim.trace = m.sim.trace ++ [.exec h (m.hart h).pc] := by
      rw [h₁.trace, trace_checkAccess]
      rfl
    rw [if_pos hrun]
    cases hacc : pendingAccess m h with
    | none =>
      rw [hacc] at h₂
      rw [h₂.trace, htrace₁]
      rfl
    | some access =>
      rw [hacc] at h₂
      rw [h₂.trace, trace_checkAccess, Target.log, htrace₁, List.append_assoc]
      rfl
  · rw [rv32CpuStep, if_pos (by simpa using hrun), if_neg hrun, List.append_nil]

/-- A load or store that hits: it is recorded last, and the hart is halted. -/
theorem rv32CpuStep_of_hit (connected : Bool) {m : Machine} {h : Nat} {kind : AccessKind}
    {addr a : Word} {size : Nat} (hrun : (m.hart h).running)
    (hacc : pendingAccess m h = some (kind, addr, size))
    (hhit : accessHit connected m.dbg kind addr size = some a) :
    (rv32CpuStep connected m h).dbg.lastWatchpointAddr = a ∧
      ((rv32CpuStep connected m h).hart h).halted := by
  obtain ⟨m₁, h₁, h₂⟩ := rv32CpuStep_cases connected hrun
  rw [hacc] at h₂
  have hdbg₁ : ExecFrame m m₁ :=
    ((ExecFrame.log _ _).trans (ExecFrame.checkAccess _ _ _ _ _ _)).trans h₁.execFrame
  have hhit₁ : accessHit connected (m₁.log (.access h kind addr size)).dbg kind addr size =
      some a := by
    show accessHit connected m₁.dbg kind addr size = some a
    rw [hdbg₁.dbg]
    exact hhit
  have hrecord := checkAccess_of_some (h := h) hhit₁
  constructor
  · rw [h₂.dbg, hrecord]
    rfl
  · refine h₂.sys.halted h ?_
    show ((checkAccess kind connected (m₁.log (.access h kind addr size)) h addr size).hart
      h).halted
    rw [hrecord, recordHit, Target.hart_updHart, if_pos rfl]
    rfl

/-! ### Worker jobs -/

/-- The states in which hart `h` executes the instructions of a job of at most `guard` of them. -/
def jobTurns (connected : Bool) (h : Nat) : Nat → Machine → List Machine
  | 0, _ => []
  | guard + 1, m =>
    if (m.hart h).running && !(m.hart h).halted then
      let m' := rv32CpuStep connected (m.log (.turn h (m.hart h).pc)) h
      m :: if workerParked m'.sys h then [] else jobTurns connected h guard m'
    else []

/-- The events of a turn of hart `h` in `m` that is not stopped by a breakpoint. -/
def turnEvents (h : Nat) (m : Machine) : List HartEvent :=
  .turn h (m.hart h).pc :: execEvents m h

theorem execFrame_workerJobLoop (connected : Bool) (h guard : Nat) (m : Machine) :
    ExecFrame m (workerJobLoop connected h guard m) ∧
      ∀ m' ∈ jobTurns connected h guard m, ExecFrame m m' := by
  induction guard generalizing m with
  | zero => exact ⟨ExecFrame.refl m, by simp [jobTurns]⟩
  | succ guard ih =>
    have hstep : ExecFrame m (rv32CpuStep connected (m.log (.turn h (m.hart h).pc)) h) :=
      (ExecFrame.log _ _).trans (execFrame_rv32CpuStep _ _ _)
    obtain ⟨ih1, ih2⟩ := ih (rv32CpuStep connected (m.log (.turn h (m.hart h).pc)) h)
    rw [workerJobLoop, jobTurns]
    simp only
    split_ifs with hgo hparked
    · refine ⟨hstep, fun m' hm' => ?_⟩
      obtain rfl := List.mem_singleton.mp hm'
      exact ExecFrame.refl _
    · refine ⟨hstep.trans ih1, fun m' hm' => ?_⟩
      rcases List.mem_cons.mp hm' with rfl | hm'
      · exact ExecFrame.refl _
      · exact hstep.trans (ih2 m' hm')
    · exact ⟨ExecFrame.refl m, by simp⟩

theorem trace_workerJobLoop (connected : Bool) (h guard : Nat) (m : Machine) :
    (workerJobLoop connected h guard m).sim.trace =
      m.sim.trace ++ (jobTurns connected h guard m).flatMap (turnEvents h) := by
  induction guard generalizing m with
  | zero => simp [workerJobLoop, jobTurns]
  | succ guard ih =>
    rw [workerJobLoop, jobTurns]
    simp only
    split_ifs with hgo hparked
    · rw [trace_rv32CpuStep, List.flatMap_singleton]
      exact List.append_assoc _ _ _
    · rw [ih, trace_rv32CpuStep, List.flatMap_cons, ← List.append_assoc]
      congr 1
      exact List.append_assoc _ _ _
    · simp

theorem workerJobLoop_of_jobTurns_eq_nil {connected : Bool} {h guard : Nat} {m : Machine}
    (hnil : jobTurns connected h guard m = []) : workerJobLoop connected h guard m = m := by
  cases guard with
  | zero => rfl
  | succ guard =>
    rw [jobTurns] at hnil
    simp only at hnil
    split_ifs at hnil with hgo
    rw [workerJobLoop, if_neg hgo]

/-- The job that `sys_post_step` runs: the worker, and the state at its start. -/
def postStepJob (m : Machine) (h : Nat) (prevPc : Word) : Option (Nat × Machine) :=
  let counter := (m.hart h).regs regT1
  let target := smpWorkerTarget m.sys counter
  let m' := m.updSys fun s => smpDeliverIpi s target counter
  if m.sys.numHarts ≤ 1 ∨ ¬((m.hart h).hartId = 0 ∧ prevPc = loopStore) then none
  else if target ≤ 0 ∨ target ≥ m'.sys.numHarts then none
  else if !smpSyncWorkerShouldRun m'.sys target then none
  else some (target.toNat, m')

/-- The job that the next instruction of hart `h` starts. -/
def stepJob (connected : Bool) (m : Machine) (h : Nat) : Option (Nat × Machine) :=
  postStepJob (rv32CpuStep connected m h) h (m.hart h).pc

/-- The turns of workers, nested in a step of hart `h`: who executes an instruction, and the state
in which it does. -/
def nestedTurns (connected : Bool) (m : Machine) (h : Nat) : List (Nat × Machine) :=
  match stepJob connected m h with
  | none => []
  | some (t, m') => (jobTurns connected t 128 m').map fun m'' => (t, m'')

theorem HartFrame.smpDeliverIpi (m : Machine) (targetHart : Int) (workItem : Word) :
    HartFrame m (m.updSys fun s => smpDeliverIpi s targetHart workItem) :=
  updSys (SysFrame.smpDeliverIpi _ _ _)

theorem sysPostStep_cases (connected : Bool) (m : Machine) (h : Nat) (prevPc : Word) :
    match postStepJob m h prevPc with
    | none => HartFrame m (sysPostStep connected m h prevPc)
    | some (t, m') => HartFrame m m' ∧
        sysPostStep connected m h prevPc = workerJobLoop connected t 128 m' := by
  set counter := (m.hart h).regs regT1 with hcounter
  set target := smpWorkerTarget m.sys counter with htarget
  have hframe := HartFrame.smpDeliverIpi m target counter
  unfold postStepJob sysPostStep
  simp only [← hcounter, ← htarget]
  by_cases hskip : m.sys.numHarts ≤ 1 ∨ ¬((m.hart h).hartId = 0 ∧ prevPc = loopStore)
  · have hsame : sysPostStep connected m h prevPc = m := by
      unfold sysPostStep
      rcases hskip with hone | hstore
      · rw [if_pos hone]
      · rw [if_neg hstore, ite_self]
    unfold sysPostStep at hsame
    rw [if_pos hskip, hsame]
    exact HartFrame.refl m
  rw [if_neg hskip]
  rw [not_or, not_not] at hskip
  have hstore : smpSyncOnCounterStore connected m 0 counter = if target < 0 then m
      else smpSyncRunWorkerJobs connected (m.updSys fun s => smpDeliverIpi s target counter)
        target := by
    rw [smpSyncOnCounterStore, if_neg fun h => h.elim hskip.1 fun h => h rfl]
  rw [if_neg hskip.1, if_pos hskip.2, hstore]
  by_cases hrange : target ≤ 0 ∨
      target ≥ (m.updSys fun s => smpDeliverIpi s target counter).sys.numHarts
  · rw [if_pos hrange, smpSyncRunWorkerJobs, if_pos hrange]
    split_ifs
    · exact HartFrame.refl m
    · exact hframe
  rw [if_neg hrange, if_neg fun h : target < 0 => hrange (Or.inl h.le), smpSyncRunWorkerJobs,
    if_neg hrange]
  split_ifs
  · exact hframe
  · exact ⟨hframe, rfl⟩

/-- A step of a hart is its instruction, then the job that this starts. -/
theorem sysCpuStep_cases (connected : Bool) (m : Machine) (h : Nat) :
    match stepJob connected m h with
    | none => HartFrame (rv32CpuStep connected m h) (sysCpuStep connected m h)
    | some (t, m') => HartFrame (rv32CpuStep connected m h) m' ∧
        sysCpuStep connected m h = workerJobLoop connected t 128 m' :=
  sysPostStep_cases connected _ h _

theorem execFrame_sysCpuStep (connected : Bool) (m : Machine) (h : Nat) :
    ExecFrame m (sysCpuStep connected m h) ∧
      ∀ turn ∈ nestedTurns connected m h, ExecFrame m turn.2 := by
  have hstep := execFrame_rv32CpuStep connected m h
  have hcases := sysCpuStep_cases connected m h
  unfold nestedTurns
  cases hjob : stepJob connected m h with
  | none =>
    rw [hjob] at hcases
    exact ⟨hstep.trans hcases.execFrame, by simp⟩
  | some job =>
    obtain ⟨t, m'⟩ := job
    rw [hjob] at hcases
    obtain ⟨hloop, hturns⟩ := execFrame_workerJobLoop connected t 128 m'
    have hstart := hstep.trans hcases.1.execFrame
    refine ⟨by rw [hcases.2]; exact hstart.trans hloop, fun turn hturn => ?_⟩
    obtain ⟨m'', hm'', rfl⟩ := List.mem_map.mp hturn
    exact hstart.trans (hturns m'' hm'')

theorem trace_sysCpuStep (connected : Bool) (m : Machine) (h : Nat) :
    (sysCpuStep connected m h).sim.trace = m.sim.trace ++ (execEvents m h ++
      (nestedTurns connected m h).flatMap fun turn => turnEvents turn.1 turn.2) := by
  have hcases := sysCpuStep_cases connected m h
  unfold nestedTurns
  cases hjob : stepJob connected m h with
  | none =>
    rw [hjob] at hcases
    rw [hcases.trace, trace_rv32CpuStep]
    simp
  | some job =>
    obtain ⟨t, m'⟩ := job
    rw [hjob] at hcases
    rw [hcases.2, trace_workerJobLoop, hcases.1.trace, trace_rv32CpuStep]
    simp [List.flatMap_map]

/-- Without nested turns a step is no more than its instruction. -/
theorem sysCpuStep_of_nestedTurns_eq_nil {connected : Bool} {m : Machine} {h : Nat}
    (hnil : nestedTurns connected m h = []) :
    HartFrame (rv32CpuStep connected m h) (sysCpuStep connected m h) := by
  have hcases := sysCpuStep_cases connected m h
  unfold nestedTurns at hnil
  cases hjob : stepJob connected m h with
  | none =>
    rw [hjob] at hcases
    exact hcases
  | some job =>
    obtain ⟨t, m'⟩ := job
    rw [hjob] at hcases hnil
    rw [hcases.2, workerJobLoop_of_jobTurns_eq_nil (List.map_eq_nil_iff.mp hnil)]
    exact hcases.1

/-! ### Steps without a hit -/

/-- Neither the fetch nor the data access of the next instruction of hart `h` hits a watchpoint. -/
def NoHit (connected : Bool) (m : Machine) (h : Nat) : Prop :=
  accessHit connected m.dbg .load (m.hart h).pc 4 = none ∧
    ∀ kind addr size, pendingAccess m h = some (kind, addr, size) →
      accessHit connected m.dbg kind addr size = none

/-- What instructions that hit no watchpoint leave alone. -/
structure NoHitFrame (m m' : Machine) : Prop where
  dbg : m'.dbg = m.dbg
  stopHart : m'.sys.stopHart = m.sys.stopHart
  halted : ∀ k, (m.hart k).halted → (m'.hart k).halted

theorem HartFrame.noHitFrame {m m' : Machine} (h : HartFrame m m') : NoHitFrame m m' :=
  ⟨h.dbg, h.sys.stopHart, h.sys.halted⟩

namespace NoHitFrame

theorem refl (m : Machine) : NoHitFrame m m := (HartFrame.refl m).noHitFrame

theorem trans {m₁ m₂ m₃ : Machine} (h₁ : NoHitFrame m₁ m₂) (h₂ : NoHitFrame m₂ m₃) :
    NoHitFrame m₁ m₃ where
  dbg := h₂.dbg.trans h₁.dbg
  stopHart := h₂.stopHart.trans h₁.stopHart
  halted k h := h₂.halted k (h₁.halted k h)

theorem log (m : Machine) (e : HartEvent) : NoHitFrame m (m.log e) := ⟨rfl, rfl, fun _ h => h⟩

theorem checkAccess {kind : AccessKind} {connected : Bool} {m : Machine} {h : Nat} {addr : Word}
    {size : Nat} (hno : accessHit connected m.dbg kind addr size = none) :
    NoHitFrame m (checkAccess kind connected m h addr size) := by
  rw [checkAccess_of_none hno]
  exact refl m

theorem rv32CpuStep {connected : Bool} {m : Machine} {h : Nat}
    (hno : (m.hart h).running → NoHit connected m h) :
    NoHitFrame m (rv32CpuStep connected m h) := by
  by_cases hrun : (m.hart h).running
  · obtain ⟨hfetch, hdata⟩ := hno hrun
    obtain ⟨m₁, h₁, h₂⟩ := rv32CpuStep_cases connected hrun
    have hstart : NoHitFrame m m₁ := ((log m _).trans (checkAccess hfetch)).trans h₁.noHitFrame
    cases hacc : pendingAccess m h with
    | none =>
      rw [hacc] at h₂
      exact hstart.trans h₂.noHitFrame
    | some access =>
      obtain ⟨kind, addr, size⟩ := access
      rw [hacc] at h₂
      have hnone : accessHit connected m₁.dbg kind addr size = none :=
        hstart.dbg ▸ hdata kind addr size hacc
      exact ((hstart.trans (log m₁ _)).trans (checkAccess hnone)).trans h₂.noHitFrame
  · rw [Rv32Gdb.rv32CpuStep, if_pos (by simpa using hrun)]
    exact refl m

theorem workerJobLoop {connected : Bool} {h guard : Nat} {m : Machine}
    (hno : ∀ m' ∈ jobTurns connected h guard m, NoHit connected m' h) :
    NoHitFrame m (workerJobLoop connected h guard m) := by
  induction guard generalizing m with
  | zero => exact refl m
  | succ guard ih =>
    rw [jobTurns] at hno
    rw [Rv32Gdb.workerJobLoop]
    simp only at hno ⊢
    split_ifs at hno ⊢ with hgo hparked
    · exact (log m _).trans (rv32CpuStep fun _ => hno m List.mem_cons_self)
    · exact ((log m _).trans (rv32CpuStep fun _ => hno m List.mem_cons_self)).trans
        (ih fun m' hm' => hno m' (List.mem_cons_of_mem _ hm'))
    · exact refl m

/-- After the instruction, when no worker hits a watchpoint. -/
theorem sysCpuStep {connected : Bool} {m : Machine} {h : Nat}
    (hno : ∀ turn ∈ nestedTurns connected m h, NoHit connected turn.2 turn.1) :
    NoHitFrame (Rv32Gdb.rv32CpuStep connected m h) (sysCpuStep connected m h) := by
  have hcases := sysCpuStep_cases connected m h
  unfold nestedTurns at hno
  cases hjob : stepJob connected m h with
  | none =>
    rw [hjob] at hcases
    exact hcases.noHitFrame
  | some job =>
    obtain ⟨t, m'⟩ := job
    rw [hjob] at hcases hno
    simp only [List.forall_mem_map] at hno
    rw [hcases.2]
    exact hcases.1.noHitFrame.trans (workerJobLoop hno)

end NoHitFrame

/-- Workers execute only while they run. -/
theorem running_of_mem_jobTurns {connected : Bool} {h guard : Nat} {m m' : Machine}
    (hturn : m' ∈ jobTurns connected h guard m) : (m'.hart h).running := by
  induction guard generalizing m with
  | zero => exact absurd hturn List.not_mem_nil
  | succ guard ih =>
    rw [jobTurns] at hturn
    simp only at hturn
    split_ifs at hturn with hgo hparked
    · obtain rfl := List.mem_singleton.mp hturn
      simp only [Bool.and_eq_true] at hgo
      exact hgo.1
    · rcases List.mem_cons.mp hturn with rfl | hturn
      · simp only [Bool.and_eq_true] at hgo
        exact hgo.1
      · exact ih hturn
    · exact absurd hturn List.not_mem_nil

theorem running_of_mem_nestedTurns {connected : Bool} {m : Machine} {h : Nat}
    {turn : Nat × Machine} (hturn : turn ∈ nestedTurns connected m h) :
    (turn.2.hart turn.1).running := by
  unfold nestedTurns at hturn
  cases hjob : stepJob connected m h with
  | none =>
    rw [hjob] at hturn
    exact absurd hturn List.not_mem_nil
  | some job =>
    obtain ⟨t, m'⟩ := job
    rw [hjob] at hturn
    obtain ⟨m'', hm'', rfl⟩ := List.mem_map.mp hturn
    exact running_of_mem_jobTurns hm''

/-! ### The debugger's memory accesses -/

theorem execFrame_rv32CpuWriteMem (connected : Bool) (m : Machine) (h : Nat) (addr value : Word)
    (size : Nat) : ExecFrame m (rv32CpuWriteMem connected m h addr value size) :=
  (ExecFrame.checkAccess _ _ _ _ _ _).trans (HartFrame.rv32CpuWriteMem _ _ _ _ _ _).execFrame

theorem execFrame_smpSyncRunWorkerJobs (connected : Bool) (m : Machine) (hartId : Int) :
    ExecFrame m (smpSyncRunWorkerJobs connected m hartId) := by
  unfold smpSyncRunWorkerJobs
  split_ifs
  · exact ExecFrame.refl m
  · exact ExecFrame.refl m
  · exact (execFrame_workerJobLoop _ _ _ _).1

theorem execFrame_sysWriteMem (connected : Bool) (m : Machine) (src : Nat) (addr value : Word)
    (size : Nat) : ExecFrame m (sysWriteMem connected m src addr value size) := by
  unfold sysWriteMem
  cases hmmio : smpSyncHandleMmio connected m addr value size with
  | some m' =>
    unfold smpSyncHandleMmio at hmmio
    split_ifs at hmmio with h
    obtain rfl := Option.some.inj hmmio
    exact (HartFrame.smpDeliverIpi _ _ _).execFrame.trans (execFrame_smpSyncRunWorkerJobs _ _ _)
  | none =>
    simp only
    split_ifs
    · exact (HartFrame.updSys (SysFrame.smpSyncWriteRam _ _ _ _)).execFrame
    · exact execFrame_rv32CpuWriteMem _ _ _ _ _ _

theorem execFrame_sysReadMem (connected : Bool) (m : Machine) (addr : Word) (size : Nat) :
    ExecFrame m (sysReadMem connected m addr size).2 := by
  unfold sysReadMem
  split_ifs
  · exact ExecFrame.refl m
  · exact ExecFrame.refl m
  · rw [snd_rv32CpuReadMem]
    exact ExecFrame.checkAccess _ _ _ _ _ _

end Rv32Gdb
