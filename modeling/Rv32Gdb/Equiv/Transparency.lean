import Rv32Gdb.Equiv.Reachable
import Rv32Gdb.Equiv.Execution

/-!
# Transparency

A debugger that only looks, stops and resumes chooses which hart executes next, and nothing else.
`transparent`: whatever packets arrive but those that write (`G`, `M`, `P`, `X`) or reset, the
registers, the program counters, the RAM and the instruction counts of all harts are those to which
the turns of the trace lead when no debugger is connected.

`SameProgram` compares two systems up to the flag that halts a hart; in a `Replay` the emulator by
itself gives the harts the turns of a trace, and they execute what the trace shows.  Each step of a
session is replayed so (`Replays`).
-/

namespace Rv32Gdb

/-! ### What the program sees -/

/-- A hart without the flag that the debugger halts it with. -/
def Rv32Cpu.core (c : Rv32Cpu) : Rv32Cpu := { c with halted := false }

/-- The systems differ only in what halts harts and in the harts that the debugger looks at. -/
structure SameProgram (s s' : Rv32System) : Prop where
  numHarts : s'.numHarts = s.numHarts
  core : ∀ h, (s'.harts h).core = (s.harts h).core

theorem core_ite {p : Prop} [Decidable p] {a b a' b' : Rv32Cpu} (ha : a'.core = a.core)
    (hb : b'.core = b.core) : (if p then a' else b').core = (if p then a else b).core := by
  split_ifs
  · exact ha
  · exact hb

/-- A value that does not depend on the flag is the same for harts that differ in that only. -/
theorem apply_of_core_eq {α : Type} {c c' : Rv32Cpu} (h : c'.core = c.core) (f : Rv32Cpu → α)
    (hf : ∀ c : Rv32Cpu, f c.core = f c) : f c' = f c := by
  rw [← hf, h, hf]

theorem core_rv32CpuWriteReg {c c' : Rv32Cpu} (h : c'.core = c.core) (reg : Nat) (value : Word) :
    (rv32CpuWriteReg c' reg value).core = (rv32CpuWriteReg c reg value).core := by
  refine apply_of_core_eq h (fun c => (rv32CpuWriteReg c reg value).core) fun c => ?_
  simp only [rv32CpuWriteReg]
  split_ifs <;> rfl

theorem core_setPc {c c' : Rv32Cpu} (h : c'.core = c.core) (pc : Word) :
    Rv32Cpu.core { c' with pc := pc } = Rv32Cpu.core { c with pc := pc } :=
  apply_of_core_eq h (fun c => Rv32Cpu.core { c with pc := pc }) fun _ => rfl

/-- An instruction without data access does not depend on the flag. -/
theorem core_execHart {c c' : Rv32Cpu} (h : c'.core = c.core) (currentPc i : Word) :
    (execHart currentPc i c').core = (execHart currentPc i c).core := by
  have hread : rv32CpuReadReg c' = rv32CpuReadReg c := apply_of_core_eq h _ fun _ => rfl
  have hpc : c'.pc = c.pc := apply_of_core_eq h _ fun _ => rfl
  have hreg := core_rv32CpuWriteReg h
  have hstop : Rv32Cpu.core { c' with pc := c.pc, running := false } =
      Rv32Cpu.core { c with running := false } :=
    apply_of_core_eq h (fun d => Rv32Cpu.core { d with pc := c.pc, running := false }) fun _ => rfl
  unfold execHart
  rw [hread, hpc]
  exact core_ite (hreg _ _) <| core_ite (hreg _ _) <| core_ite (core_setPc (hreg _ _) _) <|
    core_ite (core_setPc (hreg _ _) _) <| core_ite (core_ite (core_setPc h _) h) <|
    core_ite (hreg _ _) <| core_ite (hreg _ _) <| core_ite (core_ite h h) hstop

namespace SameProgram

variable {s s' s₁ s₂ s₃ : Rv32System}

theorem refl (s : Rv32System) : SameProgram s s := ⟨rfl, fun _ => rfl⟩

theorem symm (hs : SameProgram s s') : SameProgram s' s :=
  ⟨hs.numHarts.symm, fun h => (hs.core h).symm⟩

theorem trans (h₁ : SameProgram s₁ s₂) (h₂ : SameProgram s₂ s₃) : SameProgram s₁ s₃ :=
  ⟨h₂.numHarts.trans h₁.numHarts, fun h => (h₂.core h).trans (h₁.core h)⟩

theorem hartId (hs : SameProgram s s') (h : Nat) : (s'.harts h).hartId = (s.harts h).hartId :=
  apply_of_core_eq (hs.core h) _ fun _ => rfl

theorem pc (hs : SameProgram s s') (h : Nat) : (s'.harts h).pc = (s.harts h).pc :=
  apply_of_core_eq (hs.core h) _ fun _ => rfl

theorem running (hs : SameProgram s s') (h : Nat) : (s'.harts h).running = (s.harts h).running :=
  apply_of_core_eq (hs.core h) _ fun _ => rfl

theorem regs (hs : SameProgram s s') (h : Nat) : (s'.harts h).regs = (s.harts h).regs :=
  apply_of_core_eq (hs.core h) _ fun _ => rfl

theorem readReg (hs : SameProgram s s') (h : Nat) :
    rv32CpuReadReg (s'.harts h) = rv32CpuReadReg (s.harts h) :=
  apply_of_core_eq (hs.core h) _ fun _ => rfl

/-- A change of one hart in both. -/
theorem updHart (hs : SameProgram s s') (h : Nat) {f : Rv32Cpu → Rv32Cpu}
    (hf : (f (s'.harts h)).core = (f (s.harts h)).core) :
    SameProgram (s.updHart h f) (s'.updHart h f) := by
  refine ⟨hs.numHarts, fun k => ?_⟩
  rw [Rv32System.harts_updHart, Rv32System.harts_updHart]
  split_ifs
  · exact hf
  · exact hs.core k

/-! ### RAM -/

theorem ramOwner (hs : SameProgram s s') (h : Nat) : s'.ramOwner h = s.ramOwner h :=
  apply_of_core_eq (hs.core h) (fun c => c.sharedRam.getD h) fun _ => rfl

theorem ramLoad (hs : SameProgram s s') (h : Nat) (off : BitVec 16) (size : Nat) :
    s'.ramLoad h off size = s.ramLoad h off size := by
  have hram : ∀ o, s'.ram h o = s.ram h o := by
    intro o
    rw [Rv32System.ram, hs.ramOwner]
    exact apply_of_core_eq (hs.core (s.ramOwner h)) (fun c => c.memory o) fun _ => rfl
  unfold Rv32System.ramLoad
  split <;> simp only [hram]

theorem setRam (hs : SameProgram s s') (h : Nat) (off : BitVec 16) (b : Byte) :
    SameProgram (s.setRam h off b) (s'.setRam h off b) := by
  rw [Rv32System.setRam, Rv32System.setRam, hs.ramOwner]
  exact hs.updHart _ (apply_of_core_eq (hs.core _)
    (fun c => Rv32Cpu.core { c with memory := Function.update c.memory off b }) fun _ => rfl)

theorem ramStore (hs : SameProgram s s') (h : Nat) (off : BitVec 16) (value : Word) (size : Nat) :
    SameProgram (s.ramStore h off value size) (s'.ramStore h off value size) := by
  unfold Rv32System.ramStore
  split
  · exact hs.setRam _ _ _
  · exact (hs.setRam _ _ _).setRam _ _ _
  · exact (((hs.setRam _ _ _).setRam _ _ _).setRam _ _ _).setRam _ _ _
  · exact hs

theorem ramWrite32 (hs : SameProgram s s') (addr value : Word) :
    SameProgram (ramWrite32 s addr value) (ramWrite32 s' addr value) := by
  unfold Rv32Gdb.ramWrite32
  split_ifs
  · exact hs.ramStore _ _ _ _
  · exact hs

theorem smpDeliverIpi (hs : SameProgram s s') (targetHart : Int) (workItem : Word) :
    SameProgram (smpDeliverIpi s targetHart workItem) (smpDeliverIpi s' targetHart workItem) := by
  unfold Rv32Gdb.smpDeliverIpi
  rw [hs.numHarts]
  split_ifs
  · exact hs
  · exact ((hs.ramWrite32 _ _).ramWrite32 _ _).ramWrite32 _ _

/-! ### Instructions -/

theorem checkAccess (kind : AccessKind) (connected : Bool) (m : Machine) (h : Nat) (addr : Word)
    (size : Nat) : SameProgram m.sys (checkAccess kind connected m h addr size).sys := by
  refine ⟨(ExecFrame.checkAccess kind connected m h addr size).numHarts, fun k => ?_⟩
  obtain ⟨b, hb⟩ := harts_checkAccess kind connected m h addr size k
  show ((Rv32Gdb.checkAccess kind connected m h addr size).hart k).core = (m.hart k).core
  rw [hb]
  rfl

section Machines

variable {m m' : Machine}

/-- Writing the same value to a register in both. -/
theorem writeReg (hs : SameProgram m.sys m'.sys) (h reg : Nat) (value : Word) :
    SameProgram (m.updHart h fun c => rv32CpuWriteReg c reg value).sys
      (m'.updHart h fun c => rv32CpuWriteReg c reg value).sys :=
  hs.updHart h (f := fun c => rv32CpuWriteReg c reg value)
    (core_rv32CpuWriteReg (hs.core h) reg value)

/-- Logging an event in both. -/
theorem log (hs : SameProgram m.sys m'.sys) (e : HartEvent) :
    SameProgram (m.log e).sys (m'.log e).sys := hs

theorem checkAccess₂ (hs : SameProgram m.sys m'.sys) (kind : AccessKind) (c c' : Bool) (h : Nat)
    (addr : Word) (size : Nat) : SameProgram (Rv32Gdb.checkAccess kind c m h addr size).sys
      (Rv32Gdb.checkAccess kind c' m' h addr size).sys :=
  ((checkAccess kind c m h addr size).symm.trans hs).trans (checkAccess kind c' m' h addr size)

theorem fetched (hs : SameProgram m.sys m'.sys) (h : Nat) : fetched m' h = fetched m h := by
  have hpc : (m'.hart h).pc = (m.hart h).pc := hs.pc h
  rw [Rv32Gdb.fetched, hpc, hs.ramLoad, Rv32Gdb.fetched]

theorem execLoad (hs : SameProgram m.sys m'.sys) (c c' : Bool) (h : Nat) (i : Word) :
    SameProgram (execLoad c m h i).sys (execLoad c' m' h i).sys := by
  have hread : rv32CpuReadReg (m'.hart h) = rv32CpuReadReg (m.hart h) := hs.readReg h
  unfold Rv32Gdb.execLoad
  rw [hread]
  cases loadSize (funct3Field i) with
  | none => exact hs.writeReg h _ _
  | some size =>
    simp only [rv32CpuReadMem]
    set addr := rv32CpuReadReg (m.hart h) (rs1Field i) + signExtend (immI i) 12
    have hcheck := (hs.log (.access h .load addr size)).checkAccess₂ .load c c' h addr size
    rw [hcheck.ramLoad]
    exact hcheck.writeReg h _ _

theorem rv32CpuWriteMem (hs : SameProgram m.sys m'.sys) (c c' : Bool) (h : Nat) (addr value : Word)
    (size : Nat) : SameProgram (rv32CpuWriteMem c m h addr value size).sys
      (rv32CpuWriteMem c' m' h addr value size).sys := by
  have hcheck := hs.checkAccess₂ .store c c' h addr size
  unfold Rv32Gdb.rv32CpuWriteMem
  simp only
  split_ifs
  · exact hcheck.ramStore _ _ _ _
  · exact hcheck

theorem execStore (hs : SameProgram m.sys m'.sys) (c c' : Bool) (h : Nat) (i : Word) :
    SameProgram (execStore c m h i).sys (execStore c' m' h i).sys := by
  have hread : rv32CpuReadReg (m'.hart h) = rv32CpuReadReg (m.hart h) := hs.readReg h
  unfold Rv32Gdb.execStore
  rw [hread]
  cases storeSize (funct3Field i) with
  | none => exact hs
  | some size => exact (hs.log (.access h .store _ size)).rv32CpuWriteMem c c' h _ _ size

/-- A hart executes the same instruction with the same effect in both, if it runs. -/
theorem rv32CpuStep (hs : SameProgram m.sys m'.sys) (c c' : Bool) (h : Nat) :
    SameProgram (rv32CpuStep c m h).sys (rv32CpuStep c' m' h).sys := by
  have hpc : (m'.hart h).pc = (m.hart h).pc := hs.pc h
  have hrunning : (m'.hart h).running = (m.hart h).running := hs.running h
  have hafter : SameProgram (afterFetch c m h).sys (afterFetch c' m' h).sys := by
    unfold afterFetch
    rw [hpc]
    have hcheck := (hs.log (.exec h (m.hart h).pc)).checkAccess₂ .load c c' h (m.hart h).pc 4
    exact hcheck.updHart h (apply_of_core_eq (hcheck.core h) (fun c => c.advance.core) fun _ => rfl)
  by_cases hrun : (m.hart h).running
  · rw [rv32CpuStep_of_running c hrun, rv32CpuStep_of_running c' (hrunning.trans hrun), hs.fetched,
      hpc]
    split_ifs
    · exact hafter.execLoad c c' h _
    · exact hafter.execStore c c' h _
    · exact hafter.updHart h (core_execHart (hafter.core h) (m.hart h).pc _)
  · rw [Rv32Gdb.rv32CpuStep, if_pos (by simpa using hrun), Rv32Gdb.rv32CpuStep, hrunning,
      if_pos (by simpa using hrun)]
    exact hs

/-- The instruction that comes next makes the same data access. -/
theorem turnEvents (hs : SameProgram m.sys m'.sys) (h : Nat) :
    turnEvents h m' = turnEvents h m := by
  have hpc : (m'.hart h).pc = (m.hart h).pc := hs.pc h
  have hrunning : (m'.hart h).running = (m.hart h).running := hs.running h
  have hread : rv32CpuReadReg (m'.hart h) = rv32CpuReadReg (m.hart h) := hs.readReg h
  have hpending : pendingAccess m' h = pendingAccess m h := by
    unfold pendingAccess
    rw [hs.fetched, hread]
  rw [Rv32Gdb.turnEvents, execEvents, hpc, hrunning, hpending, Rv32Gdb.turnEvents, execEvents]

end Machines

end SameProgram

/-! ### The emulator by itself -/

/-- The system alone, without a client. -/
def Rv32System.alone (s : Rv32System) : Machine where
  dbg := DebugState.init .x32
  sim := { sys := s, interruptReceived := false, trace := [] }

/-- `rv32_cpu_step` without a client. -/
def Rv32System.step (s : Rv32System) (h : Nat) : Rv32System := (rv32CpuStep false s.alone h).sys

/-- `sys_post_step` up to the job: the counter that hart `0` has stored is published. -/
def Rv32System.publish (s : Rv32System) (h : Nat) (prevPc : Word) : Rv32System :=
  let counter := (s.harts h).regs regT1
  if s.numHarts ≤ 1 ∨ ¬((s.harts h).hartId = 0 ∧ prevPc = loopStore) then s
  else smpDeliverIpi s (smpWorkerTarget s counter) counter

theorem hartId_publish (s : Rv32System) (h : Nat) (prevPc : Word) (k : Nat) :
    ((s.publish h prevPc).harts k).hartId = (s.harts k).hartId := by
  unfold Rv32System.publish
  simp only
  split_ifs
  · rfl
  · exact (SysFrame.smpDeliverIpi _ _ _).hartId k

/-- The emulator by itself gives the harts the turns of a trace, and each executes what the trace
shows: the instruction at its program counter if it runs, nothing if it does not.  A breakpoint may
take the place of a turn. -/
inductive Replay : Rv32System → List HartEvent → Rv32System → Prop
  | done (s : Rv32System) : Replay s [] s
  | turn {s s' : Rv32System} {events : List HartEvent} (h : Nat)
      (hrest : Replay ((s.step h).publish h (s.harts h).pc) events s') :
      Replay s (turnEvents h s.alone ++ events) s'
  | stopped {s s' : Rv32System} {events : List HartEvent} (h : Nat) (hrest : Replay s events s') :
      Replay s (.turn h (s.harts h).pc :: events) s'

theorem Replay.append {s₁ s₂ s₃ : Rv32System} {events₁ events₂ : List HartEvent}
    (h₁ : Replay s₁ events₁ s₂) (h₂ : Replay s₂ events₂ s₃) :
    Replay s₁ (events₁ ++ events₂) s₃ := by
  induction h₁ with
  | done => exact h₂
  | turn h _ ih =>
    rw [List.append_assoc]
    exact .turn h (ih h₂)
  | stopped h _ ih => exact .stopped h (ih h₂)

namespace SameProgram

variable {s s' : Rv32System} {m : Machine}

theorem publish (hs : SameProgram s s') (h : Nat) (prevPc : Word) :
    SameProgram (s.publish h prevPc) (s'.publish h prevPc) := by
  have htarget : smpWorkerTarget s' = smpWorkerTarget s := by
    funext item
    rw [smpWorkerTarget, hs.numHarts, smpWorkerTarget]
  unfold Rv32System.publish
  rw [hs.numHarts, hs.hartId, hs.regs, htarget]
  simp only
  split_ifs
  · exact hs
  · exact hs.smpDeliverIpi _ _

end SameProgram

/-- The emulator by itself leads from `m` to `m'` with the turns that the trace shows. -/
def Replays (m m' : Machine) : Prop :=
  ∃ events, m'.sim.trace = m.sim.trace ++ events ∧
    ∀ s, SameProgram s m.sys → ∃ s', Replay s events s' ∧ SameProgram s' m'.sys

/-- From `m` to `m'` hart `h` gets its turn. -/
structure BeginsTurn (h : Nat) (m m' : Machine) : Prop where
  trace : m'.sim.trace = m.sim.trace ++ [.turn h (m'.hart h).pc]
  same : SameProgram m.sys m'.sys

theorem beginsTurn_log (m : Machine) (h : Nat) : BeginsTurn h m (m.log (.turn h (m.hart h).pc)) :=
  ⟨rfl, SameProgram.refl _⟩

namespace Replays

variable {m m' m₁ m₂ m₃ : Machine}

theorem trans (h₁ : Replays m₁ m₂) (h₂ : Replays m₂ m₃) : Replays m₁ m₃ := by
  obtain ⟨events₁, htrace₁, hreplay₁⟩ := h₁
  obtain ⟨events₂, htrace₂, hreplay₂⟩ := h₂
  refine ⟨events₁ ++ events₂, ?_, fun s hs => ?_⟩
  · rw [htrace₂, htrace₁, List.append_assoc]
  · obtain ⟨s₂, hrun₁, hs₂⟩ := hreplay₁ s hs
    obtain ⟨s₃, hrun₂, hs₃⟩ := hreplay₂ s₂ hs₂
    exact ⟨s₃, hrun₁.append hrun₂, hs₃⟩

/-- What leaves what the program sees. -/
theorem of_sameProgram (htrace : m'.sim.trace = m.sim.trace) (hs : SameProgram m.sys m'.sys) :
    Replays m m' :=
  ⟨[], htrace.trans (List.append_nil _).symm, fun s h => ⟨s, .done s, h.trans hs⟩⟩

theorem refl (m : Machine) : Replays m m := of_sameProgram rfl (SameProgram.refl _)

/-! ### Harts -/

/-- A breakpoint stops a hart in its turn. -/
theorem of_beginsTurn {h : Nat} (hturn : BeginsTurn h m m') : Replays m m' := by
  refine ⟨_, hturn.trace, fun s hs => ⟨s, ?_, hs.trans hturn.same⟩⟩
  have hpc : (m'.hart h).pc = (s.harts h).pc := (hs.trans hturn.same).pc h
  rw [hpc]
  exact .stopped h (.done s)

/-- An instruction, after which the counter may be published. -/
theorem rv32CpuStep_publish {h : Nat} (hturn : BeginsTurn h m m₁) (connected : Bool) :
    Replays m ((rv32CpuStep connected m₁ h).updSys fun s => s.publish h (m₁.hart h).pc) := by
  refine ⟨turnEvents h m₁, ?_, fun s hs => ?_⟩
  · have htrace := trace_rv32CpuStep connected m₁ h
    rw [hturn.trace, List.append_assoc] at htrace
    exact htrace
  · have halone : SameProgram s.alone.sys m₁.sys := hs.trans hturn.same
    have hpc : (m₁.hart h).pc = (s.harts h).pc := halone.pc h
    refine ⟨(s.step h).publish h (s.harts h).pc, ?_, ?_⟩
    · rw [halone.turnEvents, ← List.append_nil (turnEvents h s.alone)]
      exact .turn h (.done _)
    · rw [hpc]
      exact (halone.rv32CpuStep false connected h).publish h _

/-- An instruction of a worker: nothing is published. -/
theorem rv32CpuStep {h : Nat} (hturn : BeginsTurn h m m₁) (connected : Bool)
    (hid : (m.hart h).hartId ≠ 0) : Replays m (rv32CpuStep connected m₁ h) := by
  have hstep := rv32CpuStep_publish hturn connected
  set m₂ := Rv32Gdb.rv32CpuStep connected m₁ h
  have hid' : (m₂.sys.harts h).hartId = (m.hart h).hartId :=
    ((execFrame_rv32CpuStep connected m₁ h).hartId h).trans (hturn.same.hartId h)
  have hnone : m₂.sys.publish h (m₁.hart h).pc = m₂.sys :=
    if_pos (Or.inr fun hzero => hid (hid'.symm.trans hzero.1))
  have hsame : m₂.updSys (fun s => s.publish h (m₁.hart h).pc) = m₂ := by
    show ({ m₂ with sim := { m₂.sim with sys := m₂.sys.publish h (m₁.hart h).pc } } : Machine) = m₂
    rw [hnone]
    rfl
  rwa [hsame] at hstep

theorem workerJobLoop (connected : Bool) {h : Nat} (guard : Nat) (hid : (m.hart h).hartId ≠ 0) :
    Replays m (workerJobLoop connected h guard m) := by
  induction guard generalizing m with
  | zero => exact refl m
  | succ guard ih =>
    rw [Rv32Gdb.workerJobLoop]
    split_ifs with hgo
    · have hstep : Replays m (Rv32Gdb.rv32CpuStep connected (m.log (.turn h (m.hart h).pc)) h) :=
        rv32CpuStep (beginsTurn_log m h) connected hid
      have hid' := (execFrame_rv32CpuStep connected (m.log (.turn h (m.hart h).pc)) h).hartId h
      simp only
      split_ifs
      · exact hstep
      · exact hstep.trans (ih (hid'.trans_ne hid))
    · exact refl m

/-- After an instruction the counter is published, and a worker may do the job. -/
theorem sysPostStep_cases (connected : Bool) (m : Machine) (h : Nat) (prevPc : Word) :
    sysPostStep connected m h prevPc = m.updSys (fun s => s.publish h prevPc) ∨
      ∃ t, 0 < t ∧ t < m.sys.numHarts ∧ sysPostStep connected m h prevPc =
        Rv32Gdb.workerJobLoop connected t 128 (m.updSys fun s => s.publish h prevPc) := by
  by_cases hskip : m.sys.numHarts ≤ 1 ∨ ¬((m.hart h).hartId = 0 ∧ prevPc = loopStore)
  · refine Or.inl ?_
    have hnone : m.updSys (fun s => s.publish h prevPc) = m := by
      have hsys : m.sys.publish h prevPc = m.sys := if_pos hskip
      show ({ m with sim := { m.sim with sys := m.sys.publish h prevPc } } : Machine) = m
      rw [hsys]
      rfl
    rw [hnone, sysPostStep]
    rcases hskip with hone | hstore
    · rw [if_pos hone]
    · rw [if_neg hstore, ite_self]
  · set counter := (m.hart h).regs regT1 with hcounter
    have hpublish : m.updSys (fun s => s.publish h prevPc) =
        m.updSys fun s => smpDeliverIpi s (smpWorkerTarget m.sys counter) counter := by
      have hsys : m.sys.publish h prevPc =
          smpDeliverIpi m.sys (smpWorkerTarget m.sys counter) counter := if_neg hskip
      show ({ m with sim := { m.sim with sys := m.sys.publish h prevPc } } : Machine) = _
      rw [hsys]
      rfl
    rw [not_or, not_not] at hskip
    have hpos : 0 < smpWorkerTarget m.sys counter := by
      rw [smpWorkerTarget, if_neg hskip.1]
      omega
    have hnum := (HartFrame.smpDeliverIpi m (smpWorkerTarget m.sys counter) counter).sys.numHarts
    rw [hpublish, sysPostStep, if_neg hskip.1, if_pos hskip.2, ← hcounter, smpSyncOnCounterStore,
      if_neg (by simpa using hskip.1)]
    simp only
    rw [if_neg (by omega), smpSyncRunWorkerJobs]
    split_ifs with hrange hidle
    · exact Or.inl rfl
    · exact Or.inl rfl
    · exact Or.inr ⟨(smpWorkerTarget m.sys counter).toNat, by omega, by omega, rfl⟩

/-- A step of a hart, with the job that it starts. -/
theorem sysCpuStep {n : Nat} {h : Nat} (hs : SystemInv n m₁.sys) (hturn : BeginsTurn h m m₁)
    (connected : Bool) : Replays m (sysCpuStep connected m₁ h) := by
  have hpublished := rv32CpuStep_publish hturn connected
  set m₂ := Rv32Gdb.rv32CpuStep connected m₁ h
  rcases sysPostStep_cases connected m₂ h (m₁.hart h).pc with hpost | ⟨t, hpos, hlt, hpost⟩
  · rw [Rv32Gdb.sysCpuStep, hpost]
    exact hpublished
  · rw [Rv32Gdb.sysCpuStep, hpost]
    refine hpublished.trans (workerJobLoop connected 128 ?_)
    have hframe := execFrame_rv32CpuStep connected m₁ h
    have ht : t < n := by
      rw [← hs.numHarts]
      exact hlt.trans_eq hframe.numHarts
    have hid : ((m₂.sys.publish h (m₁.hart h).pc).harts t).hartId = t := by
      rw [hartId_publish]
      exact (hframe.hartId t).trans (hs.hart t ht).hartId
    show ((m₂.sys.publish h (m₁.hart h).pc).harts t).hartId ≠ 0
    omega

/-! ### The debugger -/

theorem sameProgram_of_prelude {w v : EmuWorld} {events : List HartEvent}
    (hpre : Prelude w v events) : SameProgram w.toTarget.sys v.toTarget.sys := by
  refine ⟨hpre.numHarts, fun k => ?_⟩
  show (v.toTarget.hart k).core = (w.toTarget.hart k).core
  rw [hpre.hart k]
  rfl

/-- A signal that is delivered. -/
theorem signaled (s : Session) (e : Event) : Replays s.world.toTarget (s.signaled e).toTarget := by
  have hpre := Prelude.signaled s e
  exact of_sameProgram (hpre.trace.trans (List.append_nil _)) (sameProgram_of_prelude hpre)

/-- A change of what stops the harts below `numHarts`. -/
theorem forHarts (m : Machine) {f : Nat → Rv32Cpu → Rv32Cpu} {g : Rv32System → Rv32System}
    (hf : ∀ h c, (f h c).core = c.core) (hnum : (g m.sys).numHarts = (m.sys.forHarts f).numHarts)
    (hg : (g m.sys).harts = (m.sys.forHarts f).harts) : Replays m (m.updSys g) := by
  refine of_sameProgram rfl ⟨?_, fun k => ?_⟩
  · show (g m.sys).numHarts = m.sys.numHarts
    rw [hnum, Rv32System.forHarts_eq]
  · show ((g m.sys).harts k).core = (m.sys.harts k).core
    rw [hg, Rv32System.forHarts_eq]
    simp only
    split_ifs
    · exact hf _ _
    · rfl

theorem sysResumeRunnable (m : Machine) : Replays m (sysResumeRunnable m) := by
  refine forHarts m (fun h c => ?_) rfl rfl
  split_ifs <;> rfl

theorem gdbHaltCpus (m : Machine) : Replays m (gdbHaltCpus m) :=
  forHarts m (f := fun _ => Rv32Cpu.halt) (fun _ _ => rfl) rfl rfl

theorem sysReadMem (connected : Bool) (m : Machine) (addr : Word) (size : Nat) :
    Replays m (sysReadMem connected m addr size).2 := by
  unfold Rv32Gdb.sysReadMem
  split_ifs
  · exact refl m
  · exact refl m
  · exact of_sameProgram (trace_checkAccess _ _ _ _ _ _) (SameProgram.checkAccess _ _ _ _ _ _)

theorem gdbSetFocusHart (m : Machine) (hart : Int) : Replays m (gdbSetFocusHart m hart) := by
  refine of_sameProgram rfl ?_
  show SameProgram m.sys (if 0 ≤ hart ∧ hart < m.sys.numHarts then
    { m.sys with focusHart := hart.toNat } else m.sys)
  split_ifs
  · exact ⟨rfl, fun _ => rfl⟩
  · exact SameProgram.refl _

theorem gdbStubSendStopReason (w : EmuWorld) (signal : Int) (addr : Word) :
    Replays w.toTarget (gdbStubSendStopReason w signal addr).toTarget := by
  have hsim := sim_gdbStubSendStopReason w signal addr
  refine of_sameProgram (by rw [hsim]) ?_
  show SameProgram w.sim.sys (Rv32Gdb.gdbStubSendStopReason w signal addr).sim.sys
  rw [hsim]
  exact SameProgram.refl _

theorem handleHartStop (w : EmuWorld) (h : Nat) (signal : Int) :
    Replays w.toTarget (handleHartStop w h signal).toTarget := by
  have hselect : Replays w.toTarget (w.toTarget.updSys fun s => { s with
      stopHart := (w.toTarget.hart h).hartId, focusHart := (w.toTarget.hart h).hartId }) :=
    of_sameProgram rfl ⟨rfl, fun _ => rfl⟩
  exact hselect.trans (gdbStubSendStopReason _ _ _)

end Replays

/-! ### Commands -/

section Commands

variable {x : Xlen} {σ : Type}

/-- The commands that write to the target or reset it. -/
def writingCommands : List Byte := [chr 'G', chr 'M', chr 'P', chr 'X', chr 'R']

/-- The callbacks without those that write. -/
def GdbCallbacks.readOnly (cb : GdbCallbacks x σ) : GdbCallbacks x σ :=
  { cb with
    writeReg := fun _ t _ _ => t
    writeMem := fun _ t _ _ _ => t
    setPc := fun _ t _ => t }

theorem matchPattern_readOnly (cb : GdbCallbacks x σ) (addr : GdbAddr x) (i : Nat)
    (pattern : List Byte) (w : World x σ) :
    matchPattern cb.readOnly addr i pattern w = matchPattern cb addr i pattern w := by
  induction pattern using List.twoStepInduction generalizing i w with
  | nil => rfl
  | singleton c => rfl
  | cons_cons hi lo rest ih =>
    rw [matchPattern, matchPattern]
    exact ite_congr rfl (fun _ => rfl) fun _ => ih _ _

theorem searchLoop_readOnly (cb : GdbCallbacks x σ) (last : GdbAddr x) (pattern : List Byte)
    (fuel : Nat) (addr : GdbAddr x) (w : World x σ) :
    searchLoop cb.readOnly last pattern fuel addr w = searchLoop cb last pattern fuel addr w := by
  induction fuel generalizing addr w with
  | zero => rfl
  | succ fuel ih =>
    rw [searchLoop, searchLoop, matchPattern_readOnly]
    simp only [ih]

theorem handleQuery_readOnly (fuel : Nat) (cb : GdbCallbacks x σ) (w : World x σ) :
    handleQuery fuel cb.readOnly w = handleQuery fuel cb w := by
  have hsearch : handleSearchMemory fuel cb.readOnly w = handleSearchMemory fuel cb w := by
    unfold handleSearchMemory
    simp only [searchLoop_readOnly]
  unfold handleQuery
  rw [hsearch]
  rfl

theorem readMemoryLoop_readOnly (cb : GdbCallbacks x σ) (addr : GdbAddr x) (n i : Nat)
    (w : World x σ) (p : CharArray gdbBufferSize) :
    readMemoryLoop cb.readOnly addr n i w p = readMemoryLoop cb addr n i w p := by
  induction n generalizing i w p with
  | zero => rfl
  | succ n ih =>
    rw [readMemoryLoop, readMemoryLoop]
    simp only [ih]
    rfl

theorem handleReadMemory_readOnly (cb : GdbCallbacks x σ) (w : World x σ) :
    handleReadMemory cb.readOnly w = handleReadMemory cb w := by
  unfold handleReadMemory
  simp only [readMemoryLoop_readOnly]

theorem handleSetThread_readOnly (cb : GdbCallbacks x σ) (w : World x σ) :
    handleSetThread cb.readOnly w = handleSetThread cb w := rfl

/-- The other commands never call the callbacks that write. -/
theorem dispatch_readOnly (fuel : Nat) (cb : GdbCallbacks x σ) {w : World x σ}
    (hcmd : byteAt w.stub.packetBuffer 0 ∉ writingCommands) :
    dispatch fuel cb.readOnly w = dispatch fuel cb w := by
  have hinterrupt : handleInterrupt cb.readOnly w = handleInterrupt cb w := rfl
  have hreason : handleHaltReason cb.readOnly w = handleHaltReason cb w := rfl
  have hregisters : handleReadRegisters cb.readOnly w = handleReadRegisters cb w := rfl
  have hregister : handleReadSingleRegister cb.readOnly w = handleReadSingleRegister cb w := rfl
  have halive : handleThreadAlive cb.readOnly w = handleThreadAlive cb w := rfl
  have hvcont : handleVcont cb.readOnly w = handleVcont cb w := rfl
  have hcontinue : handleContinue cb.readOnly w = handleContinue cb w := rfl
  have hstep : handleStep cb.readOnly w = handleStep cb w := rfl
  simp only [writingCommands, List.mem_cons, not_or, List.not_mem_nil, not_false_eq_true,
    and_true] at hcmd
  obtain ⟨hG, hM, hP, hX, hR⟩ := hcmd
  unfold dispatch
  simp only [if_neg hG, if_neg hM, if_neg hP, if_neg hX, if_neg hR]
  rw [hinterrupt, hreason, handleQuery_readOnly, hregisters, handleReadMemory_readOnly, hregister,
    handleSetThread_readOnly, halive, hvcont, hcontinue, hstep]

end Commands

namespace Replays

variable {m : Machine}

theorem handlerInvariant (m : Machine) :
    HandlerInvariant emuCallbacks.readOnly fun w => Replays m w.toTarget where
  send _ _ h := h
  setBuffer _ _ h := h
  updDbg _ _ _ h := h
  noAckMode _ h := h
  readReg _ _ h := h
  writeReg _ _ _ h := h
  readMem _ _ _ h := h.trans (sysReadMem _ _ _ _)
  writeMem _ _ _ _ h := h
  getPc _ h := h
  setPc _ _ h := h
  resume _ h := h.trans (sysResumeRunnable _)
  getNumHarts _ _ h := h
  haltCpus _ h := h.trans (gdbHaltCpus _)

theorem handleSetThread {w : EmuWorld} (h : Replays m w.toTarget) :
    Replays m (handleSetThread emuCallbacks w).toTarget := by
  unfold Rv32Gdb.handleSetThread
  simp only [snd_selectedThread]
  split_ifs
  · exact h
  · exact h
  · exact h
  · exact h.trans (gdbSetFocusHart _ _)
  · exact h
  · exact h

/-- A command that does not write. -/
theorem dispatch {fuel : Nat} {w : EmuWorld} {r : Int × EmuWorld}
    (hcmd : byteAt w.stub.packetBuffer 0 ∉ writingCommands)
    (hret : dispatch fuel emuCallbacks w = .ok r) : Replays w.toTarget r.2.toTarget := by
  obtain ⟨v, w'⟩ := r
  by_cases hneg : v < 0
  · rcases dispatch_of_neg hret hneg with rfl | rfl
    · exact refl _
    · exact refl _
  · rw [← dispatch_readOnly fuel emuCallbacks hcmd] at hret
    have hreset : byteAt w.stub.packetBuffer 0 ≠ chr 'R' := fun h =>
      hcmd (h ▸ by decide)
    have hset : Replays w.toTarget (Rv32Gdb.handleSetThread emuCallbacks.readOnly w).toTarget := by
      rw [handleSetThread_readOnly]
      exact handleSetThread (refl _)
    exact (handlerInvariant w.toTarget).dispatch (w := w) fuel (refl _) (fun _ => hset)
      (fun h => absurd h hreset) v w' hret (not_lt.mp hneg)

/-- A step of a running target. -/
theorem runStep {debugMode : Bool} {e : Event} {s s' : Session} {n : Nat}
    (hs : MachineInv n s.world.toTarget) (hrun : s.Running)
    (hstep : sessionStep debugMode e s = .ok s') : Replays s.world.toTarget s'.world.toTarget := by
  cases hturn : s.begunTurn debugMode e with
  | none =>
    have hsignal := signaled s e
    rcases runStep_without_turn hrun hturn hstep with ⟨-, hworld⟩ | ⟨-, tid, -, hstop⟩
    · rw [hworld]
      exact hsignal
    · obtain ⟨u, signal, pc, hflag, hworld⟩ := hstop
      have hquiet : Replays (s.signaled e).toTarget u.toTarget := by
        refine of_sameProgram (by rw [hflag.sim]) ?_
        show SameProgram (s.signaled e).sim.sys u.sim.sys
        rw [hflag.sim]
        exact SameProgram.refl _
      rw [hworld]
      exact (hsignal.trans hquiet).trans (gdbStubSendStopReason _ _ _)
  | some turn =>
    obtain ⟨k, v⟩ := turn
    have hpre := prelude_of_begunTurn hturn
    have hbegins : BeginsTurn k s.world.toTarget v.toTarget :=
      ⟨hpre.trace, sameProgram_of_prelude hpre⟩
    have hcases := runStep_of_begunTurn hturn hstep
    split_ifs at hcases with hbp
    · rw [hcases]
      exact (of_beginsTurn hbegins).trans (handleHartStop (v.updDbg _) k 5)
    · have hcpu : Replays s.world.toTarget (v.cpuStep k).toTarget :=
        sysCpuStep (hs.begunTurn hturn).2.sys hbegins _
      rcases hcases with ⟨singleStep, signal, -, rfl⟩ | ⟨rfl, -⟩
      · exact hcpu.trans (handleHartStop ((v.cpuStep k).updDbg _) k signal)
      · exact hcpu

end Replays

/-! ### Sessions -/

/-- A relation between the machines before and after what the harts do and what the commands do that
do not begin with a letter of `excluded`. -/
structure SessionRelation (n : Nat) (excluded : List Byte) (R : Machine → Machine → Prop) :
    Prop where
  refl : ∀ m, R m m
  trans : ∀ {m₁ m₂ m₃}, R m₁ m₂ → R m₂ m₃ → R m₁ m₃
  of_replays : ∀ {m m'}, Replays m m' → R m m'
  zero_not_mem : 0#8 ∉ excluded
  dispatch : ∀ {fuel : Nat} {w : EmuWorld} {r : Int × EmuWorld}, MachineInv n w.toTarget →
    byteAt w.stub.packetBuffer 0 ∉ excluded → dispatch fuel emuCallbacks w = .ok r →
    R w.toTarget r.2.toTarget

/-- What the harts do by themselves and the commands that do not write. -/
theorem sessionRelation_replays (n : Nat) : SessionRelation n writingCommands Replays :=
  ⟨Replays.refl, Replays.trans, id, by decide, fun _ => Replays.dispatch⟩

namespace SessionRelation

variable {n : Nat} {excluded : List Byte} {R : Machine → Machine → Prop}
  (hR : SessionRelation n excluded R)

include hR

theorem gdbStubProcess {fuel : Nat} {w : EmuWorld} {r : Int × EmuWorld}
    (hw : MachineInv n w.toTarget) (hallowed : ∀ stub, receivePacket w.stub = .ok (true, stub) →
      ∀ c ∈ stub.packet.head?, c ∉ excluded)
    (hret : gdbStubProcess fuel emuCallbacks w = .ok r) : R w.toTarget r.2.toTarget := by
  obtain ⟨received, stub, hrecv, -⟩ := receivePacket_cases w.stub
  unfold Rv32Gdb.gdbStubProcess at hret
  rw [hrecv] at hret
  split_ifs at hret
  · obtain rfl := Except.ok.inj hret
    exact hR.refl _
  · obtain rfl := Except.ok.inj hret
    exact hR.refl _
  · cases received with
    | false =>
      obtain rfl := Except.ok.inj hret
      exact hR.refl _
    | true =>
      refine hR.dispatch (w := { w with stub := stub }) hw (fun hmem => ?_) hret
      have hne : byteAt stub.packetBuffer 0 ≠ 0#8 := fun hzero =>
        hR.zero_not_mem (hzero ▸ hmem)
      exact hallowed stub hrecv _ (head?_packet hrecv hne) hmem

theorem step {debugMode : Bool} {e : Event} {s s' : Session} (hs : MachineInv n s.world.toTarget)
    (hallowed : ∀ p ∈ s.handled, ∀ c ∈ p.head?, c ∉ excluded)
    (hstep : sessionStep debugMode e s = .ok s') : R s.world.toTarget s'.world.toTarget := by
  by_cases hrun : s.Running
  · exact hR.of_replays (Replays.runStep hs hrun hstep)
  have hsignal : R s.world.toTarget (s.signaled e).toTarget :=
    hR.of_replays (Replays.signaled s e)
  by_cases hwait : s.phase = .waiting
  · rcases step_of_not_running hrun hstep with hworld | ⟨r, hret, hworld⟩
    · rw [hworld]
      exact hsignal
    have hprocess : R s.world.toTarget r.2.toTarget := by
      refine hR.trans hsignal (hR.gdbStubProcess (hs.signaled e) (fun stub hrecv c hc => ?_) hret)
      rw [(Prelude.signaled s e).stub] at hrecv
      exact hallowed _ (packet_mem_handled hwait hrecv) c hc
    rcases hworld with hworld | hworld <;> rw [hworld]
    · exact hprocess
    · exact hR.trans hprocess (hR.of_replays (Replays.sysResumeRunnable _))
  · have hended : s.phase = .ended := not_not.mp fun h => hrun ⟨hwait, h⟩
    rw [sessionStep, hended] at hstep
    obtain rfl := Except.ok.inj hstep
    exact hsignal

/-- The machines before and after a session. -/
theorem of_sessionFrom {debugMode : Bool} {s₀ s : Session} {packets : List (List Byte)}
    (h₀ : MachineInv n s₀.world.toTarget) (hrun : SessionFrom debugMode s₀ packets s)
    (hallowed : ∀ p ∈ packets, ∀ c ∈ p.head?, c ∉ excluded) :
    R s₀.world.toTarget s.world.toTarget := by
  induction hrun with
  | refl => exact hR.refl _
  | step e hrun hstep ih =>
    have hs := machineInv_of_sessionFrom h₀ hrun
    exact hR.trans (ih fun p hp => hallowed p (List.mem_append_left _ hp))
      (hR.step hs (fun p hp => hallowed p (List.mem_append_right _ hp)) hstep)

end SessionRelation

/-- Debugging without writing is transparent: the harts execute what they execute without a client,
and only their order is that of the session. -/
theorem transparent {debugMode : Bool} {n : Nat} {s₀ s : Session} {packets : List (List Byte)}
    (h₀ : MachineInv n s₀.world.toTarget) (hrun : SessionFrom debugMode s₀ packets s)
    (hreads : ∀ p ∈ packets, ∀ c ∈ p.head?, c ∉ writingCommands) :
    ∃ events sys, s.world.sim.trace = s₀.world.sim.trace ++ events ∧
      Replay s₀.world.sim.sys events sys ∧ SameProgram sys s.world.sim.sys := by
  obtain ⟨events, htrace, hreplay⟩ := (sessionRelation_replays n).of_sessionFrom h₀ hrun hreads
  obtain ⟨sys, hreplayed, hsame⟩ := hreplay _ (SameProgram.refl _)
  exact ⟨events, sys, htrace, hreplayed, hsame⟩

/-- The client reads an instruction and steps the first of two harts. -/
def lookingSession : Session :=
  loadedSession 2 (frame (ascii "m80000000,4") ++ frame (ascii "s"))

theorem sessionFrom_lookingSession :
    SessionFrom false lookingSession [ascii "m80000000,4", ascii "s"]
      (lookingSession.after false [.quiet, .quiet, .quiet]) := by
  have hstart : SessionFrom false lookingSession [] lookingSession := .refl
  have hrun := ((hstart.step .quiet (sessionStep_next (by decide +kernel))).step .quiet
    (sessionStep_next (by decide +kernel))).step .quiet (sessionStep_next (by decide +kernel))
  have hpackets : (([] ++ lookingSession.handled) ++ (lookingSession.next false .quiet).handled) ++
      ((lookingSession.next false .quiet).next false .quiet).handled =
        [ascii "m80000000,4", ascii "s"] := by
    decide +kernel
  rwa [hpackets] at hrun

theorem transparent_lookingSession :
    let s := lookingSession.after false [.quiet, .quiet, .quiet]
    ∃ events sys, s.world.sim.trace = lookingSession.world.sim.trace ++ events ∧
      Replay lookingSession.world.sim.sys events sys ∧ SameProgram sys s.world.sim.sys :=
  transparent (machineInv_of_sessionRun (by decide) (sessionRun_loadedSession false 2 _))
    sessionFrom_lookingSession (by decide +kernel)

end Rv32Gdb
