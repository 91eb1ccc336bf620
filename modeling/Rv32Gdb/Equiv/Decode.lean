import Rv32Gdb.Equiv.Isa

/-!
# Illegal instructions

The CPU looks at the opcode to tell whether a word is an instruction: a hart goes on running
(`running_rv32CpuStep`) unless its word is of an unknown opcode, and then it stops with all registers
and the RAM as they were (`stopsAsIllegal_iff`).
-/

namespace Rv32Gdb

open Rv32i

/-- The opcodes in the `switch` of the CPU. -/
def knownOpcode (i : Word) : Bool :=
  i &&& 0x7F ∈ [0x37, 0x17, 0x6F, 0x67, 0x63, 0x03, 0x23, 0x13, 0x33, 0x73]

/-! ### The hart that executes -/

theorem running_rv32CpuWriteReg (c : Rv32Cpu) (reg : Nat) (value : Word) :
    (rv32CpuWriteReg c reg value).running = c.running := by
  unfold rv32CpuWriteReg
  split_ifs <;> rfl

theorem running_execHart (currentPc i : Word) (c : Rv32Cpu)
    (hmem : i &&& 0x7F ≠ 0x03 ∧ i &&& 0x7F ≠ 0x23) :
    (execHart currentPc i c).running = (c.running && knownOpcode i) := by
  let P : Rv32Cpu → Prop := fun c' => c'.running = (c.running && knownOpcode i)
  change P _
  have hreg := fun reg value => running_rv32CpuWriteReg c reg value
  have hknown : ∀ {op : Word} {c' : Rv32Cpu}, i &&& 0x7F = op →
      op ∈ ([0x37, 0x17, 0x6F, 0x67, 0x63, 0x03, 0x23, 0x13, 0x33, 0x73] : List Word) →
      c'.running = c.running → P c' := by
    intro op c' hop hmem h
    show c'.running = (c.running && knownOpcode i)
    rw [knownOpcode, hop, decide_eq_true hmem, Bool.and_true, h]
  unfold execHart
  extract_lets opcode
  refine iteInduction (fun h₁ => hknown h₁ (by decide) (hreg _ _)) fun h₁ => ?_
  refine iteInduction (fun h₂ => hknown h₂ (by decide) (hreg _ _)) fun h₂ => ?_
  refine iteInduction (fun h₃ => hknown h₃ (by decide) (hreg _ _)) fun h₃ => ?_
  refine iteInduction (fun h₄ => hknown h₄ (by decide) (hreg _ _)) fun h₄ => ?_
  refine iteInduction (fun h₅ => ?_) fun h₅ => ?_
  · exact iteInduction (fun _ => hknown h₅ (by decide) rfl) fun _ => hknown h₅ (by decide) rfl
  refine iteInduction (fun h₆ => hknown h₆ (by decide) (hreg _ _)) fun h₆ => ?_
  refine iteInduction (fun h₇ => hknown h₇ (by decide) (hreg _ _)) fun h₇ => ?_
  refine iteInduction (fun h₈ => ?_) fun h₈ => ?_
  · exact iteInduction (fun _ => hknown h₈ (by decide) rfl) fun _ => hknown h₈ (by decide) rfl
  have hunknown : knownOpcode i = false := by
    simp only [knownOpcode, List.mem_cons, List.not_mem_nil, or_false, not_or,
      decide_eq_false_iff_not]
    exact ⟨h₁, h₂, h₃, h₄, h₅, hmem.1, hmem.2, h₆, h₇, h₈⟩
  show false = (c.running && knownOpcode i)
  rw [hunknown, Bool.and_false]

/-! ### The other harts -/

/-- Hart `c'` is hart `c`, with another memory. -/
def OnlyMemory (c c' : Rv32Cpu) : Prop := ∃ memory, c' = { c with memory := memory }

theorem OnlyMemory.refl (c : Rv32Cpu) : OnlyMemory c c := ⟨c.memory, rfl⟩

theorem OnlyMemory.trans {c₁ c₂ c₃ : Rv32Cpu} (h₁ : OnlyMemory c₁ c₂) (h₂ : OnlyMemory c₂ c₃) :
    OnlyMemory c₁ c₃ := by
  obtain ⟨memory₁, rfl⟩ := h₁
  obtain ⟨memory₂, rfl⟩ := h₂
  exact ⟨memory₂, rfl⟩

/-- A data access: the accessing hart may be halted. -/
theorem hart_rv32CpuWriteMem (connected : Bool) (m : Machine) (h : Nat) (addr value : Word)
    (size : Nat) : ∃ b, ∀ k, OnlyMemory (if k = h then { m.hart h with halted := b } else m.hart k)
      ((rv32CpuWriteMem connected m h addr value size).hart k) := by
  obtain ⟨b, hb⟩ := hart_checkAccess .store connected m h addr size
  refine ⟨b, fun k => ?_⟩
  rw [rv32CpuWriteMem, ← hb k]
  split_ifs
  · exact Rv32System.harts_ramStore _ _ _ _ _ _
  · exact .refl _

theorem hart_execLoad (connected : Bool) (m : Machine) (h : Nat) (i : Word) :
    ∃ b value, ∀ k, (execLoad connected m h i).hart k =
      if k = h then rv32CpuWriteReg { m.hart h with halted := b } (rdField i) value
      else m.hart k := by
  rw [execLoad]
  rcases loadSize (funct3Field i) with _ | size
  · refine ⟨(m.hart h).halted, 0, fun k => ?_⟩
    rw [Target.hart_updHart]
  · set addr := rv32CpuReadReg (m.hart h) (rs1Field i) + signExtend (immI i) 12 with haddr
    obtain ⟨b, hb⟩ := hart_checkAccess .load connected (m.log (.access h .load addr size)) h addr size
    set value := (rv32CpuReadMem connected (m.log (.access h .load addr size)) h addr size).1
    refine ⟨b, loadValue (funct3Field i) value, fun k => ?_⟩
    simp only [snd_rv32CpuReadMem]
    rw [Target.hart_updHart, hb, hb, if_pos rfl]
    split_ifs
    · rfl
    · rfl

theorem hart_execStore (connected : Bool) (m : Machine) (h : Nat) (i : Word) :
    ∃ b, ∀ k, OnlyMemory (if k = h then { m.hart h with halted := b } else m.hart k)
      ((execStore connected m h i).hart k) := by
  rw [execStore]
  rcases storeSize (funct3Field i) with _ | size
  · refine ⟨(m.hart h).halted, fun k => ?_⟩
    split_ifs with hk
    · rw [hk]
      exact .refl _
    · exact .refl _
  · exact hart_rv32CpuWriteMem connected (m.log (.access h .store _ size)) h _ _ size

/-- An instruction of one hart changes nothing of the others but the RAM. -/
theorem hart_rv32CpuStep_of_ne (connected : Bool) (m : Machine) {h k : Nat} (hk : k ≠ h) :
    OnlyMemory (m.hart k) ((rv32CpuStep connected m h).hart k) := by
  by_cases hrun : (m.hart h).running
  · obtain ⟨b, hb⟩ := hart_afterFetch connected m h
    have hfetch : (afterFetch connected m h).hart k = m.hart k := by rw [hb, if_neg hk]
    rw [rv32CpuStep_of_running connected hrun, ← hfetch]
    split_ifs
    · obtain ⟨b, value, hload⟩ := hart_execLoad connected (afterFetch connected m h) h (fetched m h)
      rw [hload, if_neg hk]
      exact .refl _
    · obtain ⟨b, hstore⟩ := hart_execStore connected (afterFetch connected m h) h (fetched m h)
      have hother := hstore k
      rwa [if_neg hk] at hother
    · rw [Target.hart_updHart, if_neg hk]
      exact .refl _
  · rw [rv32CpuStep, if_pos (by simpa using hrun)]
    exact .refl _

/-! ### Running -/

/-- A hart goes on running if and only if the opcode is known. -/
theorem running_rv32CpuStep (connected : Bool) {m : Machine} {h : Nat}
    (hrun : (m.hart h).running) :
    ((rv32CpuStep connected m h).hart h).running = knownOpcode (fetched m h) := by
  obtain ⟨b, hb⟩ := hart_afterFetch connected m h
  have hfetch : ((afterFetch connected m h).hart h).running := by
    rw [hb, if_pos rfl]
    exact hrun
  rw [rv32CpuStep_of_running connected hrun]
  split_ifs with hload hstore
  · obtain ⟨b, value, hhart⟩ := hart_execLoad connected (afterFetch connected m h) h (fetched m h)
    rw [hhart, if_pos rfl, running_rv32CpuWriteReg, knownOpcode, hload]
    exact hfetch
  · obtain ⟨b, hhart⟩ := hart_execStore connected (afterFetch connected m h) h (fetched m h)
    obtain ⟨memory, hmemory⟩ := hhart h
    rw [hmemory, if_pos rfl, knownOpcode, hstore]
    exact hfetch
  · rw [Target.hart_updHart, if_pos rfl, running_execHart _ _ _ ⟨hload, hstore⟩, hfetch,
      Bool.true_and]

/-! ### Halting -/

theorem halted_execHart (currentPc i : Word) (c : Rv32Cpu) (hop : i &&& 0x7F ≠ 0x73) :
    (execHart currentPc i c).halted = c.halted := by
  have hreg := fun reg value => (hartId_rv32CpuWriteReg c reg value).2
  exact execHart_induction (P := fun c' => c'.halted = c.halted) _ _ _ hreg
    (fun reg value _ => hreg reg value) (fun _ => rfl) rfl (fun h => absurd h hop) rfl

theorem halted_execLoad {connected : Bool} {m : Machine} {h : Nat} {i : Word}
    (hno : ∀ size, loadSize (funct3Field i) = some size → accessHit connected m.dbg .load
      (rv32CpuReadReg (m.hart h) (rs1Field i) + signExtend (immI i) 12) size = none) :
    ((execLoad connected m h i).hart h).halted = (m.hart h).halted := by
  rw [execLoad]
  cases hsize : loadSize (funct3Field i) with
  | none =>
    simp only
    rw [Target.hart_updHart, if_pos rfl, (hartId_rv32CpuWriteReg _ _ _).2]
  | some size =>
    simp only [snd_rv32CpuReadMem]
    rw [checkAccess_of_none (m := m.log _) (hno size hsize), Target.hart_updHart, if_pos rfl,
      (hartId_rv32CpuWriteReg _ _ _).2]
    rfl

theorem halted_execStore {connected : Bool} {m : Machine} {h : Nat} {i : Word}
    (hno : ∀ size, storeSize (funct3Field i) = some size → accessHit connected m.dbg .store
      (rv32CpuReadReg (m.hart h) (rs1Field i) + signExtend (immS i) 12) size = none) :
    ((execStore connected m h i).hart h).halted = (m.hart h).halted := by
  rw [execStore]
  cases hsize : storeSize (funct3Field i) with
  | none => rfl
  | some size =>
    simp only [rv32CpuWriteMem]
    rw [checkAccess_of_none (m := m.log _) (hno size hsize)]
    have hstore : ∀ off v, ((m.sys.ramStore h off v size).harts h).halted = (m.hart h).halted := by
      intro off v
      obtain ⟨memory, hmemory⟩ := m.sys.harts_ramStore h off v size h
      rw [hmemory]
      rfl
    split_ifs
    · exact hstore _ _
    · rfl

/-- Without a hit, only `EBREAK` halts a hart. -/
theorem halted_rv32CpuStep {connected : Bool} {m : Machine} {h : Nat}
    (hrun : (m.hart h).running) (hno : NoHit connected m h) (hop : fetched m h &&& 0x7F ≠ 0x73) :
    ((rv32CpuStep connected m h).hart h).halted = (m.hart h).halted := by
  obtain ⟨hfetch, hdata⟩ := hno
  have hafter : afterFetch connected m h =
      (m.log (.exec h (m.hart h).pc)).updHart h Rv32Cpu.advance := by
    rw [afterFetch, checkAccess_of_none (m := m.log _) hfetch]
  have hhart : (afterFetch connected m h).hart h = (m.hart h).advance := by
    rw [hafter, Target.hart_updHart, if_pos rfl]
    rfl
  have hdbg : (afterFetch connected m h).dbg = m.dbg := by
    rw [hafter]
    rfl
  have hregs : ∀ reg, rv32CpuReadReg ((afterFetch connected m h).hart h) reg =
      rv32CpuReadReg (m.hart h) reg := fun reg => by
    rw [hhart]
    rfl
  have hsame : ((afterFetch connected m h).hart h).halted = (m.hart h).halted := by
    rw [hhart]
    rfl
  unfold pendingAccess at hdata
  simp only at hdata
  rw [rv32CpuStep_of_running connected hrun, ← hsame]
  split_ifs with hload hstore
  · rw [if_pos hload] at hdata
    refine halted_execLoad fun size hsize => ?_
    rw [hdbg, hregs]
    exact hdata _ _ _ (by rw [hsize, Option.map_some])
  · rw [if_neg hload, if_pos hstore] at hdata
    refine halted_execStore fun size hsize => ?_
    rw [hdbg, hregs]
    exact hdata _ _ _ (by rw [hsize, Option.map_some])
  · rw [Target.hart_updHart, if_pos rfl, halted_execHart _ _ _ hop]

/-! ### The RAM -/

/-- Who owns the RAM stays as it is. -/
theorem sharedRam_rv32CpuStep (connected : Bool) (m : Machine) (h k : Nat) :
    ((rv32CpuStep connected m h).hart k).sharedRam = (m.hart k).sharedRam := by
  by_cases hk : k = h
  swap
  · obtain ⟨memory, hmemory⟩ := hart_rv32CpuStep_of_ne connected m hk
    rw [hmemory]
  subst hk
  by_cases hrun : (m.hart k).running
  swap
  · rw [rv32CpuStep, if_pos (by simpa using hrun)]
  obtain ⟨b, hb⟩ := hart_afterFetch connected m k
  have hfetch : ((afterFetch connected m k).hart k).sharedRam = (m.hart k).sharedRam := by
    rw [hb, if_pos rfl]
    rfl
  rw [rv32CpuStep_of_running connected hrun, ← hfetch]
  split_ifs
  · obtain ⟨b', value, hload⟩ := hart_execLoad connected (afterFetch connected m k) k (fetched m k)
    rw [hload, if_pos rfl, (sameCore_writeReg _ _ _).sharedRam]
  · obtain ⟨b', hstore⟩ := hart_execStore connected (afterFetch connected m k) k (fetched m k)
    obtain ⟨memory, hmemory⟩ := hstore k
    rw [hmemory, if_pos rfl]
  · rw [Target.hart_updHart, if_pos rfl, (sameCore_execHart _ _ _).sharedRam]

theorem memory_rv32CpuWriteMem_of_ne (connected : Bool) (m : Machine) {h k : Nat} (addr value : Word)
    (size : Nat) (hk : k ≠ m.sys.ramOwner h) :
    ((rv32CpuWriteMem connected m h addr value size).hart k).memory = (m.hart k).memory := by
  obtain ⟨b, hb⟩ := harts_checkAccess .store connected m h addr size k
  obtain ⟨b', hb'⟩ := harts_checkAccess .store connected m h addr size h
  have howner : (checkAccess .store connected m h addr size).sys.ramOwner h = m.sys.ramOwner h := by
    show (((checkAccess .store connected m h addr size).hart h).sharedRam).getD h = _
    rw [hb']
    rfl
  have hcheck : ((checkAccess .store connected m h addr size).hart k).memory =
      (m.hart k).memory := by rw [hb]
  rw [rv32CpuWriteMem, ← hcheck]
  split_ifs
  · exact Rv32System.memory_ramStore_of_ne _ (howner.symm ▸ hk) _ _ _
  · rfl

theorem memory_execStore_of_ne (connected : Bool) (m : Machine) {h k : Nat} (i : Word)
    (hk : k ≠ m.sys.ramOwner h) :
    ((execStore connected m h i).hart k).memory = (m.hart k).memory := by
  rw [execStore]
  cases storeSize (funct3Field i) with
  | none => rfl
  | some size =>
    exact memory_rv32CpuWriteMem_of_ne connected (m.log _) _ _ size hk

theorem memory_rv32CpuStep_of_ne (connected : Bool) (m : Machine) {h k : Nat}
    (hk : k ≠ m.sys.ramOwner h) :
    ((rv32CpuStep connected m h).hart k).memory = (m.hart k).memory := by
  by_cases hrun : (m.hart h).running
  swap
  · rw [rv32CpuStep, if_pos (by simpa using hrun)]
  obtain ⟨b, hb⟩ := hart_afterFetch connected m h
  have hfetch : ((afterFetch connected m h).hart k).memory = (m.hart k).memory := by
    rw [hb]
    split_ifs with hkh
    · rw [hkh]
      rfl
    · rfl
  have howner : (afterFetch connected m h).sys.ramOwner h = m.sys.ramOwner h := by
    show (((afterFetch connected m h).hart h).sharedRam).getD h = _
    rw [hb, if_pos rfl]
    rfl
  rw [rv32CpuStep_of_running connected hrun, ← hfetch]
  split_ifs
  · obtain ⟨b', value, hload⟩ := hart_execLoad connected (afterFetch connected m h) h (fetched m h)
    rw [hload]
    split_ifs with hkh
    · rw [(sameCore_writeReg _ _ _).memory, hkh]
    · rfl
  · exact memory_execStore_of_ne connected _ _ (howner.symm ▸ hk)
  · rw [Target.hart_updHart]
    split_ifs with hkh
    · rw [(sameCore_execHart _ _ _).memory, hkh]
    · rfl

/-! ### Illegal words -/

/-- From `m` to `m'` the hart stops running, and no register and no RAM changes. -/
structure StopsAsIllegal (h : Nat) (m m' : Machine) : Prop where
  running : (m'.hart h).running = false
  regs : ∀ k, (m'.hart k).regs = (m.hart k).regs
  ram : ∀ k off, m'.sys.ram k off = m.sys.ram k off

/-- A word of an unknown opcode clears `running`. -/
theorem rv32CpuStep_of_not_knownOpcode (connected : Bool) {m : Machine} {h : Nat}
    (hrun : (m.hart h).running) (hno : ¬knownOpcode (fetched m h)) :
    rv32CpuStep connected m h =
      (afterFetch connected m h).updHart h fun c => { c with running := false } := by
  have hne : ∀ opcode ∈ [0x37, 0x17, 0x6F, 0x67, 0x63, 0x03, 0x23, 0x13, 0x33, 0x73],
      fetched m h &&& 0x7F ≠ opcode := by
    rintro opcode hmem rfl
    exact hno (decide_eq_true hmem)
  simp only [List.forall_mem_cons] at hne
  obtain ⟨hlui, hauipc, hjal, hjalr, hbranch, hload, hstore, himm, hreg, hsystem, -⟩ := hne
  rw [rv32CpuStep_of_running connected hrun, if_neg hload, if_neg hstore]
  congr 1
  funext c
  unfold execHart
  simp only
  rw [if_neg hlui, if_neg hauipc, if_neg hjal, if_neg hjalr, if_neg hbranch, if_neg himm,
    if_neg hreg, if_neg hsystem]

theorem stopsAsIllegal_iff (connected : Bool) {m : Machine} {h : Nat}
    (hrun : (m.hart h).running) :
    StopsAsIllegal h m (rv32CpuStep connected m h) ↔ ¬knownOpcode (fetched m h) := by
  constructor
  · intro hstop hknown
    have hrunning := hstop.running
    rw [running_rv32CpuStep connected hrun, hknown] at hrunning
    cases hrunning
  · intro hno
    obtain ⟨b, hb⟩ := hart_afterFetch connected m h
    have hhart : ∀ k, ((rv32CpuStep connected m h).hart k).regs = (m.hart k).regs ∧
        ((rv32CpuStep connected m h).hart k).memory = (m.hart k).memory ∧
        ((rv32CpuStep connected m h).hart k).sharedRam = (m.hart k).sharedRam := by
      intro k
      rw [rv32CpuStep_of_not_knownOpcode connected hrun hno, Target.hart_updHart, hb, hb, if_pos rfl]
      split_ifs with hk
      · rw [hk]
        exact ⟨rfl, rfl, rfl⟩
      · exact ⟨rfl, rfl, rfl⟩
    refine ⟨?_, fun k => (hhart k).1, fun k off => ?_⟩
    · rw [running_rv32CpuStep connected hrun]
      exact Bool.eq_false_iff.mpr hno
    · simp only [Target.hart] at hhart
      rw [Rv32System.ram, Rv32System.ram, Rv32System.ramOwner, Rv32System.ramOwner, (hhart k).2.2,
        (hhart _).2.1]

theorem knownOpcode_of_isEncoding {w : Word} (hw : IsEncoding w) :
    knownOpcode w ↔ w &&& 0x7F ≠ 0x0F := by
  unfold knownOpcode
  rw [opcode_eq]
  rcases hw with i | ⟨imm, rs1, rd⟩ | _
  · cases i <;> simp [Instr.encode, iType_eq, jType, bType, sType]
  · simp [iType_eq]
  · decide

/-- A hart whose next instruction is `w`. -/
def wordMachine (w : Word) : Machine :=
  (loadedSession 1 []).world.toTarget.updHart 0 fun c =>
    { c with memory := memcpyWords c.memory 0 [w] }

end Rv32Gdb
