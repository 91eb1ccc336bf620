import Rv32Gdb.Equiv.Decode

/-!
# The built-in program

The loop of `create_test_program` is left when `t1` and `t2` differ, where its comment has
`beq t1, t2, end`.  `not_countsTo`: it counts to no limit as documented.
-/

namespace Rv32Gdb

open Rv32i

/-! ### The program -/

/-- The instructions of the program; the one at `0x80000020` is a `bne`. -/
def testInstrs : List Instr :=
  [.lui 5 0x80000, .opImm .addi 6 0 0, .opImm .addi 7 0 5, .lui 8 0x80001, .opImm .addi 8 8 0,
    .store .sw 8 6 0, .load .lw 28 8 0, .opImm .addi 6 6 1, .branch .bne 6 7 4, .jal 0 (-8),
    .store .sw 8 6 4, .jal 0 0]

theorem encode_testInstrs : testInstrs.map Instr.encode = testProgram := by decide +kernel

/-- The program is in memory. -/
def HasTestProgram (s : State) : Prop :=
  ∀ k < testProgram.length, s.load (ramBase + BitVec.ofNat 32 k * 4) 4 = testProgram.getD k 0

/-- The instruction at a program counter. -/
theorem HasTestProgram.fetch {s : State} (hs : HasTestProgram s) {k : Nat} {i : Instr}
    (hi : testInstrs[k]? = some i) (hpc : s.pc = ramBase + BitVec.ofNat 32 k * 4) :
    s.fetch = some i.encode := by
  have hk : k < testInstrs.length := (List.getElem?_eq_some_iff.mp hi).1
  have hlen : testProgram.length = testInstrs.length := rfl
  have hword : testProgram.getD k 0 = i.encode := by
    rw [← encode_testInstrs, List.getD_eq_getElem?_getD, List.getElem?_map, hi]
    rfl
  have hne : ∀ i ∈ testInstrs, i.encode ≠ 0 := by decide +kernel
  have hload := hs k (by omega)
  rw [hword, State.load] at hload
  rw [State.fetch, hpc]
  split_ifs at hload ⊢
  · rw [hload]
  · exact absurd hload.symm (hne i (List.mem_of_getElem? hi))

/-- A store outside the program keeps it. -/
theorem HasTestProgram.store {s : State} (hs : HasTestProgram s) {a : Word}
    (ha : a = 0x80001000 ∨ a = 0x80001004) (v : Word) : HasTestProgram (s.store a v 4) := by
  have hfar : ∀ a : Word, a = 0x80001000 ∨ a = 0x80001004 → ∀ k < testProgram.length, ∀ j < 4,
      ¬(ramBase + BitVec.ofNat 32 k * 4 + BitVec.ofNat 32 j - a).toNat < 4 := by
    rintro a (rfl | rfl) <;> decide +kernel
  intro k hk
  rw [State.load_store_of_disjoint s a v 4 (hfar a ha k hk), hs k hk]

theorem HasTestProgram.congr {s s' : State} (hs : HasTestProgram s) (hmem : s'.mem = s.mem) :
    HasTestProgram s' := by
  intro k hk
  rw [← hs k hk]
  exact State.load_congr fun j _ => by rw [hmem]

/-! ### The loop -/

/-- Where the loop with the limit `n` gets, with what in `t1`. -/
inductive LoopPoint (n : Word) : Word → Word → Prop
  | store {t1 : Word} (h : t1 = 0 ∨ t1 = 1 ∧ n = 1) : LoopPoint n 0x80000014 t1
  | load {t1 : Word} (h : t1 = 0 ∨ t1 = 1 ∧ n = 1) : LoopPoint n 0x80000018 t1
  | incr {t1 : Word} (h : t1 = 0 ∨ t1 = 1 ∧ n = 1) : LoopPoint n 0x8000001c t1
  | test {t1 : Word} (h : t1 = 1 ∨ t1 = 2 ∧ n = 1) : LoopPoint n 0x80000020 t1
  | back (h : n = 1) : LoopPoint n 0x80000024 1
  | last {t1 : Word} (h : t1 = 1 ∧ n ≠ 1 ∨ t1 = 2 ∧ n = 1) : LoopPoint n 0x80000028 t1
  | spin {t1 : Word} (h : t1 = 1 ∧ n ≠ 1 ∨ t1 = 2 ∧ n = 1) : LoopPoint n 0x8000002c t1

/-- A hart in the loop with the limit `n`. -/
structure LoopInv (n : Word) (s : State) : Prop where
  code : HasTestProgram s
  base : s.reg 8 = 0x80001000
  limit : s.reg 7 = n
  point : LoopPoint n s.pc (s.reg 6)

/-- An instruction of the loop. -/
theorem LoopInv.exec {n : Word} {s : State} (hs : LoopInv n s) :
    ∃ i ∈ testInstrs, s.fetch = some i.encode ∧ LoopInv n (i.exec s) := by
  obtain ⟨hcode, hbase, hlimit, hpoint⟩ := hs
  have hfetch : ∀ k i, testInstrs[k]? = some i → s.pc = ramBase + BitVec.ofNat 32 k * 4 →
      s.fetch = some i.encode := fun k i hi hpc => hcode.fetch hi hpc
  generalize hpc : s.pc = pc at hpoint
  generalize ht1 : s.reg 6 = t1 at hpoint
  cases hpoint with
  | store h =>
    refine ⟨.store .sw 8 6 0, by decide, hfetch 5 _ rfl hpc, ?_, ?_, ?_, ?_⟩
    · exact (hcode.store (Or.inl (by rw [hbase]; rfl)) _).congr rfl
    · rw [reg_exec_of_ne _ _ (by decide), hbase]
    · rw [reg_exec_of_ne _ _ (by decide), hlimit]
    · rw [reg_exec_of_ne _ _ (by decide), ht1, Instr.exec, State.pc_next, State.pc_store, hpc]
      exact .load h
  | load h =>
    refine ⟨.load .lw 28 8 0, by decide, hfetch 6 _ rfl hpc, hcode.congr rfl, ?_, ?_, ?_⟩
    · rw [reg_exec_of_ne _ _ (by decide), hbase]
    · rw [reg_exec_of_ne _ _ (by decide), hlimit]
    · rw [reg_exec_of_ne _ _ (by decide), ht1, Instr.exec, State.pc_next]
      show LoopPoint n (s.pc + 4) _
      rw [hpc]
      exact .incr h
  | incr h =>
    refine ⟨.opImm .addi 6 6 1, by decide, hfetch 7 _ rfl hpc, hcode.congr rfl, ?_, ?_, ?_⟩
    · rw [reg_exec_of_ne _ _ (by decide), hbase]
    · rw [reg_exec_of_ne _ _ (by decide), hlimit]
    · show LoopPoint n (s.pc + 4) (s.reg 6 + 1)
      rw [hpc, ht1]
      refine .test ?_
      rcases h with rfl | ⟨rfl, hn⟩
      · exact Or.inl rfl
      · exact Or.inr ⟨rfl, hn⟩
  | test h =>
    refine ⟨.branch .bne 6 7 4, by decide, hfetch 8 _ rfl hpc, ?_, ?_, ?_, ?_⟩
    · exact hcode.congr (mem_exec_of_not_isStore _ _ (by decide))
    · rw [reg_exec_of_ne _ _ (by decide), hbase]
    · rw [reg_exec_of_ne _ _ (by decide), hlimit]
    · rw [reg_exec_of_ne _ _ (by decide), ht1, Instr.exec, BranchOp.taken, ht1, hlimit]
      -- the branch leaves the loop when the counter is not the limit
      by_cases hend : t1 = n
      · rw [if_neg (by simp [hend]), State.pc_next, hpc]
        rcases h with rfl | ⟨rfl, hn⟩
        · exact .back hend.symm
        · rw [hn] at hend
          exact absurd hend (by decide)
      · rw [if_pos (by simpa using hend), State.pc_jump, hpc]
        refine .last ?_
        rcases h with rfl | h
        · exact Or.inl ⟨rfl, fun hn => hend hn.symm⟩
        · exact Or.inr h
  | back h =>
    refine ⟨.jal 0 (-8), by decide, hfetch 9 _ rfl hpc, ?_, ?_, ?_, ?_⟩
    · exact hcode.congr (mem_exec_of_not_isStore _ _ (by decide))
    · rw [reg_exec_of_ne _ _ (by decide), hbase]
    · rw [reg_exec_of_ne _ _ (by decide), hlimit]
    · rw [reg_exec_of_ne _ _ (by decide), ht1, Instr.exec, State.pc_jump, hpc]
      exact .store (Or.inr ⟨rfl, h⟩)
  | last h =>
    refine ⟨.store .sw 8 6 4, by decide, hfetch 10 _ rfl hpc, ?_, ?_, ?_, ?_⟩
    · exact (hcode.store (Or.inr (by rw [hbase]; rfl)) _).congr rfl
    · rw [reg_exec_of_ne _ _ (by decide), hbase]
    · rw [reg_exec_of_ne _ _ (by decide), hlimit]
    · rw [reg_exec_of_ne _ _ (by decide), ht1, Instr.exec, State.pc_next, State.pc_store, hpc]
      exact .spin h
  | spin h =>
    refine ⟨.jal 0 0, by decide, hfetch 11 _ rfl hpc, hcode.congr rfl, ?_, ?_, ?_⟩
    · rw [reg_exec_of_ne _ _ (by decide), hbase]
    · rw [reg_exec_of_ne _ _ (by decide), hlimit]
    · rw [reg_exec_of_ne _ _ (by decide), ht1, Instr.exec, State.pc_jump, hpc]
      exact .spin h

/-- The hart does not spin with the limit in its counter. -/
theorem LoopInv.ne_of_spin {n : Word} {s : State} (hs : LoopInv n s) (hpc : s.pc = 0x8000002c) :
    s.reg 6 ≠ n := by
  have hpoint := hs.point
  rw [hpc] at hpoint
  intro hlimit
  rw [hlimit] at hpoint
  cases hpoint with
  | spin h =>
    rcases h with ⟨rfl, hn⟩ | ⟨rfl, hn⟩
    · exact hn rfl
    · exact absurd hn (by decide)

/-! ### Runs -/

section Run

variable {connected : Bool} {m : Machine} {h : Nat} {n : Word}

/-- The machine after `k` instructions of hart `h`. -/
def hartRun (connected : Bool) (h k : Nat) (m : Machine) : Machine :=
  (fun m => rv32CpuStep connected m h)^[k] m

/-- The hart is at the loop and counts from `0` to `n`. -/
structure AtLoop (n : Word) (h : Nat) (m : Machine) : Prop where
  running : (m.hart h).running
  code : HasTestProgram (archState m h)
  pc : (m.hart h).pc = loopStore
  t1 : (archState m h).reg 6 = 0
  t2 : (archState m h).reg 7 = n
  s0 : (archState m h).reg 8 = 0x80001000

/-- The values of `t1` at the loop stores among the first `k` instructions. -/
def loopStores (connected : Bool) (h k : Nat) (m : Machine) : List Word :=
  ((List.range k).filter fun j => ((hartRun connected h j m).hart h).pc = loopStore).map fun j =>
    (archState (hartRun connected h j m) h).reg 6

/-- The hart stores `0`, `1`, …, `n - 1`, then `n`, and spins with `n` in `t1`. -/
structure CountsTo (connected : Bool) (n : Word) (h : Nat) (m : Machine) : Prop where
  exists_run : ∃ k, loopStores connected h k m = (List.range n.toNat).map (BitVec.ofNat 32) ∧
    (archState (hartRun connected h k m) h).load 0x80001004 4 = n ∧
    ∀ j, ((hartRun connected h (k + j) m).hart h).pc = 0x8000002c ∧
      (archState (hartRun connected h (k + j) m) h).reg 6 = n

theorem AtLoop.loopInv (hloop : AtLoop n h m) : LoopInv n (archState m h) := by
  refine ⟨hloop.code, hloop.s0, hloop.t2, ?_⟩
  have hpc : (archState m h).pc = 0x80000014 := hloop.pc
  rw [hpc, hloop.t1]
  exact .store (Or.inl rfl)

/-- The loop goes on. -/
theorem LoopInv.rv32CpuStep (hs : LoopInv n (archState m h)) (hrun : (m.hart h).running) :
    LoopInv n (archState (rv32CpuStep connected m h) h) ∧
      ((rv32CpuStep connected m h).hart h).running := by
  obtain ⟨i, hi, hfetch, hnext⟩ := hs.exec
  have hop : ∀ i ∈ testInstrs, knownOpcode i.encode := by decide +kernel
  have hstep : archState (Rv32Gdb.rv32CpuStep connected m h) h = i.exec (archState m h) :=
    (rv32CpuStep_encode hrun hfetch).1
  refine ⟨hstep ▸ hnext, ?_⟩
  rw [running_rv32CpuStep connected hrun, fetched_of_fetch hfetch]
  exact hop i hi

theorem LoopInv.hartRun (hs : LoopInv n (archState m h)) (hrun : (m.hart h).running) (k : Nat) :
    LoopInv n (archState (hartRun connected h k m) h) := by
  induction k generalizing m with
  | zero => exact hs
  | succ k ih =>
    have hstep : _ ∧ ((Rv32Gdb.rv32CpuStep connected m h).hart h).running := hs.rv32CpuStep hrun
    exact ih hstep.1 hstep.2

/-- At the end the hart jumps to where it is. -/
theorem spin_rv32CpuStep (hs : LoopInv n (archState m h)) (hrun : (m.hart h).running)
    (hpc : (archState m h).pc = 0x8000002c) :
    (archState (rv32CpuStep connected m h) h).pc = 0x8000002c ∧
      (archState (rv32CpuStep connected m h) h).reg 6 = (archState m h).reg 6 := by
  have hfetch : (archState m h).fetch = some (Instr.jal 0 0).encode :=
    hs.code.fetch (k := 11) rfl hpc
  have hstep : archState (rv32CpuStep connected m h) h = (Instr.jal 0 0).exec (archState m h) :=
    (rv32CpuStep_encode hrun hfetch).1
  rw [hstep, reg_exec_of_ne _ _ (by decide), Instr.exec, State.pc_jump, hpc]
  exact ⟨rfl, rfl⟩

theorem spin_hartRun (hs : LoopInv n (archState m h)) (hrun : (m.hart h).running)
    (hpc : (archState m h).pc = 0x8000002c) (k : Nat) :
    (archState (hartRun connected h k m) h).pc = 0x8000002c ∧
      (archState (hartRun connected h k m) h).reg 6 = (archState m h).reg 6 := by
  induction k generalizing m with
  | zero => exact ⟨hpc, rfl⟩
  | succ k ih =>
    have hstep : LoopInv n (archState (rv32CpuStep connected m h) h) ∧
        ((rv32CpuStep connected m h).hart h).running := hs.rv32CpuStep hrun
    have hspin : _ ∧ (archState (rv32CpuStep connected m h) h).reg 6 = _ :=
      spin_rv32CpuStep hs hrun hpc
    obtain ⟨hpc', hreg⟩ := ih hstep.1 hstep.2 hspin.1
    exact ⟨hpc', hreg.trans hspin.2⟩

theorem AtLoop.not_spin (hloop : AtLoop n h m) (k : Nat)
    (hpc : ((hartRun connected h k m).hart h).pc = 0x8000002c) :
    (archState (hartRun connected h k m) h).reg 6 ≠ n :=
  (hloop.loopInv.hartRun hloop.running k).ne_of_spin hpc

/-- The program counts to no limit. -/
theorem not_countsTo (hloop : AtLoop n h m) : ¬CountsTo connected n h m := by
  rintro ⟨k, -, -, hspin⟩
  exact hloop.not_spin k (hspin 0).1 (hspin 0).2

end Run

/-- Hart `0` at the loop, with the limit of the program. -/
def loopMachine : Machine :=
  (loadedSession 1 []).world.toTarget.updHart 0 fun c => { c with
    pc := loopStore
    regs := Function.update (Function.update c.regs regT2 5) regS0 0x80001000 }

theorem atLoop_loopMachine : AtLoop 5 0 loopMachine := by
  refine ⟨by decide +kernel, ?_, by decide +kernel, by decide +kernel, by decide +kernel,
    by decide +kernel⟩
  unfold HasTestProgram
  decide +kernel

theorem not_countsTo_loopMachine : ¬CountsTo true 5 0 loopMachine :=
  not_countsTo atLoop_loopMachine

/-- After one round hart `0` spins with `1` in `t1`. -/
theorem not_countsTo_five : ¬CountsTo true 5 0 loopMachine ∧ ∀ j,
    ((hartRun true 0 (5 + j) loopMachine).hart 0).pc = 0x8000002c ∧
      (archState (hartRun true 0 (5 + j) loopMachine) 0).reg 6 = 1 := by
  constructor
  · rintro ⟨k, -, -, hspin⟩
    exact atLoop_loopMachine.not_spin k (hspin 0).1 (hspin 0).2
  · intro j
    have hround : (archState (hartRun true 0 5 loopMachine) 0).pc = 0x8000002c ∧
        (archState (hartRun true 0 5 loopMachine) 0).reg 6 = 1 ∧
        ((hartRun true 0 5 loopMachine).hart 0).running := by
      decide +kernel
    have hinv : LoopInv 5 (archState (hartRun true 0 5 loopMachine) 0) :=
      atLoop_loopMachine.loopInv.hartRun atLoop_loopMachine.running 5
    have hspin : (archState (hartRun true 0 j (hartRun true 0 5 loopMachine)) 0).pc = 0x8000002c ∧
        (archState (hartRun true 0 j (hartRun true 0 5 loopMachine)) 0).reg 6 = _ :=
      spin_hartRun hinv hround.2.2 hround.1 j
    have hrun : hartRun true 0 (5 + j) loopMachine =
        hartRun true 0 j (hartRun true 0 5 loopMachine) := by
      rw [hartRun, Nat.add_comm, Function.iterate_add_apply]
      rfl
    rw [hrun]
    exact ⟨hspin.1, hspin.2.trans hround.2.1⟩

end Rv32Gdb
