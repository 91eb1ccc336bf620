import Rv32Gdb.Emu.SmpSync
import Rv32Gdb.Mailbox
import Rv32Gdb.Rv32i

/-!
# The worker code

The worker code is the program of a server of a `Mailbox`, and the sync words are the mailbox: each
location of the server has an instruction (`Mailbox.Loc.instr`), and to execute it is a step of the
mailbox (`WorkerInv.exec`).
-/

namespace Rv32Gdb

open Rv32i Mailbox

/-! ### The program -/

/-- The locations in the order of the code. -/
def workerLocs : List Loc :=
  [.poll, .slot, .addr, .load, .test, .clear, .call, .spin, .acquire, .retry, .holder, .take, .ready,
    .check, .item, .consume, .keep, .count, .incr, .store, .total, .release, .back]

namespace Mailbox.Loc

/-- The address of a location. -/
def pc (l : Loc) : Word := smpWorkerPoll + BitVec.ofNat 32 (workerLocs.idxOf l) * 4

/-- The instruction at a location. -/
def instr : Loc → Instr
  | .poll => .opImm .addi 5 8 16
  | .slot => .shiftImm .slli 28 4 2
  | .addr => .opReg .add 5 5 28
  | .load => .load .lw 6 5 0
  | .test => .branch .beq 6 0 6
  | .clear => .store .sw 5 0 0
  | .call => .jal 1 4
  | .spin => .jal 0 (-14)
  | .acquire => .load .lw 5 8 0
  | .retry => .branch .bne 5 0 (-2)
  | .holder => .opImm .addi 5 4 1
  | .take => .store .sw 8 5 0
  | .ready => .load .lw 7 8 8
  | .check => .branch .beq 7 0 16
  | .item => .load .lw 6 8 4
  | .consume => .store .sw 8 0 8
  | .keep => .opImm .addi 9 6 0
  | .count => .load .lw 7 8 12
  | .incr => .opImm .addi 7 7 1
  | .store => .store .sw 8 7 12
  | .total => .opImm .addi 18 7 0
  | .release => .store .sw 8 0 0
  | .back => .jal 0 (-44)

end Mailbox.Loc

/-- The code from `worker_poll` on. -/
theorem encode_workerLocs : workerLocs.map (fun l => l.instr.encode) = smpWorkerCode.tail := by
  decide +kernel

/-! ### The sync words -/

/-- The address of sync word `k`: the lock, the work item, the flag and the counter, and the doorbell
of hart `k - 4`. -/
def syncWord (k : Nat) : Word := smpSyncBase + BitVec.ofNat 32 k * 4

theorem toNat_syncWord {k : Nat} (hk : k < 12) : (syncWord k).toNat = 0x80002000 + 4 * k := by
  have hbase : smpSyncBase.toNat = 0x80002000 := by decide
  rw [syncWord, BitVec.toNat_add, BitVec.toNat_mul, BitVec.toNat_ofNat, hbase]
  have hfour : (4 : Word).toNat = 4 := by decide
  rw [hfour]
  omega

theorem syncWord_four_add (h : Nat) : syncWord 4 + BitVec.ofNat 32 h * 4 = syncWord (h + 4) := by
  unfold syncWord
  rw [BitVec.ofNat_add, BitVec.add_mul, BitVec.add_assoc, BitVec.add_comm (_ * _) (_ * _)]

/-- The doorbells are the sync words from the fourth on. -/
theorem ipiPending_eq (h : Nat) : ipiPending h = syncWord (h + 4) := syncWord_four_add h

namespace Rv32i.State

/-- A store to a sync word, and any other word. -/
theorem load_store_syncWord_of_ne (s : State) (v : Word) {j : Nat} (hj : j < 12) {a : Word}
    (ha : a.toNat % 4 = 0) (hne : a ≠ syncWord j) (hlt : a.toNat < 2 ^ 32 - 4) :
    (s.store (syncWord j) v 4).load a 4 = s.load a 4 := by
  have haddr := toNat_syncWord hj
  have hne' : a.toNat ≠ (syncWord j).toNat := fun h => hne (BitVec.eq_of_toNat_eq h)
  refine load_store_of_disjoint s _ v 4 fun k hk => ?_
  rw [BitVec.toNat_sub, BitVec.toNat_add, BitVec.toNat_ofNat]
  omega

theorem load_store_syncWord (s : State) (v : Word) {j k : Nat} (hj : j < 12) (hk : k < 12)
    (hmapped : s.Mapped (syncWord j) 4) :
    (s.store (syncWord j) v 4).load (syncWord k) 4 = if k = j then v else s.load (syncWord k) 4 := by
  have haddr := toNat_syncWord hk
  by_cases hkj : k = j
  · rw [if_pos hkj, hkj, load_store_same s v hmapped]
  · have hne : syncWord k ≠ syncWord j := by
      intro h
      have := congrArg BitVec.toNat h
      rw [toNat_syncWord hk, toNat_syncWord hj] at this
      omega
    rw [if_neg hkj, load_store_syncWord_of_ne s v hj (by omega) hne (by omega)]

end Rv32i.State

/-! ### A worker as a server -/

/-- The tag that a worker writes to the lock. -/
def workerTag (h : Nat) : Word := BitVec.ofNat 32 h + 1

theorem workerTag_ne_zero {h : Nat} (hh : h < 8) : workerTag h ≠ 0 := by
  have hall : ∀ h < 8, workerTag h ≠ 0 := by decide
  exact hall h hh

/-- The worker code is in memory. -/
def HasWorkerCode (s : Rv32i.State) : Prop := ∀ l : Loc, s.load l.pc 4 = l.instr.encode

/-- The shared words, numbered as in memory. -/
def Mailbox.State.word (ms : Mailbox.State Word) : Nat → Word
  | 0 => ms.lock
  | 1 => ms.item
  | 2 => ms.ready
  | 3 => ms.done
  | k + 4 => ms.bell k

/-- The sync words are the shared words. -/
structure SharedRel (ms : Mailbox.State Word) (s : Rv32i.State) : Prop where
  mapped : ∀ k < 12, s.Mapped (syncWord k) 4
  load : ∀ k < 12, s.load (syncWord k) 4 = ms.word k

/-- What `t0` holds at a location, where it matters. -/
def Mailbox.Server.scratch (h : Nat) (w : Server Word) : Option Word :=
  match w.loc with
  | .slot | .addr => some (syncWord 4)
  | .load | .test | .clear => some (syncWord (h + 4))
  | .retry | .holder | .take => some w.guard
  | _ => none

/-- The registers of the worker of hart `h` are those of a server. -/
structure WorkerRel (h : Nat) (w : Server Word) (s : Rv32i.State) : Prop where
  pc : s.pc = w.loc.pc
  base : s.reg 8 = smpSyncBase
  hart : s.reg 4 = BitVec.ofNat 32 h
  word : s.reg 6 = w.word
  count : s.reg 7 = w.count
  item : s.reg 9 = w.item
  total : s.reg 18 = w.total
  scratch : ∀ v, w.scratch h = some v → s.reg 5 = v
  index : w.loc = .addr → s.reg 28 = BitVec.ofNat 32 h * 4

/-- Hart `h` is a server of the mailbox. -/
structure WorkerInv (h : Nat) (ms : Mailbox.State Word) (s : Rv32i.State) : Prop where
  code : HasWorkerCode s
  shared : SharedRel ms s
  worker : WorkerRel h (ms.server h) s

theorem HasWorkerCode.fetch {s : Rv32i.State} (hcode : HasWorkerCode s) {l : Loc}
    (hpc : s.pc = l.pc) : s.fetch = some l.instr.encode := by
  have hload := hcode l
  have hne : l.instr.encode ≠ 0 := by cases l <;> decide
  rw [State.load] at hload
  rw [State.fetch, hpc]
  split_ifs at hload ⊢ with hmapped
  · rw [hload]
  · exact absurd hload.symm hne

/-! ### The instructions of a worker -/

/-- The sync word that a worker at a location stores to. -/
def Mailbox.Loc.target (h : Nat) : Loc → Option Nat
  | .clear => some (h + 4)
  | .take | .release => some 0
  | .consume => some 2
  | .store => some 3
  | _ => none

/-- What a worker stores. -/
def Mailbox.Server.stored (w : Server Word) : Word :=
  if w.loc = .take then w.guard else if w.loc = .store then w.count else 0

theorem target_lt {h : Nat} (hh : h < 8) {l : Loc} {j : Nat} (hj : l.target h = some j) :
    j < 12 := by
  cases l <;> simp [Loc.target] at hj <;> omega

theorem Mailbox.State.word_step (ms : Mailbox.State Word) (tag : Nat → Word) (h k : Nat) :
    (ms.step tag h).word k =
      if (ms.server h).loc.target h = some k then (ms.server h).stored else ms.word k := by
  unfold Server.stored
  rcases k with _ | _ | _ | _ | k
  · show (ms.step tag h).lock = if _ then _ else ms.lock
    rw [lock_step]
    cases (ms.server h).loc <;> simp [Loc.target]
  · show ms.item = if _ then _ else ms.item
    cases (ms.server h).loc <;> simp [Loc.target]
  · show (ms.step tag h).ready = if _ then _ else ms.ready
    rw [ready_step]
    cases (ms.server h).loc <;> simp [Loc.target]
  · show (ms.step tag h).done = if _ then _ else ms.done
    rw [done_step]
    cases (ms.server h).loc <;> simp [Loc.target]
  · show (ms.step tag h).bell k = if _ then _ else ms.bell k
    by_cases hk : k = h
    · subst hk
      rw [bell_step_self]
      cases (ms.server k).loc <;> simp [Loc.target]
    · have hne : ¬h = k := fun heq => hk heq.symm
      rw [bell_step_of_ne hk]
      cases (ms.server h).loc <;> simp [Loc.target, hne]

theorem add_signExtend_zero (v : Word) : v + (0 : BitVec 12).signExtend 32 = v := BitVec.add_zero v

/-- A shift by two multiplies by four. -/
theorem eval_slli_two (v : Word) : ShiftOp.slli.eval v 2 = v * 4 := by
  apply BitVec.eq_of_toNat_eq
  rw [BitVec.toNat_mul]
  exact BitVec.toNat_shiftLeft.trans (by rw [Nat.shiftLeft_eq]; rfl)

section Exec

variable {h : Nat} {ms : Mailbox.State Word} {s : Rv32i.State}

namespace WorkerRel

/-- A store. -/
theorem exec_of_target (hrel : WorkerRel h (ms.server h) s) {j : Nat}
    (hj : (ms.server h).loc.target h = some j) : (ms.server h).loc.instr.exec s =
      (s.store (syncWord j) (ms.server h).stored 4).next := by
  have hscratch := hrel.scratch
  unfold Server.scratch at hscratch
  unfold Server.stored
  cases hloc : (ms.server h).loc <;> rw [hloc] at hj hscratch <;>
    simp only [Loc.target, Option.some.injEq, reduceCtorEq] at hj <;> subst hj <;>
    simp only [Loc.instr, Instr.exec, s.reg_zero, hrel.base, hrel.count]
  · rw [hscratch _ rfl, add_signExtend_zero]
    rfl
  · rw [hscratch _ rfl]
    rfl
  · rfl
  · rfl
  · rfl

/-- The way through the code. -/
theorem pc_exec (hrel : WorkerRel h (ms.server h) s) :
    ((ms.server h).loc.instr.exec s).pc = ((ms.step workerTag h).server h).loc.pc := by
  have hpc := hrel.pc
  have hguard := hrel.scratch (ms.server h).guard
  unfold Server.scratch at hguard
  rw [State.server_step_self]
  show _ = ((ms.server h).loc.next (decide ((ms.server h).tested = 0))).pc
  unfold Server.tested
  cases hloc : (ms.server h).loc with
  | test =>
    rw [hloc] at hpc
    simp only [Loc.instr, Instr.exec, BranchOp.taken, hrel.word, s.reg_zero, beq_iff_eq, Loc.next,
      decide_eq_true_iff]
    split_ifs <;> simp only [State.pc_jump, State.pc_next, hpc] <;> rfl
  | retry =>
    rw [hloc] at hpc hguard
    simp only [Loc.instr, Instr.exec, BranchOp.taken, hguard rfl, s.reg_zero, bne_iff_ne, Loc.next,
      decide_eq_true_iff]
    split_ifs <;> simp only [State.pc_jump, State.pc_next, hpc] <;> first | rfl | contradiction
  | check =>
    rw [hloc] at hpc
    simp only [Loc.instr, Instr.exec, BranchOp.taken, hrel.count, s.reg_zero, beq_iff_eq, Loc.next,
      decide_eq_true_iff]
    split_ifs <;> simp only [State.pc_jump, State.pc_next, hpc] <;> rfl
  | _ =>
    simp only [Loc.instr, Instr.exec, Rv32i.State.next, State.pc_jump, State.pc_store, Loc.next]
    show s.pc + _ = _
    rw [hpc, hloc]
    rfl

theorem item_exec (hrel : WorkerRel h (ms.server h) s) :
    ((ms.server h).loc.instr.exec s).reg 9 = ((ms.step workerTag h).server h).item := by
  rw [State.server_step_self]
  show _ = if (ms.server h).loc = .keep then (ms.server h).word else (ms.server h).item
  split_ifs with hkeep
  · rw [hkeep, Loc.instr, Instr.exec, State.reg_next, State.reg_setReg, if_pos (by decide),
      hrel.word]
    exact add_signExtend_zero _
  · rw [reg_exec_of_ne, hrel.item]
    cases hloc : (ms.server h).loc <;> simp_all <;> decide

theorem total_exec (hrel : WorkerRel h (ms.server h) s) :
    ((ms.server h).loc.instr.exec s).reg 18 = ((ms.step workerTag h).server h).total := by
  rw [State.server_step_self]
  show _ = if (ms.server h).loc = .total then (ms.server h).count else (ms.server h).total
  split_ifs with htotal
  · rw [htotal, Loc.instr, Instr.exec, State.reg_next, State.reg_setReg, if_pos (by decide),
      hrel.count]
    exact add_signExtend_zero _
  · rw [reg_exec_of_ne, hrel.total]
    cases hloc : (ms.server h).loc <;> simp_all <;> decide

theorem index_exec (hrel : WorkerRel h (ms.server h) s)
    (haddr : ((ms.step workerTag h).server h).loc = .addr) :
    ((ms.server h).loc.instr.exec s).reg 28 = BitVec.ofNat 32 h * 4 := by
  rw [State.server_step_self] at haddr
  have hslot : (ms.server h).loc = .slot := Loc.eq_of_next haddr rfl
  rw [hslot, Loc.instr, Instr.exec, State.reg_next, State.reg_setReg, if_pos (by decide), hrel.hart]
  exact eval_slli_two _

theorem word_exec (hh : h < 8) (hrel : WorkerRel h (ms.server h) s) (hshared : SharedRel ms s) :
    ((ms.server h).loc.instr.exec s).reg 6 = ((ms.step workerTag h).server h).word := by
  rw [State.server_step_self]
  show _ = if (ms.server h).loc = .load then ms.bell h
    else if (ms.server h).loc = .item then ms.item else (ms.server h).word
  split_ifs with hload hitem
  · have hbell := hshared.load (h + 4) (by omega)
    have hslot := hrel.scratch (syncWord (h + 4)) (by rw [Server.scratch, hload])
    rw [hload, Loc.instr, Instr.exec, State.reg_next, State.reg_setReg, if_pos (by decide), hslot,
      add_signExtend_zero]
    exact hbell
  · rw [hitem, Loc.instr, Instr.exec, State.reg_next, State.reg_setReg, if_pos (by decide),
      hrel.base]
    exact hshared.load 1 (by decide)
  · rw [reg_exec_of_ne, hrel.word]
    cases hloc : (ms.server h).loc <;> simp_all <;> decide

theorem count_exec (hrel : WorkerRel h (ms.server h) s) (hshared : SharedRel ms s) :
    ((ms.server h).loc.instr.exec s).reg 7 = ((ms.step workerTag h).server h).count := by
  rw [State.server_step_self]
  show _ = if (ms.server h).loc = .ready then ms.ready
    else if (ms.server h).loc = .count then ms.done
    else if (ms.server h).loc = .incr then (ms.server h).count + 1 else (ms.server h).count
  split_ifs with hready hcount hincr
  · rw [hready, Loc.instr, Instr.exec, State.reg_next, State.reg_setReg, if_pos (by decide),
      hrel.base]
    exact hshared.load 2 (by decide)
  · rw [hcount, Loc.instr, Instr.exec, State.reg_next, State.reg_setReg, if_pos (by decide),
      hrel.base]
    exact hshared.load 3 (by decide)
  · rw [hincr, Loc.instr, Instr.exec, State.reg_next, State.reg_setReg, if_pos (by decide),
      hrel.count]
    rfl
  · rw [reg_exec_of_ne, hrel.count]
    cases hloc : (ms.server h).loc <;> simp_all <;> decide

theorem scratch_exec (hrel : WorkerRel h (ms.server h) s) (hshared : SharedRel ms s) {v : Word}
    (hv : ((ms.step workerTag h).server h).scratch h = some v) :
    ((ms.server h).loc.instr.exec s).reg 5 = v := by
  have hscratch := hrel.scratch
  have hguard : ((ms.step workerTag h).server h).guard =
      if (ms.server h).loc = .acquire then ms.lock
      else if (ms.server h).loc = .holder then workerTag h else (ms.server h).guard := by
    rw [State.server_step_self]
    rfl
  have hnext : ((ms.step workerTag h).server h).loc =
      (ms.server h).loc.next (decide ((ms.server h).tested = 0)) := by
    rw [State.server_step_self]
    rfl
  unfold Server.scratch at hv hscratch
  rw [hnext, hguard] at hv
  -- the instructions that write the scratch register, then those that leave it alone
  cases hloc : (ms.server h).loc <;>
    simp only [hloc, Loc.next, reduceCtorEq, if_false, if_true] at hv hscratch
  case poll =>
    rw [Loc.instr, Instr.exec, State.reg_next, State.reg_setReg, if_pos (by decide), hrel.base]
    exact Option.some.inj hv
  case addr =>
    rw [Loc.instr, Instr.exec, State.reg_next, State.reg_setReg, if_pos (by decide),
      hscratch _ rfl, hrel.index hloc, ← Option.some.inj hv]
    exact syncWord_four_add h
  case acquire =>
    rw [Loc.instr, Instr.exec, State.reg_next, State.reg_setReg, if_pos (by decide), hrel.base,
      ← Option.some.inj hv]
    exact hshared.load 0 (by decide)
  case holder =>
    rw [Loc.instr, Instr.exec, State.reg_next, State.reg_setReg, if_pos (by decide), hrel.hart,
      ← Option.some.inj hv]
    rfl
  case test =>
    rw [reg_exec_of_ne _ _ (by decide)]
    split_ifs at hv
    exact hscratch v hv
  case retry =>
    rw [reg_exec_of_ne _ _ (by decide)]
    split_ifs at hv
    exact hscratch v hv
  case check => split_ifs at hv
  all_goals
    rw [reg_exec_of_ne _ _ (by decide)]
    exact hscratch v hv

/-- An instruction of the worker code is a step of the server. -/
theorem exec (hh : h < 8) (hrel : WorkerRel h (ms.server h) s) (hshared : SharedRel ms s) :
    WorkerRel h ((ms.step workerTag h).server h) ((ms.server h).loc.instr.exec s) where
  pc := hrel.pc_exec
  base := by
    rw [reg_exec_of_ne, hrel.base]
    cases (ms.server h).loc <;> decide
  hart := by
    rw [reg_exec_of_ne, hrel.hart]
    cases (ms.server h).loc <;> decide
  word := hrel.word_exec hh hshared
  count := hrel.count_exec hshared
  item := hrel.item_exec
  total := hrel.total_exec
  scratch _ hv := hrel.scratch_exec hshared hv
  index := hrel.index_exec

end WorkerRel

theorem mem_exec_of_target {l : Loc} (hl : l.target h = none) : (l.instr.exec s).mem = s.mem := by
  refine mem_exec_of_not_isStore _ _ ?_
  cases l <;> simp [Loc.target] at hl <;> decide

/-- The bytes of the sync words. -/
def InSyncWords (a : Word) : Prop := (a - smpSyncBase).toNat < 48

theorem inSyncWords_of_syncWord {j : Nat} (hj : j < 12) {a : Word}
    (ha : (a - syncWord j).toNat < 4) : InSyncWords a := by
  have haddr := toNat_syncWord hj
  have hbase : smpSyncBase.toNat = 0x80002000 := by decide
  unfold InSyncWords
  rw [BitVec.toNat_sub] at ha ⊢
  omega

/-- The worker code writes to the sync words only. -/
theorem mem_exec_of_not_inSyncWords (hh : h < 8) (hrel : WorkerRel h (ms.server h) s) {a : Word}
    (ha : ¬InSyncWords a) : ((ms.server h).loc.instr.exec s).mem a = s.mem a := by
  cases hj : (ms.server h).loc.target h with
  | none => rw [mem_exec_of_target hj]
  | some j =>
    rw [hrel.exec_of_target hj, State.mem_next, Rv32i.State.store]
    split_ifs
    · exact if_neg fun hin => ha (inSyncWords_of_syncWord (target_lt hh hj) hin)
    · rfl

theorem not_inSyncWords_pc (l : Loc) : ∀ k < 4, ¬InSyncWords (l.pc + BitVec.ofNat 32 k) := by
  unfold InSyncWords
  cases l <;> decide +kernel

namespace SharedRel

theorem congr {s' : Rv32i.State} (hshared : SharedRel ms s) (hmem : s'.mem = s.mem) :
    SharedRel ms s' := by
  refine ⟨fun k hk a ha => ?_, fun k hk => ?_⟩
  · rw [hmem]
    exact hshared.mapped k hk a ha
  · rw [← hshared.load k hk]
    exact State.load_congr fun a _ => by rw [hmem]

/-- A store to a sync word is one to a shared word. -/
theorem store {ms' : Mailbox.State Word} (hshared : SharedRel ms s) {j : Nat} (hj : j < 12)
    {v : Word} (hword : ∀ k < 12, ms'.word k = if k = j then v else ms.word k) :
    SharedRel ms' (s.store (syncWord j) v 4) := by
  refine ⟨fun k hk => (hshared.mapped k hk).store _ _ _, fun k hk => ?_⟩
  rw [State.load_store_syncWord _ _ hj hk (hshared.mapped j hj), hword k hk, hshared.load k hk]

theorem exec (hh : h < 8) (hrel : WorkerRel h (ms.server h) s) (hshared : SharedRel ms s) :
    SharedRel (ms.step workerTag h) ((ms.server h).loc.instr.exec s) := by
  have hword := ms.word_step workerTag h
  cases hj : (ms.server h).loc.target h with
  | none =>
    have hkept := hshared.congr (mem_exec_of_target (s := s) hj)
    refine ⟨hkept.mapped, fun k hk => ?_⟩
    rw [hkept.load k hk, hword, hj, if_neg (by simp)]
  | some j =>
    rw [hrel.exec_of_target hj]
    refine (hshared.store (target_lt hh hj) fun k _ => ?_).congr (State.mem_next _)
    rw [hword, hj]
    simp only [Option.some.injEq, eq_comm]

end SharedRel

namespace WorkerInv

theorem fetch (hinv : WorkerInv h ms s) : s.fetch = some (ms.server h).loc.instr.encode :=
  hinv.code.fetch hinv.worker.pc

/-- The instruction at the program counter keeps the code, and is a step of the mailbox. -/
theorem exec (hh : h < 8) (hinv : WorkerInv h ms s) :
    WorkerInv h (ms.step workerTag h) ((ms.server h).loc.instr.exec s) where
  code l := by
    rw [← hinv.code l]
    exact State.load_congr fun k hk =>
      mem_exec_of_not_inSyncWords hh hinv.worker (not_inSyncWords_pc l k hk)
  shared := hinv.shared.exec hh hinv.worker
  worker := hinv.worker.exec hh hinv.shared

end WorkerInv

end Exec

end Rv32Gdb
