import Rv32Gdb.Stub.Process

/-!
# Where the stub gets stuck

`Avoids e r` says that `r` does not end in the error `e`.  The loops of the handlers can only end in
the errors of the steps they are made of: a store outside an array, a read outside the packet buffer
(`avoids_peek`, and so `avoids_writeMemoryLoop`), and a shift by too many bits (`avoids_parseHexLe`).
-/

namespace Rv32Gdb

variable {x : Xlen} {σ : Type} {e : Stuck}

/-- The result is not the error `e`. -/
def Avoids (e : Stuck) {α : Type} (r : Result α) : Prop := r ≠ .error e

theorem avoids_ok {α : Type} (a : α) : Avoids e (.ok a) := fun h => by cases h

theorem avoids_error {α : Type} {e' : Stuck} (h : e ≠ e') : Avoids e (.error e' : Result α) :=
  fun he => h (Except.error.inj he).symm

theorem avoids_bind {α β : Type} {r : Result α} {f : α → Result β} (hr : Avoids e r)
    (hf : ∀ a, Avoids e (f a)) : Avoids e (r >>= f) := by
  cases r with
  | error e => exact fun he => hr (congrArg Except.error (Except.error.inj he))
  | ok a => exact hf a

theorem avoids_cond {α : Type} {c : Prop} [Decidable c] {r r' : Result α} (h : c → Avoids e r)
    (h' : ¬c → Avoids e r') : Avoids e (if c then r else r') := by
  split_ifs with hc
  · exact h hc
  · exact h' hc

theorem avoids_ite {α : Type} {c : Prop} [Decidable c] {r r' : Result α} (h : Avoids e r)
    (h' : Avoids e r') : Avoids e (if c then r else r') := avoids_cond (fun _ => h) fun _ => h'

theorem avoids_andReturnZero {r : Result (World x σ)} (h : Avoids e r) :
    Avoids e (andReturnZero r) :=
  avoids_bind h fun _ => avoids_ok _

/-! ### Stores -/

section Store

variable {cap : Nat} (he : e ≠ .outOfBoundsWrite)

include he

theorem avoids_push (a : CharArray cap) (c : Byte) : Avoids e (a.push c) := by
  unfold CharArray.push
  split_ifs
  · exact avoids_ok _
  · exact avoids_error he

theorem avoids_pushAll (a : CharArray cap) (s : List Byte) : Avoids e (a.pushAll s) := by
  induction s generalizing a with
  | nil => exact avoids_ok _
  | cons c s ih => exact avoids_bind (avoids_push he a c) ih

theorem avoids_terminate (a : CharArray cap) : Avoids e a.terminate :=
  avoids_ite (avoids_ok _) (avoids_error he)

theorem avoids_snprintfAt (a : CharArray cap) (size : Nat) (text : List Byte) :
    Avoids e (a.snprintfAt size text) := by
  unfold CharArray.snprintfAt
  exact avoids_ite (avoids_ok _) (avoids_bind (avoids_pushAll he _ _) fun a =>
    avoids_bind (avoids_terminate he a) fun _ => avoids_ok _)

theorem avoids_readMemoryLoop (cb : GdbCallbacks x σ) (addr : GdbAddr x) (n i : Nat)
    (w : World x σ) (p : CharArray gdbBufferSize) :
    Avoids e (readMemoryLoop cb addr n i w p) := by
  induction n generalizing i w p with
  | zero => exact avoids_ok _
  | succ n ih => exact avoids_bind (avoids_pushAll he _ _) fun p => ih _ _ p

theorem avoids_readRegistersLoop (cb : GdbCallbacks x σ) (is : List Nat) (w : World x σ)
    (p : CharArray gdbBufferSize) : Avoids e (readRegistersLoop cb is w p) := by
  induction is generalizing w p with
  | nil => exact avoids_ok _
  | cons i is ih => exact avoids_bind (avoids_pushAll he _ _) fun p => ih _ p

theorem avoids_threadInfoLoop (multiprocess : Bool) (n h : Nat)
    (response : CharArray gdbBufferSize) (pos : Nat) :
    Avoids e (threadInfoLoop multiprocess n h response pos) := by
  induction n generalizing h response pos with
  | zero => exact avoids_ok _
  | succ n ih =>
    rw [threadInfoLoop]
    exact avoids_ite (avoids_bind (avoids_snprintfAt he _ _ _) fun _ => ih _ _ _) (avoids_ok _)

theorem avoids_threadInfo (multiprocess : Bool) (numHarts : Int) :
    Avoids e (threadInfo multiprocess numHarts) :=
  avoids_bind (avoids_snprintfAt he _ _ _) fun _ =>
    avoids_bind (avoids_threadInfoLoop he _ _ _ _ _) fun _ => avoids_ok _

theorem avoids_decodeRspBinary (dstLen : Nat) (src : List Byte) (dst : CharArray cap) :
    Avoids e (decodeRspBinary dstLen src dst) := by
  fun_induction decodeRspBinary dstLen src dst
  case case3 ih => exact avoids_bind (avoids_pushAll he _ _) ih
  case case6 ih => exact avoids_bind (avoids_push he _ _) ih
  case case7 ih => exact avoids_bind (avoids_push he _ _) ih
  all_goals exact avoids_ok _

theorem avoids_vcontSpec (actions : List Byte) : Avoids e (vcontSpec actions) := by
  cases actions with
  | nil => exact avoids_ok _
  | cons c spec =>
    rw [vcontSpec]
    exact avoids_ite (avoids_ite (avoids_ok _) (avoids_bind (avoids_pushAll he _ _) fun a =>
      avoids_bind (avoids_terminate he a) fun _ => avoids_ok _)) (avoids_ok _)

theorem avoids_vcontLoop (hfuel : e ≠ .outOfFuel) (d : DebugState x) (n : Nat)
    (actions : List Byte) (s : VcontState) : Avoids e (vcontLoop d n actions s) := by
  induction n generalizing actions s with
  | zero =>
    cases actions with
    | nil => exact avoids_ok _
    | cons c actions => exact avoids_error hfuel
  | succ n ih =>
    cases actions with
    | nil => exact avoids_ok _
    | cons action actions =>
      rw [vcontLoop]
      refine avoids_bind (avoids_vcontSpec he _) fun spec => ?_
      rcases spec with _ | ⟨⟨pid, tid⟩, rest⟩
      · exact avoids_ok _
      · refine avoids_ite (avoids_ok _) ?_
        cases vcontAction d action pid tid s with
        | reply payload => exact avoids_ok _
        | actions s => exact ih _ _

end Store

/-! ### Reads and shifts -/

theorem avoids_peek (he : e ≠ .outOfBoundsRead) (s : GdbStub) (i : Nat) : Avoids e (s.peek i) := by
  unfold GdbStub.peek
  split_ifs
  · exact avoids_ok _
  · exact avoids_error he

theorem avoids_writeMemoryLoop (he : e ≠ .outOfBoundsRead) (cb : GdbCallbacks x σ)
    (addr : GdbAddr x) (data n i : Nat) (w : World x σ) :
    Avoids e (writeMemoryLoop cb addr data n i w) := by
  induction n generalizing i w with
  | zero => exact avoids_ok _
  | succ n ih =>
    exact avoids_bind (avoids_peek he _ _) fun _ => avoids_bind (avoids_peek he _ _) fun _ => ih _ _

theorem avoids_parseHexLe (he : e ≠ .shiftOverflow) (str : List Byte) (hexChars : Nat) :
    Avoids e (parseHexLe x str hexChars) := by
  have hloop : ∀ n i str value, Avoids e (parseHexLeLoop x i n str value) := by
    intro n
    induction n with
    | zero => exact fun _ _ _ => avoids_ok _
    | succ n ih =>
      intro i str value
      rcases str with _ | ⟨hi, _ | ⟨lo, rest⟩⟩
      · exact avoids_ok _
      · exact avoids_ok _
      · rw [parseHexLeLoop]
        exact avoids_ite (avoids_error he) (ih _ _ _)
  exact hloop _ _ _ _

theorem avoids_writeRegistersLoop (he : e ≠ .shiftOverflow) (cb : GdbCallbacks x σ)
    (is : List Nat) (w : World x σ) : Avoids e (writeRegistersLoop cb is w) := by
  induction is generalizing w with
  | nil => exact avoids_ok _
  | cons i is ih => exact avoids_bind (avoids_parseHexLe he _ _) fun _ => ih _

theorem avoids_searchLoop (he : e ≠ .outOfFuel) (cb : GdbCallbacks x σ) (last : GdbAddr x)
    (pattern : List Byte) (fuel : Nat) (addr : GdbAddr x) (w : World x σ) :
    Avoids e (searchLoop cb last pattern fuel addr w) := by
  induction fuel generalizing addr w with
  | zero => exact avoids_error he
  | succ fuel ih =>
    rw [searchLoop]
    exact avoids_ite (avoids_ite (avoids_ok _) (ih _ _)) (avoids_ok _)

end Rv32Gdb
