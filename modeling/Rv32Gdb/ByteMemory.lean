import Mathlib.Data.BitVec
import Mathlib.Data.List.Induction
import Mathlib.Logic.Function.Basic
import Mathlib.Tactic.Common

/-!
# Strings in a memory

A memory is a function on `w`-bit addresses, and `storeAll m a i l` stores the elements of `l` at
`a + i`, `a + (i + 1)`, …, in this order.  `Stores m m' a l` says what a store of a whole string
is for: every element at its place, and nothing else changed.  `stores_storeAll` connects the two
as long as the string does not wrap around the address space.

A log of writes is a list of pairs of an address and an element, oldest first; `lastAt log a` is the
element written last at `a`.  `placed a l` is the log of a store of a string, which `lastAt_placed`
reads back.
-/

namespace Rv32Gdb

namespace ByteMemory

variable {w : Nat} {α : Type}

/-- The elements of `l`, stored from `a + i` on. -/
def storeAll (m : BitVec w → α) (a : BitVec w) (i : Nat) : List α → BitVec w → α
  | [] => m
  | b :: l => storeAll (Function.update m (a + BitVec.ofNat w i) b) a (i + 1) l

/-- `m'` is `m` with the string `l` stored from `a` on. -/
structure Stores (m m' : BitVec w → α) (a : BitVec w) (l : List α) : Prop where
  stored : ∀ k (h : k < l.length), m' (a + BitVec.ofNat w k) = l[k]
  frame : ∀ b, (∀ k < l.length, b ≠ a + BitVec.ofNat w k) → m' b = m b

theorem add_ofNat_ne {a : BitVec w} {i j : Nat} (hi : i < 2 ^ w) (hj : j < 2 ^ w) (h : i ≠ j) :
    a + BitVec.ofNat w i ≠ a + BitVec.ofNat w j := by
  intro he
  have := congrArg BitVec.toNat (BitVec.add_right_inj a |>.mp he)
  rw [BitVec.toNat_ofNat, BitVec.toNat_ofNat, Nat.mod_eq_of_lt hi, Nat.mod_eq_of_lt hj] at this
  exact h this

theorem storeAll_of_ne (m : BitVec w → α) (a : BitVec w) (i : Nat) (l : List α) (b : BitVec w)
    (h : ∀ k < l.length, b ≠ a + BitVec.ofNat w (i + k)) : storeAll m a i l b = m b := by
  induction l generalizing m i with
  | nil => rfl
  | cons c l ih =>
    rw [storeAll, ih]
    · exact Function.update_of_ne (h 0 (by simp)) _ _
    · intro k hk
      have := h (k + 1) (by simpa using hk)
      rwa [← Nat.add_assoc, Nat.add_right_comm] at this

theorem storeAll_add_ofNat (m : BitVec w → α) (a : BitVec w) (i : Nat) (l : List α)
    (hlen : i + l.length ≤ 2 ^ w) (k : Nat) (hk : k < l.length) :
    storeAll m a i l (a + BitVec.ofNat w (i + k)) = l[k] := by
  induction l generalizing m i k with
  | nil => simp at hk
  | cons c l ih =>
    rw [List.length_cons] at hlen hk
    rw [storeAll]
    cases k with
    | zero =>
      rw [storeAll_of_ne, Nat.add_zero, Function.update_self, List.getElem_cons_zero]
      intro j hj
      exact add_ofNat_ne (by omega) (by omega) (by omega)
    | succ k =>
      rw [List.getElem_cons_succ, ← ih _ (i + 1) (by omega) k (by omega)]
      congr 3
      omega

/-- A string that fits the address space is stored as it should be. -/
theorem stores_storeAll (m : BitVec w → α) (a : BitVec w) (l : List α) (hlen : l.length ≤ 2 ^ w) :
    Stores m (storeAll m a 0 l) a l where
  stored k hk := by
    have := storeAll_add_ofNat m a 0 l (by omega) k hk
    rwa [Nat.zero_add] at this
  frame b hb := storeAll_of_ne m a 0 l b (by simpa using hb)

/-! ### Logs of writes -/

/-- The element that was written last at `a`. -/
def lastAt (log : List (BitVec w × α)) (a : BitVec w) : Option α :=
  (log.reverse.find? fun e => e.1 = a).map Prod.snd

/-- The writes that store the string `l` from `a` on. -/
def placed (a : BitVec w) (l : List α) : List (BitVec w × α) :=
  l.mapIdx fun k b => (a + BitVec.ofNat w k, b)

@[simp]
theorem lastAt_nil (a : BitVec w) : lastAt ([] : List (BitVec w × α)) a = none := rfl

theorem lastAt_append (log log' : List (BitVec w × α)) (a : BitVec w) :
    lastAt (log ++ log') a = (lastAt log' a).or (lastAt log a) := by
  unfold lastAt
  rw [List.reverse_append, List.find?_append]
  cases log'.reverse.find? fun e => e.1 = a <;> rfl

theorem lastAt_singleton (a b : BitVec w) (c : α) :
    lastAt [(a, c)] b = if a = b then some c else none := by
  by_cases h : a = b
  · simp [lastAt, h]
  · simp [lastAt, h]

/-- What a store of a string has written is the string. -/
theorem lastAt_placed (a b : BitVec w) {l : List α} (hlen : l.length ≤ 2 ^ w) :
    lastAt (placed a l) b = l[(b - a).toNat]? := by
  induction l using List.reverseRecOn with
  | nil => rfl
  | append_singleton l c ih =>
    rw [List.length_append, List.length_singleton] at hlen
    have hlast : placed a (l ++ [c]) = placed a l ++ [(a + BitVec.ofNat w l.length, c)] := by
      unfold placed
      rw [List.mapIdx_concat]
    have heq : a + BitVec.ofNat w l.length = b ↔ (b - a).toNat = l.length := by
      rw [← eq_sub_iff_add_eq', ← BitVec.toNat_inj, BitVec.toNat_ofNat,
        Nat.mod_eq_of_lt (by omega)]
      exact eq_comm
    rw [hlast, lastAt_append, lastAt_singleton, ih (by omega)]
    by_cases h : (b - a).toNat = l.length
    · rw [if_pos (heq.mpr h), h]
      simp
    · rw [if_neg (mt heq.mp h), Option.none_or, List.getElem?_append]
      split_ifs with hlt
      · rfl
      · rw [List.getElem?_eq_none (by omega), List.getElem?_eq_none]
        rw [List.length_singleton]
        omega

end ByteMemory

end Rv32Gdb
