import Mathlib.Data.List.Basic
import Mathlib.Tactic.Common

/-!
# Run lengths

A string of bytes with run lengths is a list of tokens, each of which is a byte or a count of
repetitions of the byte before it.  `expand f` writes the string out, where a count `n` stands for
`f n` repetitions.

`take_expand_eq_iff` compares two readings of the counts: cut to its length, the longer one is the
shorter one if and only if every byte after the first run is the byte which that run repeats.
-/

namespace Rv32Gdb

/-- A byte, or a count of repetitions of the byte before. -/
inductive RunToken (α : Type)
  | byte (b : α)
  | run (n : Nat)
  deriving DecidableEq

namespace RunToken

variable {α : Type}

/-- The string of the tokens after the byte `prev`, where a count `n` stands for `f n`
repetitions. -/
def expand (f : Nat → Nat) : α → List (RunToken α) → List α
  | _, [] => []
  | _, byte b :: ts => b :: expand f b ts
  | prev, run n :: ts => List.replicate (f n) prev ++ expand f prev ts

/-- Every byte is `prev`. -/
def AllEq (prev : α) (ts : List (RunToken α)) : Prop := ∀ b, byte b ∈ ts → b = prev

/-- Every byte after the first run is the byte which that run repeats. -/
def AllEqAfterRun : α → List (RunToken α) → Prop
  | _, [] => True
  | _, byte b :: ts => AllEqAfterRun b ts
  | prev, run _ :: ts => AllEq prev ts

/-! ### Strings of one byte -/

theorem AllEq.tail {prev : α} {t : RunToken α} {ts : List (RunToken α)} (h : AllEq prev (t :: ts)) :
    AllEq prev ts := fun b hb => h b (List.mem_cons_of_mem t hb)

/-- Bytes that are all the same leave nothing but their number. -/
theorem expand_of_allEq (f : Nat → Nat) {prev : α} {ts : List (RunToken α)} (h : AllEq prev ts) :
    expand f prev ts = List.replicate (expand f prev ts).length prev := by
  induction ts with
  | nil => rfl
  | cons t ts ih =>
    cases t with
    | byte b =>
      obtain rfl := h b List.mem_cons_self
      rw [expand, List.length_cons, List.replicate_succ, ← ih h.tail]
    | run n =>
      rw [expand, List.length_append, List.length_replicate, List.replicate_add, ← ih h.tail]

/-! ### Two readings of the counts -/

variable {f g : Nat → Nat}

/-- Longer runs make a longer string. -/
theorem length_expand_le (hfg : ∀ n, f n ≤ g n) (prev : α) (ts : List (RunToken α)) :
    (expand f prev ts).length ≤ (expand g prev ts).length := by
  induction ts generalizing prev with
  | nil => exact Nat.le_refl _
  | cons t ts ih =>
    cases t with
    | byte b => exact Nat.succ_le_succ (ih b)
    | run n =>
      rw [expand, expand, List.length_append, List.length_append, List.length_replicate,
        List.length_replicate]
      exact Nat.add_le_add (hfg n) (ih prev)

theorem take_replicate_append (m k : Nat) (b : α) (l : List α) :
    (List.replicate m b ++ l).take (m + k) = List.replicate m b ++ l.take k := by
  have h : (List.replicate m b ++ l).take ((List.replicate m b).length + k) =
      List.replicate m b ++ l.take k := List.take_length_add_append k
  rwa [List.length_replicate] at h

/-- A string that is the longer one after `m` more repetitions has no other byte. -/
theorem allEq_of_take_eq (hfg : ∀ n, f n ≤ g n) {prev : α} {ts : List (RunToken α)} {m : Nat}
    (hm : 0 < m) (h : (List.replicate m prev ++ expand g prev ts).take (expand f prev ts).length =
      expand f prev ts) : AllEq prev ts := by
  induction ts generalizing m with
  | nil => exact fun b hb => absurd hb List.not_mem_nil
  | cons t ts ih =>
    obtain ⟨k, rfl⟩ := Nat.exists_eq_add_of_lt hm
    rw [Nat.zero_add] at h
    cases t with
    | byte b =>
      rw [expand, expand, List.length_cons, List.replicate_succ, List.cons_append,
        List.take_succ_cons, List.cons.injEq] at h
      obtain ⟨rfl, h⟩ := h
      rw [← List.singleton_append, ← List.append_assoc,
        show List.replicate k prev ++ [prev] = List.replicate (k + 1) prev from
          List.replicate_succ'.symm] at h
      intro c hc
      rcases List.mem_cons.mp hc with hc | hc
      · exact RunToken.byte.inj hc
      · exact ih (Nat.succ_pos k) h c hc
    | run n =>
      have hgap : k + 1 + g n = f n + (k + 1 + (g n - f n)) := by
        have := hfg n
        omega
      rw [expand, expand, List.length_append, List.length_replicate, ← List.append_assoc,
        ← List.replicate_add, hgap, List.replicate_add, List.append_assoc,
        take_replicate_append] at h
      intro c hc
      rcases List.mem_cons.mp hc with hc | hc
      · cases hc
      · exact ih (by omega) (List.append_cancel_left h) c hc

/-- The longer string, cut to the length of the shorter one, is the shorter one if and only if
every byte after the first run is the byte which that run repeats. -/
theorem take_expand_eq_iff (hfg : ∀ n, f n ≤ g n) {prev : α} {ts : List (RunToken α)}
    (hlt : ∀ n, run n ∈ ts → f n < g n) :
    (expand g prev ts).take (expand f prev ts).length = expand f prev ts ↔
      AllEqAfterRun prev ts := by
  induction ts generalizing prev with
  | nil => exact iff_of_true rfl trivial
  | cons t ts ih =>
    cases t with
    | byte b =>
      rw [expand, expand, List.length_cons, List.take_succ_cons, List.cons.injEq]
      exact (and_iff_right rfl).trans (ih fun n hn => hlt n (List.mem_cons_of_mem _ hn))
    | run n =>
      have hn := hlt n List.mem_cons_self
      constructor
      · intro h
        have hgap : g n = f n + (g n - f n) := by omega
        rw [expand, expand, List.length_append, List.length_replicate, hgap, List.replicate_add,
          List.append_assoc, take_replicate_append] at h
        exact allEq_of_take_eq hfg (Nat.sub_pos_of_lt hn) (List.append_cancel_left h)
      · intro h
        have hle := length_expand_le hfg prev (run n :: ts)
        have hall : AllEq prev (run n :: ts) := by
          intro c hc
          rcases List.mem_cons.mp hc with hc | hc
          · cases hc
          · exact h c hc
        rw [expand_of_allEq g hall, expand_of_allEq f hall, List.take_replicate,
          List.length_replicate, Nat.min_eq_left hle]

end RunToken

end Rv32Gdb
