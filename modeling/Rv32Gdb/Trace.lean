import Mathlib.Logic.Relation

/-!
# Marked events in traces

`OnlyLast p q l`: an entry of the trace `l` that satisfies `p` is the last one, and `q` holds of
it.  `onlyLast_of_run` lifts this from the steps of a transition relation to its runs, when `q`
fails in every state that can still step: an event that must stop a system does so in every run
if it does so in every step.
-/

namespace Rv32Gdb

section OnlyLast

variable {α : Type} {p q : α → Prop} {l l₁ l₂ : List α}

/-- Entries with `p` stand at the end and satisfy `q`. -/
def OnlyLast (p q : α → Prop) (l : List α) : Prop :=
  ∀ pre a post, l = pre ++ a :: post → p a → post = [] ∧ q a

theorem onlyLast_of_forall_not (h : ∀ a ∈ l, ¬p a) : OnlyLast p q l := by
  rintro pre a post rfl ha
  exact absurd ha (h a (by simp))

theorem onlyLast_singleton {a : α} (h : p a → q a) : OnlyLast p q [a] := by
  intro pre b post he hb
  rcases List.append_eq_singleton_iff.mp he.symm with ⟨rfl, hrest⟩ | ⟨-, hrest⟩
  · obtain ⟨rfl, rfl⟩ := List.cons.inj hrest
    exact ⟨rfl, h hb⟩
  · exact absurd hrest (List.cons_ne_nil _ _)

theorem OnlyLast.forall_not (h : OnlyLast p q l) (hq : ∀ a, ¬q a) : ∀ a ∈ l, ¬p a := by
  intro a ha hp
  obtain ⟨pre, post, rfl⟩ := List.append_of_mem ha
  exact hq a (h pre a post rfl hp).2

theorem OnlyLast.append (h₁ : ∀ a ∈ l₁, ¬p a) (h₂ : OnlyLast p q l₂) :
    OnlyLast p q (l₁ ++ l₂) := by
  intro pre a post he ha
  rcases List.append_eq_append_iff.mp he with ⟨mid, -, h2⟩ | ⟨mid, h1, h2⟩
  · exact h₂ mid a post h2 ha
  · cases mid with
    | nil => exact h₂ [] a post h2.symm ha
    | cons b mid =>
      obtain ⟨rfl, -⟩ := List.cons.inj h2
      exact absurd ha (h₁ a (by rw [h1]; simp))

end OnlyLast

section Run

variable {S α : Type} {step : S → S → Prop} (trace : S → List α) {I : S → Prop} {p : α → Prop}
    {q : S → α → Prop}

/-- What every step adds to the trace, every run does. -/
theorem onlyLast_of_run (hinv : ∀ {s s'}, I s → step s s' → I s')
    (hlive : ∀ {s s' a}, step s s' → ¬q s a)
    (hstep : ∀ {s s'}, I s → step s s' → ∃ l, trace s' = trace s ++ l ∧ OnlyLast p (q s') l)
    {s₁ s : S} (hI : I s₁) (hrun : Relation.ReflTransGen step s₁ s) :
    I s ∧ ∃ l, trace s = trace s₁ ++ l ∧ OnlyLast p (q s) l := by
  induction hrun with
  | refl => exact ⟨hI, [], by simp, onlyLast_of_forall_not (by simp)⟩
  | @tail s s' _ hs ih =>
    obtain ⟨hIs, l, htrace, hlast⟩ := ih
    obtain ⟨l', htrace', hlast'⟩ := hstep hIs hs
    refine ⟨hinv hIs hs, l ++ l', by rw [htrace', htrace, List.append_assoc], ?_⟩
    exact OnlyLast.append (hlast.forall_not fun a => hlive hs) hlast'

end Run

end Rv32Gdb
