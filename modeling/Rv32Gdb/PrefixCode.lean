import Mathlib.InformationTheory.Coding.UniquelyDecodable

/-!
# Prefix codes

A set of words none of which is empty or a proper prefix of another is uniquely decodable
(`IsPrefixCode.uniquelyDecodable`): a stream of words splits into words in one way.  Prefix codes
are put together with `isPrefixCode_singleton` and `IsPrefixCode.union`, the latter for words that
begin differently.
-/

namespace Rv32Gdb

open InformationTheory (UniquelyDecodable)

variable {α : Type*} {S T : Set (List α)}

/-- No word is empty, and none is a proper prefix of another. -/
structure IsPrefixCode (S : Set (List α)) : Prop where
  nil_notMem : [] ∉ S
  eq_of_isPrefix : ∀ v ∈ S, ∀ w ∈ S, v <+: w → v = w

theorem isPrefixCode_singleton {w : List α} (hw : w ≠ []) : IsPrefixCode {w} :=
  ⟨fun h => hw h.symm, fun _ hv _ hw' _ => hv.trans hw'.symm⟩

/-- The words of both sets, if those of the one begin with other letters than those of the other. -/
theorem IsPrefixCode.union (hS : IsPrefixCode S) (hT : IsPrefixCode T)
    (hhead : ∀ v ∈ S, ∀ w ∈ T, v.head? ≠ w.head?) : IsPrefixCode (S ∪ T) := by
  have hdiff : ∀ {v w : List α}, v ≠ [] → v <+: w → v.head? = w.head? := by
    rintro (_ | ⟨a, v⟩) w hne hvw
    · exact absurd rfl hne
    · obtain ⟨t, rfl⟩ := hvw
      rfl
  have hne : ∀ {U : Set (List α)}, IsPrefixCode U → ∀ w ∈ U, w ≠ [] :=
    fun hU w hw he => hU.nil_notMem (he ▸ hw)
  refine ⟨fun h => h.elim hS.nil_notMem hT.nil_notMem, ?_⟩
  rintro v (hv | hv) w (hw | hw) hvw
  · exact hS.eq_of_isPrefix v hv w hw hvw
  · exact absurd (hdiff (hne hS v hv) hvw) (hhead v hv w hw)
  · exact absurd (hdiff (hne hT v hv) hvw).symm (hhead w hw v hv)
  · exact hT.eq_of_isPrefix v hv w hw hvw

/-- A stream that begins another one consists of the first words of that one: the first word is
determined, and with it the rest. -/
theorem IsPrefixCode.isPrefix (hS : IsPrefixCode S) {L₁ L₂ : List (List α)}
    (h₁ : ∀ w ∈ L₁, w ∈ S) (h₂ : ∀ w ∈ L₂, w ∈ S) (h : L₁.flatten <+: L₂.flatten) :
    L₁ <+: L₂ := by
  induction L₁ generalizing L₂ with
  | nil => exact List.nil_prefix
  | cons v L₁ ih =>
    have hv := h₁ v List.mem_cons_self
    rw [List.flatten_cons] at h
    cases L₂ with
    | nil =>
      have hnil : v = [] := (List.append_eq_nil_iff.mp (List.prefix_nil.mp h)).1
      exact absurd (hnil ▸ hv) hS.nil_notMem
    | cons w L₂ =>
      have hw := h₂ w List.mem_cons_self
      rw [List.flatten_cons] at h
      have hvw : v = w := by
        have hpre : v <+: w ++ L₂.flatten := (List.prefix_append _ _).trans h
        rcases List.prefix_or_prefix_of_prefix hpre (List.prefix_append w _) with h | h
        · exact hS.eq_of_isPrefix v hv w hw h
        · exact (hS.eq_of_isPrefix w hw v hv h).symm
      subst hvw
      exact List.cons_prefix_cons.mpr ⟨rfl, ih (fun u hu => h₁ u (List.mem_cons_of_mem _ hu))
        (fun u hu => h₂ u (List.mem_cons_of_mem _ hu)) ((List.prefix_append_right_inj v).mp h)⟩

/-- Equal streams begin each other. -/
theorem IsPrefixCode.uniquelyDecodable (hS : IsPrefixCode S) : UniquelyDecodable S := by
  intro L₁ L₂ h₁ h₂ he
  have h := hS.isPrefix h₁ h₂ ⟨[], (List.append_nil _).trans he⟩
  have h' := hS.isPrefix h₂ h₁ ⟨[], (List.append_nil _).trans he.symm⟩
  exact h.eq_of_length_le h'.length_le

end Rv32Gdb
