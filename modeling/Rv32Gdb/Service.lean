import Mathlib.Data.List.Basic
import Mathlib.Tactic.Common

/-!
# Services and the programs that implement them

A service answers requests: `step` gives the state after a request and what is sent for it.  A
`StreamProgram` reads requests off an input and appends what it sends to an output, one request
for each call.  It implements a service under an invariant and an abstraction function
(`Implements`) if one call on a readable request does one step; `Implements.calls` says the same of
any number of requests in a row.
-/

namespace Rv32Gdb

/-- For each request, the state after it and what is sent for it. -/
structure Service (S ι γ : Type) where
  step : S → ι → S × List γ

namespace Service

variable {S ι γ : Type} (V : Service S ι γ)

/-- The state after some requests. -/
def after : S → List ι → S
  | s, [] => s
  | s, i :: is => after (V.step s i).1 is

/-- What is sent for some requests. -/
def sends : S → List ι → List γ
  | _, [] => []
  | s, i :: is => (V.step s i).2 ++ sends (V.step s i).1 is

theorem after_append (s : S) (is js : List ι) : V.after s (is ++ js) = V.after (V.after s is) js := by
  induction is generalizing s with
  | nil => rfl
  | cons i is ih => exact ih _

theorem sends_append (s : S) (is js : List ι) :
    V.sends s (is ++ js) = V.sends s is ++ V.sends (V.after s is) js := by
  induction is generalizing s with
  | nil => rfl
  | cons i is ih => rw [List.cons_append, sends, sends, ih, List.append_assoc, after]

/-- What the requests preserve holds after them. -/
theorem after_induction {P : S → Prop} {is : List ι} (h : ∀ i ∈ is, ∀ s, P s → P (V.step s i).1)
    {s : S} (hs : P s) : P (V.after s is) := by
  induction is generalizing s with
  | nil => exact hs
  | cons i is ih =>
    exact ih (fun j hj => h j (List.mem_cons_of_mem _ hj)) (h i List.mem_cons_self s hs)

end Service

/-- A program that reads an input and appends to an output; `call` relates the states before and
after a call. -/
structure StreamProgram (C β γ : Type) where
  input : C → List β
  output : C → List γ
  call : C → C → Prop

namespace StreamProgram

variable {C β γ S ι : Type} (M : StreamProgram C β γ)

/-- The states before and after some calls in a row. -/
def calls : Nat → C → C → Prop
  | 0, c, c' => c' = c
  | n + 1, c, c' => ∃ c₁, M.call c c₁ ∧ calls n c₁ c'

/-- One call on the text of a request does one step of the service. -/
def Implements (V : Service S ι γ) (abs : C → S) (Inv : C → Prop) (Text : ι → List β → Prop) :
    Prop :=
  ∀ c i text rest, Inv c → Text i text → M.input c = text ++ rest →
    ∃ c', M.call c c' ∧ Inv c' ∧ M.input c' = rest ∧
      M.output c' = M.output c ++ (V.step (abs c) i).2 ∧ abs c' = (V.step (abs c) i).1

/-- Requests in a row are answered as by the service. -/
theorem Implements.calls {M : StreamProgram C β γ} {V : Service S ι γ} {abs : C → S}
    {Inv : C → Prop} {Text : ι → List β → Prop} (h : M.Implements V abs Inv Text) {c : C}
    (hc : Inv c) (requests : List (ι × List β)) (rest : List β)
    (htext : ∀ r ∈ requests, Text r.1 r.2)
    (hin : M.input c = requests.flatMap Prod.snd ++ rest) :
    ∃ c', M.calls requests.length c c' ∧ Inv c' ∧ M.input c' = rest ∧
      M.output c' = M.output c ++ V.sends (abs c) (requests.map Prod.fst) ∧
      abs c' = V.after (abs c) (requests.map Prod.fst) := by
  induction requests generalizing c with
  | nil => exact ⟨c, rfl, hc, hin, (List.append_nil _).symm, rfl⟩
  | cons r requests ih =>
    rw [List.flatMap_cons, List.append_assoc] at hin
    obtain ⟨c₁, hcall, hc₁, hin₁, hout₁, habs₁⟩ := h c r.1 r.2 _ hc
      (htext r List.mem_cons_self) hin
    obtain ⟨c₂, hcalls, hc₂, hin₂, hout₂, habs₂⟩ := ih hc₁
      (fun r hr => htext r (List.mem_cons_of_mem _ hr)) hin₁
    refine ⟨c₂, ⟨c₁, hcall, hcalls⟩, hc₂, hin₂, ?_, ?_⟩
    · rw [hout₂, hout₁, habs₁, List.append_assoc]
      rfl
    · rw [habs₂, habs₁]
      rfl

end StreamProgram

end Rv32Gdb
