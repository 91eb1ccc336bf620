import Mathlib.Data.List.DropRight
import Mathlib.Data.List.Find
import Mathlib.Data.List.Induction
import Mathlib.Data.List.Nodup
import Mathlib.Tactic.Common

/-!
# Tables of enabled slots

A `SlotTable κ cap` is an array of at most `cap` slots with distinct keys, each of them enabled or
not.  `insert` re-enables the slot of a key that is present and appends a new slot otherwise,
`remove` disables the slot of a key without freeing it, and `clear` empties the table.

`insert_isSome_iff` and `mem_active_insert`, `mem_active_remove`, `mem_active_clear` say what the
operations do to the set of enabled keys, and `find?_slots_remove` that a search passes by a removed
key as if it had no slot (`without`); `run` applies a list of operations, and `keys_run` says
that the keys of the slots are the distinct keys inserted since the last `clear`, as long as there
was room for them (`usedKeys`).

`Logged t log` is a run with its log, which says of each operation whether it was accepted.  The log
alone determines the answers: a key is enabled if the last accepted operation on it is an insertion
(`Logged.mem_active_iff`), and can be removed if an insertion of it has been accepted
(`Logged.remove_isSome_iff`), all since the last `clear`.
-/

namespace Rv32Gdb

/-- One slot of a table. -/
structure Slot (κ : Type) where
  key : κ
  enabled : Bool
  deriving DecidableEq, Repr

/-- An array of at most `cap` slots with distinct keys. -/
structure SlotTable (κ : Type) (cap : Nat) where
  slots : List (Slot κ)
  nodup : (slots.map Slot.key).Nodup
  bound : slots.length ≤ cap

/-- The first slot with key `k` gets the flag `b`; `none` if there is no such slot. -/
def setEnabled {κ : Type} [DecidableEq κ] (k : κ) (b : Bool) : List (Slot κ) →
    Option (List (Slot κ))
  | [] => none
  | s :: ss =>
    if s.key = k then some ({ s with enabled := b } :: ss)
    else (setEnabled k b ss).map (s :: ·)

section SetEnabled

variable {κ : Type} [DecidableEq κ]

theorem setEnabled_eq_none_iff (k : κ) (b : Bool) (ss : List (Slot κ)) :
    setEnabled k b ss = none ↔ k ∉ ss.map Slot.key := by
  induction ss with
  | nil => simp [setEnabled]
  | cons s ss ih =>
    unfold setEnabled
    split_ifs with h
    · simp [h]
    · rw [Option.map_eq_none_iff, ih]
      simp [Ne.symm h]

theorem map_key_setEnabled {k : κ} {b : Bool} {ss ss' : List (Slot κ)}
    (h : setEnabled k b ss = some ss') : ss'.map Slot.key = ss.map Slot.key := by
  induction ss generalizing ss' with
  | nil => simp [setEnabled] at h
  | cons s ss ih =>
    unfold setEnabled at h
    split_ifs at h with hk
    · obtain rfl := Option.some.inj h
      simp
    · obtain ⟨t, ht, rfl⟩ := Option.map_eq_some_iff.mp h
      simp [ih ht]

theorem length_setEnabled {k : κ} {b : Bool} {ss ss' : List (Slot κ)}
    (h : setEnabled k b ss = some ss') : ss'.length = ss.length := by
  have := congrArg List.length (map_key_setEnabled h)
  simpa using this

/-- In a table with distinct keys, `setEnabled` replaces the flag of exactly the key's slot. -/
theorem mem_setEnabled {k : κ} {b : Bool} {ss ss' : List (Slot κ)}
    (hnd : (ss.map Slot.key).Nodup) (h : setEnabled k b ss = some ss') (s : Slot κ) :
    s ∈ ss' ↔ s = ⟨k, b⟩ ∨ s ∈ ss ∧ s.key ≠ k := by
  induction ss generalizing ss' with
  | nil => simp [setEnabled] at h
  | cons t ss ih =>
    rw [List.map_cons, List.nodup_cons] at hnd
    unfold setEnabled at h
    split_ifs at h with hk
    · obtain rfl := Option.some.inj h
      have hnot : ∀ u ∈ ss, u.key ≠ k := fun u hu huk =>
        hnd.1 (hk ▸ huk ▸ List.mem_map_of_mem hu)
      rw [List.mem_cons, List.mem_cons, ← hk]
      constructor
      · rintro (rfl | hs)
        · exact Or.inl rfl
        · exact Or.inr ⟨Or.inr hs, hk ▸ hnot s hs⟩
      · rintro (rfl | ⟨rfl | hs, hne⟩)
        · exact Or.inl rfl
        · exact absurd rfl hne
        · exact Or.inr hs
    · obtain ⟨t', ht', rfl⟩ := Option.map_eq_some_iff.mp h
      rw [List.mem_cons, List.mem_cons, ih hnd.2 ht']
      constructor
      · rintro (rfl | rfl | ⟨hs, hne⟩)
        · exact Or.inr ⟨Or.inl rfl, hk⟩
        · exact Or.inl rfl
        · exact Or.inr ⟨Or.inr hs, hne⟩
      · rintro (rfl | ⟨rfl | hs, hne⟩)
        · exact Or.inr (Or.inl rfl)
        · exact Or.inl rfl
        · exact Or.inr (Or.inr ⟨hs, hne⟩)

end SetEnabled

namespace SlotTable

variable {κ : Type} {cap : Nat}

/-- The table without slots. -/
def empty (κ : Type) (cap : Nat) : SlotTable κ cap := ⟨[], List.nodup_nil, Nat.zero_le _⟩

theorem ext {t u : SlotTable κ cap} (h : t.slots = u.slots) : t = u := by
  cases t; cases u; simpa using h

/-- The keys of the slots, enabled or not. -/
def keys (t : SlotTable κ cap) : List κ := t.slots.map Slot.key

/-- The enabled keys. -/
def active (t : SlotTable κ cap) : List κ := (t.slots.filter (·.enabled)).map Slot.key

theorem mem_active (t : SlotTable κ cap) (k : κ) : k ∈ t.active ↔ ⟨k, true⟩ ∈ t.slots := by
  simp only [active, List.mem_map, List.mem_filter]
  constructor
  · rintro ⟨⟨k', e⟩, ⟨hs, he⟩, rfl⟩
    obtain rfl : e = true := he
    exact hs
  · exact fun h => ⟨⟨k, true⟩, ⟨h, rfl⟩, rfl⟩

theorem length_keys (t : SlotTable κ cap) : t.keys.length = t.slots.length := by
  simp [keys]

theorem length_active_le (t : SlotTable κ cap) : t.active.length ≤ t.slots.length := by
  rw [active, List.length_map]
  exact List.length_filter_le _ _

theorem mem_keys_of_mem_active {t : SlotTable κ cap} {k : κ} (h : k ∈ t.active) : k ∈ t.keys :=
  List.mem_map.mpr ⟨_, (mem_active t k).mp h, rfl⟩

variable [DecidableEq κ]

/-- Setting the flag of a key that is present. -/
def setKey (t : SlotTable κ cap) (k : κ) (b : Bool) : Option (SlotTable κ cap) :=
  match h : setEnabled k b t.slots with
  | none => none
  | some ss => some ⟨ss, by rw [map_key_setEnabled h]; exact t.nodup,
      by rw [length_setEnabled h]; exact t.bound⟩

theorem setKey_eq_none_iff (t : SlotTable κ cap) (k : κ) (b : Bool) :
    t.setKey k b = none ↔ k ∉ t.keys := by
  rw [keys, ← setEnabled_eq_none_iff k b]
  unfold setKey
  split <;> simp [*]

theorem slots_setKey {t u : SlotTable κ cap} {k : κ} {b : Bool} (h : t.setKey k b = some u) :
    setEnabled k b t.slots = some u.slots := by
  unfold setKey at h
  split at h
  · exact absurd h (by simp)
  · next ss hss =>
    obtain rfl := Option.some.inj h
    exact hss

/-- A new enabled slot at the end, when there is room for it. -/
def push (t : SlotTable κ cap) (k : κ) (hk : k ∉ t.keys) (hlen : t.slots.length < cap) :
    SlotTable κ cap where
  slots := t.slots ++ [⟨k, true⟩]
  nodup := by
    rw [List.map_append, List.map_singleton]
    exact List.nodup_append.mpr ⟨t.nodup, List.nodup_singleton _, fun a ha b hb => by
      obtain rfl := List.mem_singleton.mp hb
      rintro rfl
      exact hk ha⟩
  bound := by simpa using Nat.succ_le_of_lt hlen

/-- Enabling a key: refused when the table is full, else the slot of the key is enabled, or a new
slot appended if there is none. -/
def insert (t : SlotTable κ cap) (k : κ) : Option (SlotTable κ cap) :=
  if hlen : cap ≤ t.slots.length then none
  else match h : t.setKey k true with
    | some u => some u
    | none => some (t.push k ((setKey_eq_none_iff t k true).mp h) (Nat.not_le.mp hlen))

/-- Disabling a key; the slot stays. -/
def remove (t : SlotTable κ cap) (k : κ) : Option (SlotTable κ cap) := t.setKey k false

omit [DecidableEq κ] in
theorem keys_empty : (empty κ cap).keys = [] := rfl

omit [DecidableEq κ] in
theorem active_empty : (empty κ cap).active = [] := rfl

theorem insert_isSome_iff (t : SlotTable κ cap) (k : κ) :
    (t.insert k).isSome ↔ t.slots.length < cap := by
  unfold insert
  split_ifs with hlen
  · simpa using hlen
  · split <;> simpa using hlen

/-- After a successful `insert` the enabled keys are the old ones and `k`. -/
theorem mem_active_insert {t u : SlotTable κ cap} {k : κ} (h : t.insert k = some u) (k' : κ) :
    k' ∈ u.active ↔ k' = k ∨ k' ∈ t.active := by
  unfold insert at h
  split_ifs at h with hlen
  split at h
  · next v hv =>
    obtain rfl := Option.some.inj h
    rw [mem_active, mem_active, mem_setEnabled t.nodup (slots_setKey hv)]
    by_cases hk : k' = k <;> simp [hk]
  · obtain rfl := Option.some.inj h
    rw [mem_active, mem_active, push, List.mem_append, List.mem_singleton, Slot.mk.injEq, or_comm]
    simp

/-- After a successful `remove` the enabled keys are the old ones without `k`. -/
theorem mem_active_remove {t u : SlotTable κ cap} {k : κ} (h : t.remove k = some u) (k' : κ) :
    k' ∈ u.active ↔ k' ≠ k ∧ k' ∈ t.active := by
  rw [mem_active, mem_active, mem_setEnabled t.nodup (slots_setKey h)]
  by_cases hk : k' = k <;> simp [hk]

theorem keys_insert {t u : SlotTable κ cap} {k : κ} (h : t.insert k = some u) :
    u.keys = if k ∈ t.keys then t.keys else t.keys ++ [k] := by
  unfold insert at h
  split_ifs at h with hlen
  split at h
  · next v hv =>
    obtain rfl := Option.some.inj h
    have hmem : k ∈ t.keys := by
      by_contra hk
      rw [(setKey_eq_none_iff t k true).mpr hk] at hv
      exact absurd hv (by simp)
    rw [if_pos hmem]
    exact map_key_setEnabled (slots_setKey hv)
  · next hnone =>
    obtain rfl := Option.some.inj h
    rw [if_neg ((setKey_eq_none_iff t k true).mp hnone)]
    simp [keys, push]

theorem keys_remove {t u : SlotTable κ cap} {k : κ} (h : t.remove k = some u) : u.keys = t.keys :=
  map_key_setEnabled (slots_setKey h)

theorem remove_isSome_iff (t : SlotTable κ cap) (k : κ) : (t.remove k).isSome ↔ k ∈ t.keys := by
  rw [← Option.ne_none_iff_isSome, remove, ne_eq, setKey_eq_none_iff, not_not]

/-- An insertion takes a slot when the key has none. -/
theorem length_slots_insert {t u : SlotTable κ cap} {k : κ} (h : t.insert k = some u) :
    u.slots.length = if k ∈ t.keys then t.slots.length else t.slots.length + 1 := by
  rw [← length_keys, ← length_keys, keys_insert h]
  split_ifs
  · rfl
  · rw [List.length_append, List.length_singleton]

/-! ### The other keys -/

/-- The table without the slot of a key. -/
def without (t : SlotTable κ cap) (k : κ) : SlotTable κ cap where
  slots := t.slots.filter fun s => s.key ≠ k
  nodup := t.nodup.sublist (List.filter_sublist.map _)
  bound := (List.length_filter_le _ _).trans t.bound

theorem filter_setEnabled {k : κ} {b : Bool} {ss ss' : List (Slot κ)}
    (h : setEnabled k b ss = some ss') :
    (ss'.filter fun s => s.key ≠ k) = ss.filter fun s => s.key ≠ k := by
  induction ss generalizing ss' with
  | nil => simp [setEnabled] at h
  | cons s ss ih =>
    unfold setEnabled at h
    split_ifs at h with hk
    · obtain rfl := Option.some.inj h
      simp [hk]
    · obtain ⟨t, ht, rfl⟩ := Option.map_eq_some_iff.mp h
      simp only [List.filter_cons, ih ht]

theorem without_insert {t u : SlotTable κ cap} {k : κ} (h : t.insert k = some u) :
    u.without k = t.without k := by
  apply ext
  unfold insert at h
  split_ifs at h with hlen
  split at h
  · next v hv =>
    obtain rfl := Option.some.inj h
    exact filter_setEnabled (slots_setKey hv)
  · obtain rfl := Option.some.inj h
    simp [without, push]

theorem without_remove {t u : SlotTable κ cap} {k : κ} (h : t.remove k = some u) :
    u.without k = t.without k :=
  ext (filter_setEnabled (slots_setKey h))

/-- A search among the enabled slots of a table from which a key has been removed passes by the
slot of the key. -/
theorem find?_slots_remove {t u : SlotTable κ cap} {k : κ} (h : t.remove k = some u)
    (p : Slot κ → Bool) :
    (u.slots.find? fun s => s.enabled && p s) =
      (t.without k).slots.find? fun s => s.enabled && p s := by
  rw [← without_remove h, without, List.find?_filter]
  refine List.find?_congr fun s hs => ?_
  rcases (mem_setEnabled t.nodup (slots_setKey h) s).mp hs with rfl | ⟨-, hne⟩
  · simp
  · simp [hne]

/-! ### Runs of operations -/

/-- An operation on a table. -/
inductive Op (κ : Type)
  | insert (k : κ)
  | remove (k : κ)
  | clear

/-- One operation; an operation that is refused leaves the table as it is. -/
def step (t : SlotTable κ cap) : Op κ → SlotTable κ cap
  | .insert k => (t.insert k).getD t
  | .remove k => (t.remove k).getD t
  | .clear => empty κ cap

/-- A sequence of operations on the empty table. -/
def run (cap : Nat) (ops : List (Op κ)) : SlotTable κ cap := ops.foldl step (empty κ cap)

/-- The distinct keys inserted since the last `clear`, the ones that came when there were already
`cap` of them left out: removing a key does not make it unused. -/
def usedKeys (cap : Nat) (ops : List (Op κ)) : List κ :=
  ops.foldl (fun used op => match op with
    | .insert k => if used.length < cap ∧ k ∉ used then used ++ [k] else used
    | .remove _ => used
    | .clear => []) []

theorem run_append_singleton (ops : List (Op κ)) (op : Op κ) :
    run cap (ops ++ [op]) = (run cap ops).step op := by
  simp [run]

/-- The keys of the slots are the used keys. -/
theorem keys_run (ops : List (Op κ)) : (run cap ops).keys = usedKeys cap ops := by
  induction ops using List.reverseRecOn with
  | nil => rfl
  | append_singleton ops op ih =>
    rw [run_append_singleton, usedKeys, List.foldl_append, ← usedKeys, List.foldl_cons,
      List.foldl_nil, ← ih]
    cases op with
    | insert k =>
      by_cases hlen : (run cap ops).slots.length < cap
      · obtain ⟨u, hu⟩ := Option.isSome_iff_exists.mp ((insert_isSome_iff _ k).mpr hlen)
        rw [step, hu, Option.getD_some, keys_insert hu]
        by_cases hk : k ∈ (run cap ops).keys <;> simp [hk, length_keys, hlen]
      · have hnone : (run cap ops).insert k = none := by
          rw [← Option.not_isSome_iff_eq_none, insert_isSome_iff]
          exact hlen
        rw [step, hnone, Option.getD_none, length_keys]
        simp [hlen]
    | remove k =>
      rw [step]
      cases hu : (run cap ops).remove k with
      | none => rfl
      | some u => exact keys_remove hu
    | clear => rfl

/-! ### Logs -/

/-- The key an operation is about. -/
def Op.key? : Op κ → Option κ
  | .insert k => some k
  | .remove k => some k
  | .clear => none

/-- Whether an operation is accepted. -/
def accepts (t : SlotTable κ cap) : Op κ → Bool
  | .insert k => (t.insert k).isSome
  | .remove k => (t.remove k).isSome
  | .clear => true

/-- The table after some operations, and which of them were accepted. -/
inductive Logged : SlotTable κ cap → List (Op κ × Bool) → Prop
  | empty : Logged (empty κ cap) []
  | step {t : SlotTable κ cap} {log : List (Op κ × Bool)} (op : Op κ) (h : Logged t log) :
      Logged (t.step op) (log ++ [(op, t.accepts op)])

omit [DecidableEq κ] in
/-- What is logged after the last `clear`. -/
def sinceClear (log : List (Op κ × Bool)) : List (Op κ × Bool) :=
  log.rtakeWhile fun e => e.1.key?.isSome

/-- The last accepted operation on a key since the last `clear`. -/
def lastAccepted (log : List (Op κ × Bool)) (k : κ) : Option (Op κ) :=
  ((sinceClear log).filter fun e => e.2 && e.1.key? = some k).getLast?.map Prod.fst

omit [DecidableEq κ] in
theorem sinceClear_clear (log : List (Op κ × Bool)) (b : Bool) :
    sinceClear (log ++ [(.clear, b)]) = [] :=
  List.rtakeWhile_concat_neg _ _ _ (by simp [Op.key?])

omit [DecidableEq κ] in
theorem sinceClear_append {op : Op κ} {k : κ} (hop : op.key? = some k)
    (log : List (Op κ × Bool)) (b : Bool) :
    sinceClear (log ++ [(op, b)]) = sinceClear log ++ [(op, b)] :=
  List.rtakeWhile_concat_pos _ _ _ (by simp [hop])

theorem lastAccepted_clear (log : List (Op κ × Bool)) (b : Bool) (k : κ) :
    lastAccepted (log ++ [(.clear, b)]) k = none := by
  rw [lastAccepted, sinceClear_clear]
  rfl

theorem lastAccepted_accepted {op : Op κ} {j : κ} (hop : op.key? = some j)
    (log : List (Op κ × Bool)) (k : κ) :
    lastAccepted (log ++ [(op, true)]) k = if j = k then some op else lastAccepted log k := by
  rw [lastAccepted, sinceClear_append hop, List.filter_append]
  by_cases hk : j = k
  · simp [hop, hk]
  · simp [hop, hk, lastAccepted]

theorem lastAccepted_refused {op : Op κ} {j : κ} (hop : op.key? = some j)
    (log : List (Op κ × Bool)) (k : κ) :
    lastAccepted (log ++ [(op, false)]) k = lastAccepted log k := by
  rw [lastAccepted, sinceClear_append hop, List.filter_append]
  simp [lastAccepted]

/-- An operation that is refused changes nothing. -/
theorem step_of_refused {t : SlotTable κ cap} {op : Op κ} (h : t.accepts op = false) :
    t.step op = t := by
  cases op with
  | insert k =>
    have hnone : t.insert k = none := Option.not_isSome_iff_eq_none.mp (Bool.eq_false_iff.mp h)
    rw [step, hnone, Option.getD_none]
  | remove k =>
    have hnone : t.remove k = none := Option.not_isSome_iff_eq_none.mp (Bool.eq_false_iff.mp h)
    rw [step, hnone, Option.getD_none]
  | clear => cases h

/-- An operation on one key leaves the others as they are. -/
theorem mem_active_step_of_ne (t : SlotTable κ cap) {op : Op κ} {k k' : κ}
    (hop : op.key? = some k') (hne : k' ≠ k) : k ∈ (t.step op).active ↔ k ∈ t.active := by
  cases op with
  | insert j =>
    obtain rfl : j = k' := Option.some.inj hop
    rw [step]
    cases hu : t.insert j with
    | none => rfl
    | some u => simp [mem_active_insert hu, hne.symm]
  | remove j =>
    obtain rfl : j = k' := Option.some.inj hop
    rw [step]
    cases hu : t.remove j with
    | none => rfl
    | some u => simp [mem_active_remove hu, hne.symm]
  | clear => cases hop

/-- The enabled keys are those on which the last accepted operation is an insertion. -/
theorem Logged.mem_active_iff {t : SlotTable κ cap} {log : List (Op κ × Bool)} (h : Logged t log)
    (k : κ) : k ∈ t.active ↔ lastAccepted log k = some (.insert k) := by
  induction h with
  | empty => simp [active_empty, lastAccepted, sinceClear]
  | @step t log op h ih =>
    cases op with
    | clear =>
      rw [lastAccepted_clear]
      exact iff_of_false List.not_mem_nil (by simp)
    | insert k' =>
      cases hacc : t.accepts (.insert k') with
      | false => rw [step_of_refused hacc, lastAccepted_refused (j := k') rfl, ih]
      | true =>
        obtain ⟨u, hu⟩ := Option.isSome_iff_exists.mp hacc
        have hstep : t.step (.insert k') = u := by rw [SlotTable.step, hu, Option.getD_some]
        rw [hstep, mem_active_insert hu, lastAccepted_accepted (j := k') rfl, ih]
        by_cases hk : k' = k
        · simp [hk]
        · simp [hk, Ne.symm hk]
    | remove k' =>
      cases hacc : t.accepts (.remove k') with
      | false => rw [step_of_refused hacc, lastAccepted_refused (j := k') rfl, ih]
      | true =>
        obtain ⟨u, hu⟩ := Option.isSome_iff_exists.mp hacc
        have hstep : t.step (.remove k') = u := by rw [SlotTable.step, hu, Option.getD_some]
        rw [hstep, mem_active_remove hu, lastAccepted_accepted (j := k') rfl, ih]
        by_cases hk : k' = k
        · simp [hk]
        · simp [hk, Ne.symm hk]

/-- The keys of the slots are those of which an insertion has been accepted. -/
theorem Logged.mem_keys_iff {t : SlotTable κ cap} {log : List (Op κ × Bool)} (h : Logged t log)
    (k : κ) : k ∈ t.keys ↔ (.insert k, true) ∈ sinceClear log := by
  induction h with
  | empty => simp [keys_empty, sinceClear]
  | @step t log op h ih =>
    cases op with
    | clear =>
      rw [sinceClear_clear]
      exact iff_of_false List.not_mem_nil List.not_mem_nil
    | insert k' =>
      rw [sinceClear_append (k := k') rfl, List.mem_append, List.mem_singleton, ← ih]
      cases hacc : t.accepts (.insert k') with
      | false => simp [step_of_refused hacc]
      | true =>
        obtain ⟨u, hu⟩ := Option.isSome_iff_exists.mp hacc
        have hstep : t.step (.insert k') = u := by rw [SlotTable.step, hu, Option.getD_some]
        rw [hstep, keys_insert hu]
        by_cases hk : k' ∈ t.keys
        · have hsame : k = k' → k ∈ t.keys := fun h => h ▸ hk
          simpa [hk] using hsame
        · simp [hk]
    | remove k' =>
      rw [sinceClear_append (k := k') rfl, List.mem_append, List.mem_singleton, ← ih]
      have hkeys : (t.step (.remove k')).keys = t.keys := by
        rw [SlotTable.step]
        cases hu : t.remove k' with
        | none => rfl
        | some u => exact keys_remove hu
      simp [hkeys]

/-- A key can be removed when an insertion of it has been accepted. -/
theorem Logged.remove_isSome_iff {t : SlotTable κ cap} {log : List (Op κ × Bool)}
    (h : Logged t log) (k : κ) : (t.remove k).isSome ↔ (.insert k, true) ∈ sinceClear log := by
  rw [SlotTable.remove_isSome_iff, h.mem_keys_iff]

end SlotTable

end Rv32Gdb
