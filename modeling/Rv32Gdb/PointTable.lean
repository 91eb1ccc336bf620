import Mathlib.Data.Finset.Card
import Rv32Gdb.SlotTable

/-!
# Bounded sets of points

What a `SlotTable` is for: a set of armed points within the set of those that have a place, of
which there are at most `cap` (`PointTable`).  Arming a point needs a free place even if it has one;
disarming it keeps its place.  `points_insert` and `points_remove`: `SlotTable.points` takes the
operations on slots to those on points.
-/

namespace Rv32Gdb

/-- The points that have a place, and those of them that are armed. -/
structure PointTable (κ : Type) (cap : Nat) where
  placed : Finset κ
  armed : Finset κ
  armed_subset : armed ⊆ placed
  card_le : placed.card ≤ cap

namespace PointTable

variable {κ : Type} {cap : Nat}

theorem ext {t u : PointTable κ cap} (hplaced : t.placed = u.placed) (harmed : t.armed = u.armed) :
    t = u := by
  cases t; cases u; simp_all

variable [DecidableEq κ]

/-- Arming a point; refused when there is no free place. -/
def insert (t : PointTable κ cap) (k : κ) : Option (PointTable κ cap) :=
  if h : t.placed.card < cap then
    some
      { placed := Insert.insert k t.placed
        armed := Insert.insert k t.armed
        armed_subset := Finset.insert_subset_insert k t.armed_subset
        card_le := (Finset.card_insert_le k t.placed).trans h }
  else none

/-- Disarming a point; refused when it has no place. -/
def remove (t : PointTable κ cap) (k : κ) : Option (PointTable κ cap) :=
  if k ∈ t.placed then
    some { t with
      armed := t.armed.erase k
      armed_subset := (Finset.erase_subset k t.armed).trans t.armed_subset }
  else none

end PointTable

namespace SlotTable

variable {κ : Type} {cap : Nat} [DecidableEq κ]

/-- The points of the slots. -/
def points (t : SlotTable κ cap) : PointTable κ cap where
  placed := t.keys.toFinset
  armed := t.active.toFinset
  armed_subset _ hk := List.mem_toFinset.mpr (mem_keys_of_mem_active (List.mem_toFinset.mp hk))
  card_le := (List.toFinset_card_le t.keys).trans (t.length_keys.trans_le t.bound)

theorem mem_placed_points (t : SlotTable κ cap) (k : κ) : k ∈ t.points.placed ↔ k ∈ t.keys :=
  List.mem_toFinset

theorem mem_armed_points (t : SlotTable κ cap) (k : κ) : k ∈ t.points.armed ↔ k ∈ t.active :=
  List.mem_toFinset

theorem card_placed_points (t : SlotTable κ cap) : t.points.placed.card = t.slots.length := by
  rw [← length_keys]
  exact List.toFinset_card_of_nodup t.nodup

theorem points_insert (t : SlotTable κ cap) (k : κ) :
    (t.insert k).map points = t.points.insert k := by
  rw [PointTable.insert]
  by_cases hroom : t.slots.length < cap
  · obtain ⟨u, hu⟩ := Option.isSome_iff_exists.mp ((insert_isSome_iff t k).mpr hroom)
    rw [dif_pos (by rwa [card_placed_points]), hu, Option.map_some]
    refine congrArg some (PointTable.ext ?_ ?_)
    · ext j
      rw [mem_placed_points, keys_insert hu, Finset.mem_insert, mem_placed_points]
      split_ifs with hk
      · refine ⟨Or.inr, ?_⟩
        rintro (rfl | hj)
        · exact hk
        · exact hj
      · rw [List.mem_append, List.mem_singleton, or_comm]
    · ext j
      rw [mem_armed_points, mem_active_insert hu, Finset.mem_insert, mem_armed_points]
  · have hnone : t.insert k = none := by
      rw [← Option.not_isSome_iff_eq_none, insert_isSome_iff]
      exact hroom
    rw [dif_neg (by rwa [card_placed_points]), hnone, Option.map_none]

theorem points_remove (t : SlotTable κ cap) (k : κ) :
    (t.remove k).map points = t.points.remove k := by
  rw [PointTable.remove]
  by_cases hk : k ∈ t.keys
  · obtain ⟨u, hu⟩ := Option.isSome_iff_exists.mp ((remove_isSome_iff t k).mpr hk)
    rw [if_pos ((mem_placed_points t k).mpr hk), hu, Option.map_some]
    refine congrArg some (PointTable.ext ?_ ?_)
    · ext j
      rw [mem_placed_points, keys_remove hu, mem_placed_points]
    · ext j
      rw [mem_armed_points, mem_active_remove hu, Finset.mem_erase, mem_armed_points]
  · have hnone : t.remove k = none := by
      rw [← Option.not_isSome_iff_eq_none, remove_isSome_iff]
      exact hk
    rw [if_neg ((mem_placed_points t k).not.mpr hk), hnone, Option.map_none]

end SlotTable

end Rv32Gdb
