import Rv32Gdb.Equiv.Tables
import Mathlib.Data.Int.ConditionallyCompleteOrder
import Mathlib.Order.Interval.Set.Basic

/-!
# Watchpoint ranges and the watchpoint table

`rangesOverlap_iff_shares`: two ranges inside the address space overlap for the stub exactly when
they share an address, except that in the 64-bit build a range that ends at the top of the address
space overlaps no other.  `removeUndoesAdd_iff`: what `gdbStubAddWatchpoint` adds to a table that
calls of the public functions have made, `gdbStubRemoveWatchpoint` removes with the same arguments
and an addition sets again, except for length `0` and for the addition that fills the table.
-/

namespace Rv32Gdb

variable {x : Xlen}

open SlotTable

/-! ### Ranges -/

/-- The addresses of a range, as integers. -/
def addresses (addr len : GdbAddr x) : Set ℤ :=
  Set.Ico (addr.toNat : ℤ) (addr.toNat + len.toNat)

/-- Both ranges have an address, and they have one in common. -/
def SharesAddress (addr1 len1 addr2 len2 : GdbAddr x) : Prop :=
  0 < len1.toNat ∧ 0 < len2.toNat ∧ (addresses addr1 len1 ∩ addresses addr2 len2).Nonempty

/-- A range goes up to the last address. -/
def EndsAtTop (addr len : GdbAddr x) : Prop := addr.toNat + len.toNat = 2 ^ x.bits

theorem sharesAddress_iff (addr1 len1 addr2 len2 : GdbAddr x) :
    SharesAddress addr1 len1 addr2 len2 ↔ 0 < len1.toNat ∧ 0 < len2.toNat ∧
      addr1.toNat < addr2.toNat + len2.toNat ∧ addr2.toNat < addr1.toNat + len1.toNat := by
  rw [SharesAddress, addresses, addresses, Set.Ico_inter_Ico, Set.nonempty_Ico, sup_lt_iff,
    lt_inf_iff, lt_inf_iff]
  omega

/-- The ends are computed modulo `2 ^ 64` in both builds. -/
theorem rangesOverlap_iff_lt (addr1 len1 addr2 len2 : GdbAddr x) :
    rangesOverlap addr1 len1 addr2 len2 ↔ 0 < len1.toNat ∧ 0 < len2.toNat ∧
      addr1.toNat < (addr2.toNat + len2.toNat) % 2 ^ 64 ∧
        addr2.toNat < (addr1.toNat + len1.toNat) % 2 ^ 64 := by
  have hwidth : ∀ a : GdbAddr x, (a.setWidth 64).toNat = a.toNat := fun a =>
    BitVec.toNat_setWidth_of_le (by cases x <;> decide)
  have hpos : ∀ n : GdbAddr x, n = 0 ↔ ¬0 < n.toNat := fun n => by
    rw [Nat.not_lt, Nat.le_zero, BitVec.toNat_eq]
    rfl
  rw [rangesOverlap]
  by_cases hempty : len1 = 0 ∨ len2 = 0
  · rw [if_pos hempty]
    rw [hpos, hpos] at hempty
    exact iff_of_false (by simp) fun h => hempty.elim (absurd h.1) (absurd h.2.1)
  · rw [if_neg hempty]
    rw [hpos, hpos, not_or, not_not, not_not] at hempty
    rw [decide_eq_true_iff, BitVec.lt_def, BitVec.lt_def, BitVec.toNat_add, BitVec.toNat_add,
      hwidth, hwidth, hwidth, hwidth]
    exact ⟨fun h => ⟨hempty.1, hempty.2, h⟩, fun h => h.2.2⟩

theorem rangesOverlap_comm (addr1 len1 addr2 len2 : GdbAddr x) :
    rangesOverlap addr1 len1 addr2 len2 = rangesOverlap addr2 len2 addr1 len1 := by
  rw [Bool.eq_iff_iff, rangesOverlap_iff_lt, rangesOverlap_iff_lt]
  omega

/-- For two ranges inside the address space, `rangesOverlap` says whether they share an address, and
does not depend on their order, unless they do, the build is the 64-bit one and one of them ends at
the top of the address space. -/
theorem rangesOverlap_iff_shares (addr1 len1 addr2 len2 : GdbAddr x)
    (h1 : addr1.toNat + len1.toNat ≤ 2 ^ x.bits) (h2 : addr2.toNat + len2.toNat ≤ 2 ^ x.bits) :
    ((rangesOverlap addr1 len1 addr2 len2 ↔ SharesAddress addr1 len1 addr2 len2) ∧
        rangesOverlap addr1 len1 addr2 len2 = rangesOverlap addr2 len2 addr1 len1) ↔
      ¬(x = .x64 ∧ SharesAddress addr1 len1 addr2 len2 ∧
        (EndsAtTop addr1 len1 ∨ EndsAtTop addr2 len2)) := by
  rw [and_iff_left (rangesOverlap_comm _ _ _ _), rangesOverlap_iff_lt, sharesAddress_iff, EndsAtTop,
    EndsAtTop]
  cases x with
  | x32 =>
    have hbits : 2 ^ Xlen.x32.bits = 2 ^ 32 := rfl
    rw [hbits] at h1 h2
    rw [Nat.mod_eq_of_lt (by omega), Nat.mod_eq_of_lt (by omega)]
    simp
  | x64 =>
    have hbits : 2 ^ Xlen.x64.bits = 2 ^ 64 := rfl
    rw [hbits] at h1 h2 ⊢
    have hend : ∀ n, n ≤ 2 ^ 64 → n % 2 ^ 64 = if n = 2 ^ 64 then 0 else n := fun n hn => by
      split_ifs with h
      · rw [h, Nat.mod_self]
      · exact Nat.mod_eq_of_lt (lt_of_le_of_ne hn h)
    rw [hend _ h1, hend _ h2]
    simp only [true_and]
    split_ifs <;> omega

/-- The last four bytes of the address space of the 64-bit build, and a range below them. -/
theorem rangesOverlap_iff_shares_below :
    (rangesOverlap (x := .x64) 0xFFFFFFFFFFFFFFFC 4 0xFFFFFFFFFFFFFFF0 8 ↔
        SharesAddress (x := .x64) 0xFFFFFFFFFFFFFFFC 4 0xFFFFFFFFFFFFFFF0 8) ∧
      rangesOverlap (x := .x64) 0xFFFFFFFFFFFFFFFC 4 0xFFFFFFFFFFFFFFF0 8 =
        rangesOverlap (x := .x64) 0xFFFFFFFFFFFFFFF0 8 0xFFFFFFFFFFFFFFFC 4 := by
  refine (rangesOverlap_iff_shares (x := .x64) _ _ _ _ (by decide) (by decide)).mpr ?_
  rw [sharesAddress_iff, EndsAtTop, EndsAtTop]
  decide

/-- The last four bytes of the address space of the 64-bit build do not overlap themselves. -/
theorem not_rangesOverlap_top :
    BitVec.toNat (0xFFFFFFFFFFFFFFFC : GdbAddr .x64) + BitVec.toNat (4 : GdbAddr .x64) ≤
        2 ^ Xlen.x64.bits ∧
      ¬(rangesOverlap (x := .x64) 0xFFFFFFFFFFFFFFFC 4 0xFFFFFFFFFFFFFFFC 4 ↔
        SharesAddress (x := .x64) 0xFFFFFFFFFFFFFFFC 4 0xFFFFFFFFFFFFFFFC 4) := by
  rw [sharesAddress_iff]
  decide

/-! ### Adding and removing a watchpoint -/

/-- The state with the slot of a watchpoint taken out of the table. -/
def DebugState.withoutWatchpoint (d : DebugState x) (k : WatchpointKey x) : DebugState x :=
  { d with watchpoints := d.watchpoints.without k }

/-- Two checks have the same answer and report the same address. -/
def SameAnswer (r r' : Bool × DebugState x) : Prop :=
  r.1 = r'.1 ∧ r.2.lastWatchpointAddr = r'.2.lastWatchpointAddr

/-- After an addition, a removal with the same arguments succeeds and leaves the answers of the
checks as if the watchpoint had never been in the table, and an addition sets it again. -/
structure RemoveUndoesAdd (d : DebugState x) (addr len : GdbAddr x) (type : WatchpointType) :
    Prop where
  removed : (gdbStubRemoveWatchpoint (gdbStubAddWatchpoint d addr len type).2 addr len type).1
  read : ∀ a n, SameAnswer
    (gdbStubCheckWatchpointRead
      (gdbStubRemoveWatchpoint (gdbStubAddWatchpoint d addr len type).2 addr len type).2 a n)
    (gdbStubCheckWatchpointRead (d.withoutWatchpoint (addedKey addr len type)) a n)
  write : ∀ a n, SameAnswer
    (gdbStubCheckWatchpointWrite
      (gdbStubRemoveWatchpoint (gdbStubAddWatchpoint d addr len type).2 addr len type).2 a n)
    (gdbStubCheckWatchpointWrite (d.withoutWatchpoint (addedKey addr len type)) a n)
  added : (gdbStubAddWatchpoint
    (gdbStubRemoveWatchpoint (gdbStubAddWatchpoint d addr len type).2 addr len type).2
      addr len type).1
  enabled : addedKey addr len type ∈ (gdbStubAddWatchpoint
    (gdbStubRemoveWatchpoint (gdbStubAddWatchpoint d addr len type).2 addr len type).2
      addr len type).2.watchpoints.active

/-- The length that is added is not `0`. -/
theorem len_addedKey_ne_zero (addr len : GdbAddr x) (type : WatchpointType) :
    (addedKey addr len type).len ≠ 0 := by
  show (if len = 0 then 4 else len) ≠ 0
  split_ifs with h
  · cases x <;> decide
  · exact h

/-- A reached table has no watchpoint of length `0`. -/
theorem len_ne_zero_of_mem_keys (ops : List (TableOp x)) {k : WatchpointKey x}
    (hk : k ∈ (runTables ops).watchpoints.keys) : k.len ≠ 0 := by
  induction ops using List.reverseRecOn generalizing k with
  | nil => exact absurd hk List.not_mem_nil
  | append_singleton ops op ih =>
    rw [runTables_append_singleton, watchpoints_tableStep] at hk
    rcases op with op | (j | j | _)
    · exact ih hk
    · cases hu : (runTables ops).watchpoints.insert (addedKey j.addr j.len j.type) with
      | none =>
        simp only [filedOp, step, hu, Option.getD_none] at hk
        exact ih hk
      | some u =>
        simp only [filedOp, step, hu, Option.getD_some, keys_insert hu] at hk
        split_ifs at hk with hmem
        · exact ih hk
        · rcases List.mem_append.mp hk with hk | hk
          · exact ih hk
          · rw [List.mem_singleton.mp hk]
            exact len_addedKey_ne_zero _ _ _
    · cases hu : (runTables ops).watchpoints.remove j with
      | none =>
        simp only [filedOp, step, hu, Option.getD_none] at hk
        exact ih hk
      | some u =>
        simp only [filedOp, step, hu, Option.getD_some, keys_remove hu] at hk
        exact ih hk
    · exact absurd hk List.not_mem_nil

theorem gdbStubAddWatchpoint_of_insert {d : DebugState x} {addr len : GdbAddr x}
    {type : WatchpointType} {t : SlotTable (WatchpointKey x) maxWatchpoints}
    (h : d.watchpoints.insert (addedKey addr len type) = some t) :
    gdbStubAddWatchpoint d addr len type = (true, { d with watchpoints := t }) := by
  rw [gdbStubAddWatchpoint, h]
  rfl

theorem gdbStubRemoveWatchpoint_of_remove {d : DebugState x} {addr len : GdbAddr x}
    {type : WatchpointType} {t : SlotTable (WatchpointKey x) maxWatchpoints}
    (h : d.watchpoints.remove ⟨addr, len, type⟩ = some t) :
    gdbStubRemoveWatchpoint d addr len type = (true, { d with watchpoints := t }) := by
  rw [gdbStubRemoveWatchpoint, h]
  rfl

theorem fst_gdbStubRemoveWatchpoint (d : DebugState x) (addr len : GdbAddr x)
    (type : WatchpointType) : (gdbStubRemoveWatchpoint d addr len type).1 =
      (d.watchpoints.remove ⟨addr, len, type⟩).isSome := by
  simp [gdbStubRemoveWatchpoint, outcome]

/-- A check looks at the enabled slots of the table only. -/
theorem sameAnswer_checkWatchpoint {d : DebugState x}
    {t u : SlotTable (WatchpointKey x) maxWatchpoints} {k : WatchpointKey x}
    (h : t.remove k = some u) (kind : WatchpointType) (a n : GdbAddr x) :
    SameAnswer (checkWatchpoint { d with watchpoints := u } kind a n)
      (checkWatchpoint { d with watchpoints := t.without k } kind a n) := by
  have hfor : DebugState.watchpointFor { d with watchpoints := u } kind a n =
      DebugState.watchpointFor { d with watchpoints := t.without k } kind a n := by
    simp only [DebugState.watchpointFor, Bool.and_assoc]
    rw [find?_slots_remove h]
  unfold checkWatchpoint
  rw [hfor]
  cases DebugState.watchpointFor { d with watchpoints := t.without k } kind a n with
  | none => exact ⟨rfl, rfl⟩
  | some a => exact ⟨rfl, rfl⟩

/-- A watchpoint that is added to a reached table can be removed with the same arguments, and added
again, exactly when its length is not `0` and its addition has not taken the last slot. -/
theorem removeUndoesAdd_iff (ops : List (TableOp x)) (addr len : GdbAddr x)
    (type : WatchpointType) (hadd : (gdbStubAddWatchpoint (runTables ops) addr len type).1) :
    RemoveUndoesAdd (runTables ops) addr len type ↔ len ≠ 0 ∧
      (addedKey addr len type ∈ (runTables ops).watchpoints.keys ∨
        (runTables ops).watchpoints.slots.length + 1 < maxWatchpoints) := by
  rw [fst_gdbStubAddWatchpoint] at hadd
  obtain ⟨u, hu⟩ := Option.isSome_iff_exists.mp hadd
  have hroom := (insert_isSome_iff _ _).mp hadd
  have hfirst := gdbStubAddWatchpoint_of_insert hu
  have hkeys := keys_insert hu
  have hlength := length_slots_insert hu
  by_cases hlen : len = 0
  · refine iff_of_false (fun h => ?_) fun h => h.1 hlen
    have hremoved := h.removed
    rw [fst_gdbStubRemoveWatchpoint, hfirst, remove_isSome_iff, hkeys] at hremoved
    -- all lengths in the table are positive
    split_ifs at hremoved with hmem
    · exact len_ne_zero_of_mem_keys ops hremoved hlen
    · rcases List.mem_append.mp hremoved with hk | hk
      · exact len_ne_zero_of_mem_keys ops hk hlen
      · have hsame := congrArg WatchpointKey.len (List.mem_singleton.mp hk)
        exact len_addedKey_ne_zero addr len type (hsame.symm.trans hlen)
  · have hkey : addedKey addr len type = ⟨addr, len, type⟩ := by rw [addedKey, if_neg hlen]
    have hmem : addedKey addr len type ∈ u.keys := by
      rw [hkeys]
      split_ifs with hk
      · exact hk
      · exact List.mem_append_right _ (List.mem_singleton_self _)
    obtain ⟨v, hv⟩ := Option.isSome_iff_exists.mp ((remove_isSome_iff u _).mpr hmem)
    have hsecond : gdbStubRemoveWatchpoint (gdbStubAddWatchpoint (runTables ops) addr len type).2
        addr len type = (true, { runTables ops with watchpoints := v }) := by
      rw [hfirst]
      exact gdbStubRemoveWatchpoint_of_remove (d := { runTables ops with watchpoints := u })
        (hkey ▸ hv)
    have hslots : v.slots.length = u.slots.length := by
      rw [← length_keys, ← length_keys, keys_remove hv]
    have hwithout := without_insert hu
    have hcheck : ∀ kind a n, SameAnswer
        (checkWatchpoint { runTables ops with watchpoints := v } kind a n)
        (checkWatchpoint ((runTables ops).withoutWatchpoint (addedKey addr len type)) kind a
          n) := by
      intro kind a n
      rw [DebugState.withoutWatchpoint, ← hwithout]
      exact sameAnswer_checkWatchpoint hv kind a n
    -- the second addition needs a free slot
    have hagain : v.slots.length < maxWatchpoints ↔
        addedKey addr len type ∈ (runTables ops).watchpoints.keys ∨
          (runTables ops).watchpoints.slots.length + 1 < maxWatchpoints := by
      rw [hslots, hlength]
      split_ifs with hk
      · exact iff_of_true hroom (Or.inl hk)
      · exact ⟨Or.inr, fun h => h.resolve_left hk⟩
    rw [← hagain, ← insert_isSome_iff v (addedKey addr len type)]
    constructor
    · intro h
      refine ⟨hlen, ?_⟩
      have hadded := h.added
      rwa [hsecond, fst_gdbStubAddWatchpoint] at hadded
    · rintro ⟨-, hsome⟩
      obtain ⟨t, ht⟩ := Option.isSome_iff_exists.mp hsome
      have hthird := gdbStubAddWatchpoint_of_insert
        (d := { runTables ops with watchpoints := v }) ht
      constructor
      · rw [hsecond]
      · rw [hsecond]
        exact hcheck .read
      · rw [hsecond]
        exact hcheck .write
      · rw [hsecond, hthird]
      · rw [hsecond, hthird]
        exact (mem_active_insert ht _).mpr (Or.inl rfl)

/-- A watchpoint that has been removed before. -/
theorem removeUndoesAdd_again :
    RemoveUndoesAdd (runTables (x := .x32)
      [.watchpoint (.insert ⟨0x1000, 8, .access⟩), .watchpoint (.remove ⟨0x1000, 8, .access⟩)])
      0x1000 8 .access :=
  (removeUndoesAdd_iff _ 0x1000 8 .access (by decide)).mpr (by decide)

/-- A watchpoint of length `0` is added but cannot be removed. -/
theorem not_removeUndoesAdd_zero :
    (gdbStubAddWatchpoint (runTables (x := .x32) []) 0x1000 0 .write).1 ∧
      ¬RemoveUndoesAdd (runTables (x := .x32) []) 0x1000 0 .write := by
  refine ⟨by decide, fun h => ?_⟩
  have hremoved := h.removed
  revert hremoved
  decide

end Rv32Gdb
