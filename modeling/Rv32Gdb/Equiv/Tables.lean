import Rv32Gdb.Stub.Breakpoints

/-!
# The capacity of the breakpoint and watchpoint tables

`runTables` applies a sequence of operations to both tables; `breakpoints_runTables` and
`watchpoints_runTables` say that each of them is a run of a `SlotTable`.  `insert_accepted_iff`:
an insertion is accepted as the number of enabled entries demands exactly when fewer keys than the
capacity have been used since the table was last cleared, or all slots are enabled.
-/

namespace Rv32Gdb

variable {x : Xlen}

open SlotTable

/-! ### Operations on both tables -/

/-- A call of one of the public functions on one of the tables. -/
inductive TableOp (x : Xlen)
  | breakpoint (op : Op (GdbAddr x))
  | watchpoint (op : Op (WatchpointKey x))

/-- One operation. -/
def tableStep (d : DebugState x) : TableOp x → DebugState x
  | .breakpoint (.insert addr) => (gdbStubAddBreakpoint d addr).2
  | .breakpoint (.remove addr) => (gdbStubRemoveBreakpoint d addr).2
  | .breakpoint .clear => gdbStubClearBreakpoints d
  | .watchpoint (.insert k) => (gdbStubAddWatchpoint d k.addr k.len k.type).2
  | .watchpoint (.remove k) => (gdbStubRemoveWatchpoint d k.addr k.len k.type).2
  | .watchpoint .clear => gdbStubClearWatchpoints d

/-- A sequence of operations after `gdb_stub_init`. -/
def runTables (ops : List (TableOp x)) : DebugState x := ops.foldl tableStep (DebugState.init x)

/-- The operations on the breakpoint table. -/
def breakpointOps (ops : List (TableOp x)) : List (Op (GdbAddr x)) :=
  ops.filterMap fun op => match op with
    | .breakpoint op => some op
    | .watchpoint _ => none

/-- The key under which an operation on the watchpoint table acts. -/
def filedOp : Op (WatchpointKey x) → Op (WatchpointKey x)
  | .insert k => .insert (addedKey k.addr k.len k.type)
  | .remove k => .remove k
  | .clear => .clear

/-- The operations on the watchpoint table. -/
def watchpointOps (ops : List (TableOp x)) : List (Op (WatchpointKey x)) :=
  ops.filterMap fun op => match op with
    | .breakpoint _ => none
    | .watchpoint op => some (filedOp op)

/-! ### The tables are slot tables -/

theorem fst_gdbStubAddBreakpoint (d : DebugState x) (addr : GdbAddr x) :
    (gdbStubAddBreakpoint d addr).1 = (d.breakpoints.insert addr).isSome := by
  simp [gdbStubAddBreakpoint, outcome]

theorem fst_gdbStubAddWatchpoint (d : DebugState x) (addr len : GdbAddr x)
    (type : WatchpointType) : (gdbStubAddWatchpoint d addr len type).1 =
      (d.watchpoints.insert (addedKey addr len type)).isSome := by
  simp [gdbStubAddWatchpoint, outcome]

theorem breakpoints_tableStep (d : DebugState x) (op : TableOp x) :
    (tableStep d op).breakpoints = match op with
      | .breakpoint op => d.breakpoints.step op
      | .watchpoint _ => d.breakpoints := by
  rcases op with (addr | addr | _) | (k | k | _)
  · show (outcome d _).2.breakpoints = (d.breakpoints.insert addr).getD d.breakpoints
    cases d.breakpoints.insert addr <;> rfl
  · show (outcome d _).2.breakpoints = (d.breakpoints.remove addr).getD d.breakpoints
    cases d.breakpoints.remove addr <;> rfl
  · rfl
  · show (outcome d _).2.breakpoints = d.breakpoints
    cases d.watchpoints.insert (addedKey k.addr k.len k.type) <;> rfl
  · show (outcome d _).2.breakpoints = d.breakpoints
    cases d.watchpoints.remove ⟨k.addr, k.len, k.type⟩ <;> rfl
  · rfl

theorem watchpoints_tableStep (d : DebugState x) (op : TableOp x) :
    (tableStep d op).watchpoints = match op with
      | .breakpoint _ => d.watchpoints
      | .watchpoint op => d.watchpoints.step (filedOp op) := by
  rcases op with (addr | addr | _) | (k | k | _)
  · show (outcome d _).2.watchpoints = d.watchpoints
    cases d.breakpoints.insert addr <;> rfl
  · show (outcome d _).2.watchpoints = d.watchpoints
    cases d.breakpoints.remove addr <;> rfl
  · rfl
  · show (outcome d _).2.watchpoints =
      (d.watchpoints.insert (addedKey k.addr k.len k.type)).getD d.watchpoints
    cases d.watchpoints.insert (addedKey k.addr k.len k.type) <;> rfl
  · show (outcome d _).2.watchpoints = (d.watchpoints.remove k).getD d.watchpoints
    cases d.watchpoints.remove k <;> rfl
  · rfl

theorem runTables_append_singleton (ops : List (TableOp x)) (op : TableOp x) :
    runTables (ops ++ [op]) = tableStep (runTables ops) op := by
  simp [runTables]

theorem breakpoints_runTables (ops : List (TableOp x)) :
    (runTables ops).breakpoints = SlotTable.run maxBreakpoints (breakpointOps ops) := by
  induction ops using List.reverseRecOn with
  | nil => rfl
  | append_singleton ops op ih =>
    rw [runTables_append_singleton, breakpoints_tableStep, ih]
    cases op with
    | breakpoint op => simp [breakpointOps, run_append_singleton]
    | watchpoint op => simp [breakpointOps]

theorem watchpoints_runTables (ops : List (TableOp x)) :
    (runTables ops).watchpoints = SlotTable.run maxWatchpoints (watchpointOps ops) := by
  induction ops using List.reverseRecOn with
  | nil => rfl
  | append_singleton ops op ih =>
    rw [runTables_append_singleton, watchpoints_tableStep, ih]
    cases op with
    | breakpoint op => simp [watchpointOps]
    | watchpoint op => simp [watchpointOps, run_append_singleton]

/-! ### Capacity -/

/-- An insertion is accepted as the enabled entries demand. -/
def CountsActive {κ : Type} {cap : Nat} (t : SlotTable κ cap) (k : κ) (accepted : Bool) : Prop :=
  accepted ↔ k ∈ t.active ∨ t.active.length < cap

/-- Insertion counts slots; that is the number of enabled entries as long as there is a free slot,
and when all slots are enabled. -/
theorem countsActive_insert_iff {κ : Type} [DecidableEq κ] {cap : Nat} (ops : List (Op κ)) (k : κ) :
    CountsActive (run cap ops) k ((run cap ops).insert k).isSome ↔
      (usedKeys cap ops).length < cap ∨
        ((run cap ops).active.length = cap ∧ k ∉ (run cap ops).active) := by
  have hle := length_active_le (run cap ops)
  have hbound := (run cap ops).bound
  rw [CountsActive, insert_isSome_iff, ← keys_run, length_keys]
  by_cases hroom : (run cap ops).slots.length < cap
  · exact iff_of_true (iff_of_true hroom (Or.inr (by omega))) (Or.inl hroom)
  · by_cases hk : k ∈ (run cap ops).active
    · simp [hroom, hk]
    · simp only [hroom, hk, false_or, not_false_eq_true, and_true, false_iff]
      omega

/-- After any sequence of operations, an insertion into a table is accepted exactly when its key is
enabled or there are fewer enabled entries than the capacity, if and only if fewer distinct keys
than the capacity have been inserted since the table was last cleared, or all slots are enabled
and the key is not among them. -/
theorem insert_accepted_iff (ops : List (TableOp x)) :
    (∀ addr, CountsActive (runTables ops).breakpoints addr
        (gdbStubAddBreakpoint (runTables ops) addr).1 ↔
      (usedKeys maxBreakpoints (breakpointOps ops)).length < maxBreakpoints ∨
        ((runTables ops).breakpoints.active.length = maxBreakpoints ∧
          addr ∉ (runTables ops).breakpoints.active)) ∧
    (∀ addr len type, CountsActive (runTables ops).watchpoints (addedKey addr len type)
        (gdbStubAddWatchpoint (runTables ops) addr len type).1 ↔
      (usedKeys maxWatchpoints (watchpointOps ops)).length < maxWatchpoints ∨
        ((runTables ops).watchpoints.active.length = maxWatchpoints ∧
          addedKey addr len type ∉ (runTables ops).watchpoints.active)) := by
  constructor
  · intro addr
    rw [fst_gdbStubAddBreakpoint, breakpoints_runTables]
    exact countsActive_insert_iff _ _
  · intro addr len type
    rw [fst_gdbStubAddWatchpoint, watchpoints_runTables]
    exact countsActive_insert_iff _ _

/-- Sixty-four breakpoints, one of them removed again: there is no room for another one. -/
theorem not_countsActive_after_remove :
    let ops : List (TableOp .x32) :=
      (List.range 64).map (fun i => .breakpoint (.insert (BitVec.ofNat 32 (4 * i)))) ++
        [.breakpoint (.remove 0)]
    ¬CountsActive (runTables ops).breakpoints 0x1000
      (gdbStubAddBreakpoint (runTables ops) 0x1000).1 := by
  intro ops
  have hrefused : (gdbStubAddBreakpoint (runTables ops) 0x1000).1 = false := by decide +kernel
  have hactive : (runTables ops).breakpoints.active.length = 63 := by decide +kernel
  rw [CountsActive, hrefused, hactive]
  simp

end Rv32Gdb
