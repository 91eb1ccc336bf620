import Rv32Gdb.Equiv.Handlers
import Rv32Gdb.Equiv.Watchpoints

/-!
# Histories of the breakpoint and watchpoint tables

The tables after any history of calls, or of `Z`, `z` and `R` packets, are those that the log of the
history determines: `checkBreakpoint_breakpointCalls` for the public functions,
`checkWatchpoint_processPackets` and `checkBreakpoint_processPackets` for packets.  In each case the
log says of every operation whether it was accepted, and an entry is enabled if the last accepted
operation on its key since the last `clear` is an insertion.
-/

namespace Rv32Gdb

variable {x : Xlen} {σ : Type}

open SlotTable

/-! ### The checks -/

theorem fst_gdbStubCheckBreakpoint_iff (d : DebugState x) (pc : GdbAddr x) :
    (gdbStubCheckBreakpoint d pc).1 ↔ pc ∈ d.breakpoints.active := by
  have hany : d.breakpointAt pc ↔ pc ∈ d.breakpoints.active := by
    rw [mem_active, DebugState.breakpointAt, List.any_eq_true]
    constructor
    · rintro ⟨⟨k, e⟩, hs, h⟩
      rw [Bool.and_eq_true, decide_eq_true_iff] at h
      obtain ⟨rfl, rfl⟩ := h
      exact hs
    · exact fun h => ⟨_, h, by simp⟩
  rw [← hany, gdbStubCheckBreakpoint]
  split_ifs with h
  · exact iff_of_true rfl h
  · exact iff_of_false (by simp) h

/-- The ranges have a byte in common; the ends of the ranges do not wrap around. -/
theorem rangesOverlap_iff (a₁ n₁ a₂ n₂ : GdbAddr .x32) :
    rangesOverlap a₁ n₁ a₂ n₂ ↔ ∃ b, (a₁.toNat ≤ b ∧ b < a₁.toNat + n₁.toNat) ∧
      (a₂.toNat ≤ b ∧ b < a₂.toNat + n₂.toNat) := by
  have hend : ∀ a n : GdbAddr .x32, a.toNat + n.toNat < 2 ^ 64 := by
    intro a n
    have ha : a.toNat < 2 ^ 32 := a.isLt
    have hn : n.toNat < 2 ^ 32 := n.isLt
    omega
  rw [rangesOverlap_iff_lt, Nat.mod_eq_of_lt (hend _ _), Nat.mod_eq_of_lt (hend _ _)]
  constructor
  · intro h
    exact ⟨max a₁.toNat a₂.toNat, by omega, by omega⟩
  · rintro ⟨b, hb₁, hb₂⟩
    omega

/-! ### Calls of the public functions -/

/-- A call on the breakpoint table: whether it returns success, and the state after it. -/
def breakpointCall (d : DebugState x) : Op (GdbAddr x) → Bool × DebugState x
  | .insert addr => gdbStubAddBreakpoint d addr
  | .remove addr => gdbStubRemoveBreakpoint d addr
  | .clear => (true, gdbStubClearBreakpoints d)

/-- Calls in a row: which of them returned success, and the state after them. -/
def breakpointCalls (d : DebugState x) (ops : List (Op (GdbAddr x))) :
    List (Op (GdbAddr x) × Bool) × DebugState x :=
  ops.foldl (fun r op => (r.1 ++ [(op, (breakpointCall r.2 op).1)], (breakpointCall r.2 op).2))
    ([], d)

theorem breakpointCall_eq (d : DebugState x) (op : Op (GdbAddr x)) :
    (breakpointCall d op).1 = d.breakpoints.accepts op ∧
      (breakpointCall d op).2.breakpoints = d.breakpoints.step op := by
  cases op with
  | insert addr => exact ⟨fst_gdbStubAddBreakpoint d addr,
      breakpoints_tableStep d (.breakpoint (.insert addr))⟩
  | remove addr =>
    refine ⟨?_, breakpoints_tableStep d (.breakpoint (.remove addr))⟩
    simp [breakpointCall, gdbStubRemoveBreakpoint, outcome, accepts]
  | clear => exact ⟨rfl, rfl⟩

theorem logged_breakpointCalls (d : DebugState x) (hd : d.breakpoints = empty _ _)
    (ops : List (Op (GdbAddr x))) :
    Logged (breakpointCalls d ops).2.breakpoints (breakpointCalls d ops).1 := by
  induction ops using List.reverseRecOn with
  | nil =>
    show Logged d.breakpoints []
    rw [hd]
    exact .empty
  | append_singleton ops op ih =>
    obtain ⟨hacc, hstep⟩ := breakpointCall_eq (breakpointCalls d ops).2 op
    have hlogged := ih.step op
    rw [← hacc, ← hstep] at hlogged
    rw [breakpointCalls, List.foldl_append]
    exact hlogged

/-- The breakpoint table is a set: after any calls, an address is in it if the last successful call
for the address since the last `clear` is an addition; removing an address succeeds if it has been
added since; and a call for one address does not change the answer for another. -/
theorem checkBreakpoint_breakpointCalls (ops : List (Op (GdbAddr x))) (pc : GdbAddr x) :
    let r := breakpointCalls (DebugState.init x) ops
    ((gdbStubCheckBreakpoint r.2 pc).1 ↔ lastAccepted r.1 pc = some (.insert pc)) ∧
      ((gdbStubRemoveBreakpoint r.2 pc).1 ↔ (.insert pc, true) ∈ sinceClear r.1) ∧
      ∀ op addr, op.key? = some addr → addr ≠ pc →
        (gdbStubCheckBreakpoint (breakpointCall r.2 op).2 pc).1 =
          (gdbStubCheckBreakpoint r.2 pc).1 := by
  intro r
  have hlogged := logged_breakpointCalls (DebugState.init x) rfl ops
  refine ⟨?_, ?_, ?_⟩
  · rw [fst_gdbStubCheckBreakpoint_iff, hlogged.mem_active_iff]
  · have hremove := (breakpointCall_eq r.2 (.remove pc)).1
    rw [show (gdbStubRemoveBreakpoint r.2 pc).1 = _ from hremove]
    exact hlogged.remove_isSome_iff pc
  · intro op addr hop hne
    rw [Bool.eq_iff_iff, fst_gdbStubCheckBreakpoint_iff, fst_gdbStubCheckBreakpoint_iff,
      (breakpointCall_eq r.2 op).2]
    exact mem_active_step_of_ne r.2.breakpoints hop hne

/-- An address that is added, removed and added again. -/
theorem checkBreakpoint_breakpointCalls_again :
    let r := breakpointCalls (DebugState.init .x32)
      [.insert 0x1000, .remove 0x1000, .insert 0x2000, .insert 0x1000]
    ((gdbStubCheckBreakpoint r.2 0x1000).1 ↔ lastAccepted r.1 0x1000 = some (.insert 0x1000)) ∧
      (gdbStubCheckBreakpoint (breakpointCall r.2 (.remove 0x2000)).2 0x1000).1 =
        (gdbStubCheckBreakpoint r.2 0x1000).1 := by
  intro r
  obtain ⟨hcheck, -, hother⟩ := checkBreakpoint_breakpointCalls (x := .x32)
    [.insert 0x1000, .remove 0x1000, .insert 0x2000, .insert 0x1000] 0x1000
  exact ⟨hcheck, hother (.remove 0x2000) 0x2000 rfl (by decide)⟩

/-! ### Packets -/

/-- A packet `Z` or `z` of one of the types `0` to `4`, or a packet `R`. -/
inductive TablePacket (x : Xlen)
  | set (ins : Bool) (type : Fin 5) (addr len : GdbAddr x)
  | reset (arg : Byte)
  deriving DecidableEq

/-- The characters of a packet; numbers are written as `%x` writes them. -/
def TablePacket.payload : TablePacket x → List Byte
  | .set ins type addr len =>
    chr (if ins then 'Z' else 'z') :: (hexText type ++ chr ',' :: (hexText addr.toNat ++
      chr ',' :: hexText len.toNat))
  | .reset arg => chr 'R' :: hexText arg.toNat

/-- What a packet does to the breakpoint table. -/
def TablePacket.breakpointOp : TablePacket x → Option (Op (GdbAddr x))
  | .set ins type addr _ =>
    if type.val < 2 then some (if ins then .insert addr else .remove addr) else none
  | .reset _ => some .clear

/-- What a packet does to the watchpoint table; length `0` means `4`. -/
def TablePacket.watchpointOp : TablePacket x → Option (Op (WatchpointKey x))
  | .set ins type addr len =>
    let key := addedKey addr len (watchpointType type)
    if type.val < 2 then none else some (if ins then .insert key else .remove key)
  | .reset _ => some .clear

/-- The frames of some packets, one after the other. -/
def tableStream (ps : List (TablePacket x)) : List Byte := ps.flatMap fun p => frame p.payload

/-- The last packet was answered `OK`. -/
def World.answeredOk (w : World x σ) : Bool := w.stub.output.getLast? = some (frame (ascii "OK"))

/-- Packets in a row: which of them were answered `OK`, and the state after them. -/
def processPackets (fuel : Nat) (cb : GdbCallbacks x σ) :
    List (TablePacket x) → World x σ → Result (List (TablePacket x × Bool) × World x σ)
  | [], w => .ok ([], w)
  | p :: ps, w => do
    let r ← gdbStubProcess fuel cb w
    let rs ← processPackets fuel cb ps r.2
    .ok ((p, r.2.answeredOk) :: rs.1, rs.2)

/-- The operations on the breakpoint table, with the replies. -/
def breakpointLog (log : List (TablePacket x × Bool)) : List (Op (GdbAddr x) × Bool) :=
  log.filterMap fun e => e.1.breakpointOp.map fun op => (op, e.2)

/-- The operations on the watchpoint table, with the replies. -/
def watchpointLog (log : List (TablePacket x × Bool)) : List (Op (WatchpointKey x) × Bool) :=
  log.filterMap fun e => e.1.watchpointOp.map fun op => (op, e.2)

/-- The fields of a `Z` or `z` packet, as the handler cuts them out of the buffer. -/
theorem fields_of_hasBytes {buf : Fin gdbBufferSize → Byte} {cmd : Byte} {a b c : List Byte}
    (h : HasBytes buf 0 (cmd :: (a ++ chr ',' :: (b ++ chr ',' :: c)) ++ [0#8]))
    (ha : ∀ d ∈ a, isxdigit d) (hb : ∀ d ∈ b, isxdigit d) (hc : ∀ d ∈ c, isxdigit d) :
    ∃ comma1 comma2 : Fin gdbBufferSize, strchr buf 1 (chr ',') = some comma1 ∧
      strchr buf (comma1 + 1) (chr ',') = some comma2 ∧
      let buf' := setByte (setByte buf comma1 0) comma2 0
      parseHex x (cstr buf' 1) (comma1 - 1) = BitVec.ofNat x.bits (hexValue a) ∧
      parseHex x (cstr buf' (comma1 + 1)) (comma2 - comma1 - 1) =
        BitVec.ofNat x.bits (hexValue b) ∧
      parseHex x (cstr buf' (comma2 + 1)) (cstr buf' (comma2 + 1)).length =
        BitVec.ofNat x.bits (hexValue c) := by
  have hzero : ∀ l : List Byte, (∀ d ∈ l, isxdigit d) → 0#8 ∉ l := fun l hl hm =>
    (ne_of_isxdigit (hl _ hm)).2.2.2 rfl
  have hcomma : ∀ l : List Byte, (∀ d ∈ l, isxdigit d) → chr ',' ∉ l := fun l hl hm =>
    (ne_of_isxdigit (hl _ hm)).1 rfl
  -- the pieces of the packet in the buffer
  have h1 : HasBytes buf 1 (a ++ ([chr ','] ++ (b ++ ([chr ','] ++ (c ++ [0#8]))))) := by
    have htail := h.tail
    simpa using htail
  obtain ⟨hA, h2⟩ := hasBytes_append.mp h1
  obtain ⟨hcomma1, h3⟩ := hasBytes_append.mp h2
  obtain ⟨hB, h4⟩ := hasBytes_append.mp h3
  obtain ⟨hcomma2, h5⟩ := hasBytes_append.mp h4
  obtain ⟨hC, hnul⟩ := hasBytes_append.mp h5
  rw [List.length_singleton] at h3 hB h4 hcomma2 h5 hC hnul
  obtain ⟨comma1, hfind1, hpos1⟩ := strchr_of_hasBytes (hasBytes_append.mpr ⟨hA, hcomma1⟩)
    (hzero a ha) (hcomma a ha) (by decide)
  rw [← hpos1] at h3 hB h4 hcomma2 h5 hC hnul
  obtain ⟨comma2, hfind2, hpos2⟩ := strchr_of_hasBytes (hasBytes_append.mpr ⟨hB, hcomma2⟩)
    (hzero b hb) (hcomma b hb) (by decide)
  rw [← hpos2] at h5 hC hnul
  refine ⟨comma1, comma2, hfind1, hfind2, ?_, ?_, ?_⟩
  · have hstr : cstr (setByte (setByte buf comma1 0) comma2 0) 1 = a := by
      refine cstr_of_hasBytes (hasBytes_append.mpr ⟨?_, ?_⟩) (hzero a ha)
      · exact (hA.setByte _ _ (by omega)).setByte _ _ (by omega)
      · rw [← hpos1, hasBytes_singleton comma1.isLt, byteAt_setByte, if_neg (by omega),
          byteAt_setByte, if_pos rfl]
        rfl
    rw [parseHex_eq, hstr, List.take_of_length_le (by omega)]
  · have hstr : cstr (setByte (setByte buf comma1 0) comma2 0) (comma1 + 1) = b := by
      refine cstr_of_hasBytes (hasBytes_append.mpr ⟨?_, ?_⟩) (hzero b hb)
      · exact (hB.setByte _ _ (by omega)).setByte _ _ (by omega)
      · rw [← hpos2, hasBytes_singleton comma2.isLt, byteAt_setByte, if_pos rfl]
        rfl
    rw [parseHex_eq, hstr, List.take_of_length_le (by omega)]
  · have hstr : cstr (setByte (setByte buf comma1 0) comma2 0) (comma2 + 1) = c := by
      refine cstr_of_hasBytes (hasBytes_append.mpr ⟨?_, ?_⟩) (hzero c hc)
      · exact (hC.setByte _ _ (by omega)).setByte _ _ (by omega)
      · exact (hnul.setByte _ _ (by omega)).setByte _ _ (by omega)
    rw [parseHex_eq, hstr, List.take_length]

theorem dispatch_Z (fuel : Nat) (cb : GdbCallbacks x σ) {w : World x σ} (ins : Bool)
    (h : byteAt w.stub.packetBuffer 0 = chr (if ins then 'Z' else 'z')) :
    dispatch fuel cb w = .ok (0, handleBreakpoint w ins) := by
  unfold dispatch
  cases ins with
  | true =>
    simp only [h]
    rfl
  | false =>
    simp only [h]
    rfl

theorem dispatch_R (fuel : Nat) (cb : GdbCallbacks x σ) {w : World x σ}
    (h : byteAt w.stub.packetBuffer 0 = chr 'R') :
    dispatch fuel cb w = .ok (0, handleReset cb w) := by
  unfold dispatch
  simp only [h]
  rfl

/-- What has become of the stub and the tables after a packet. -/
structure Processed (w : World x σ) (p : TablePacket x) (rest : List Byte) (w' : World x σ) :
    Prop where
  connected : w'.stub.connected
  consecutiveFailures : w'.stub.consecutiveFailures = 0
  input : w'.stub.input = rest
  breakpoints : w'.dbg.breakpoints =
    (p.breakpointOp.map w.dbg.breakpoints.step).getD w.dbg.breakpoints
  watchpoints : w'.dbg.watchpoints =
    (p.watchpointOp.map w.dbg.watchpoints.step).getD w.dbg.watchpoints
  answered_breakpoint : ∀ op ∈ p.breakpointOp, w'.answeredOk = w.dbg.breakpoints.accepts op
  answered_watchpoint : ∀ op ∈ p.watchpointOp, w'.answeredOk = w.dbg.watchpoints.accepts op

theorem answeredOk_send (w : World x σ) (ok : Bool) :
    (w.send (if ok then ascii "OK" else ascii "E01")).answeredOk = ok := by
  have hlen : (if ok then ascii "OK" else ascii "E01").length ≤ 4091 := by cases ok <;> decide
  rw [World.answeredOk, output_send_of_le w hlen, List.getLast?_concat]
  cases ok <;> decide

theorem isxdigit_hexText' (n : Nat) : ∀ c ∈ hexText n, isxdigit c := fun _ => isxdigit_hexText

theorem addrToInt_ofNat (type : Fin 5) : addrToInt (BitVec.ofNat x.bits type.val) = type.val := by
  revert type
  cases x <;> decide

/-- The table operation of a `Z` or `z` packet: whether it is accepted, and the state after it. -/
def tableCall (d : DebugState x) (ins : Bool) (type : Fin 5) (addr len : GdbAddr x) :
    Bool × DebugState x :=
  if type.val < 2 then
    if ins then gdbStubAddBreakpoint d addr else gdbStubRemoveBreakpoint d addr
  else
    let key := addedKey addr len (watchpointType type)
    if ins then gdbStubAddWatchpoint d addr key.len key.type
    else gdbStubRemoveWatchpoint d addr key.len key.type

theorem handleBreakpoint_of_received {w : World x σ} {s' : GdbStub} {ins : Bool} {type : Fin 5}
    {addr len : GdbAddr x} {rest : List Byte}
    (hrecv : Received w.stub (TablePacket.set ins type addr len).payload rest s') :
    ∃ buf, handleBreakpoint { w with stub := s' } ins =
      ((({ w with stub := s' } : World x σ).setBuffer buf).updDbg
        fun _ => (tableCall w.dbg ins type addr len).2).send
        (if (tableCall w.dbg ins type addr len).1 then ascii "OK" else ascii "E01") := by
  obtain ⟨comma1, comma2, hfind1, hfind2, htype, haddr, hlen⟩ :=
    fields_of_hasBytes (x := x) hrecv.bytes (isxdigit_hexText' _) (isxdigit_hexText' _)
      (isxdigit_hexText' _)
  rw [hexValue_hexText] at htype haddr hlen
  rw [BitVec.ofNat_toNat, BitVec.setWidth_eq] at haddr hlen
  refine ⟨setByte (setByte s'.packetBuffer comma1 0) comma2 0, ?_⟩
  rw [handleBreakpoint]
  simp only [hfind1, hfind2]
  rw [htype, haddr, hlen, addrToInt_ofNat]
  have hcast : ∀ n : Nat, ((type.val : Int) = n) ↔ type.val = n := fun n => Int.ofNat_inj
  rw [tableCall]
  by_cases h2 : type.val < 2
  · have hbp : (type.val : Int) = 0 ∨ (type.val : Int) = 1 := by omega
    rw [if_pos hbp, if_pos h2]
    rfl
  · have hbp : ¬((type.val : Int) = 0 ∨ (type.val : Int) = 1) := by omega
    have hwp : 2 ≤ (type.val : Int) ∧ (type.val : Int) ≤ 4 := by omega
    have hlen0 : (if 2 ≤ (type.val : Int) ∧ (type.val : Int) ≤ 4 ∧ len = 0 then 4 else len) =
        (addedKey addr len (watchpointType type)).len := by
      rw [addedKey]
      by_cases hzero : len = 0
      · rw [if_pos ⟨hwp.1, hwp.2, hzero⟩, if_pos hzero]
      · rw [if_neg fun h => hzero h.2.2, if_neg hzero]
    rw [if_neg hbp, if_pos hwp, if_neg h2, hlen0]
    rfl

theorem four_ne_zero (x : Xlen) : (4 : GdbAddr x) ≠ 0 := by
  cases x <;> decide

/-- A key that has been filed is filed under itself. -/
theorem addedKey_addedKey (addr len : GdbAddr x) (type : WatchpointType) :
    addedKey addr (addedKey addr len type).len type = addedKey addr len type := by
  unfold addedKey
  by_cases h : len = 0
  · rw [if_pos h, if_neg (four_ne_zero x)]
  · rw [if_neg h, if_neg h]

/-- The operation does to the tables what it should, and says whether it was accepted. -/
theorem tableCall_eq (d : DebugState x) (ins : Bool) (type : Fin 5) (addr len : GdbAddr x) :
    let p := TablePacket.set ins type addr len
    (tableCall d ins type addr len).2.breakpoints =
        (p.breakpointOp.map d.breakpoints.step).getD d.breakpoints ∧
      (tableCall d ins type addr len).2.watchpoints =
        (p.watchpointOp.map d.watchpoints.step).getD d.watchpoints ∧
      (∀ op ∈ p.breakpointOp, (tableCall d ins type addr len).1 = d.breakpoints.accepts op) ∧
      ∀ op ∈ p.watchpointOp, (tableCall d ins type addr len).1 = d.watchpoints.accepts op := by
  intro p
  set key := addedKey addr len (watchpointType type) with hkey
  have hfiled : addedKey key.addr key.len key.type = key := addedKey_addedKey _ _ _
  -- the types 0 and 1 are breakpoints, the others watchpoints
  by_cases h2 : type.val < 2
  · have hbreak : p.breakpointOp = some (if ins then .insert addr else .remove addr) := if_pos h2
    have hwatch : p.watchpointOp = none := if_pos h2
    have hcall : tableCall d ins type addr len =
        breakpointCall d (if ins then .insert addr else .remove addr) := by
      rw [tableCall, if_pos h2]
      cases ins <;> rfl
    have hstep := breakpointCall_eq d (if ins then .insert addr else .remove addr)
    have hother : (breakpointCall d (if ins then .insert addr else .remove addr)).2.watchpoints =
        d.watchpoints := by
      cases ins with
      | true => exact watchpoints_tableStep d (.breakpoint (.insert addr))
      | false => exact watchpoints_tableStep d (.breakpoint (.remove addr))
    rw [hbreak, hwatch, hcall]
    refine ⟨hstep.2, hother, ?_, by simp⟩
    rintro op ⟨⟩
    exact hstep.1
  · have hbreak : p.breakpointOp = none := if_neg h2
    have hwatch : p.watchpointOp = some (if ins then .insert key else .remove key) := if_neg h2
    rw [hbreak, hwatch, tableCall, if_neg h2]
    cases ins with
    | true =>
      have hstep := watchpoints_tableStep d (.watchpoint (.insert key))
      refine ⟨breakpoints_tableStep d (.watchpoint (.insert key)), hstep.trans ?_, by simp, ?_⟩
      · exact congrArg (fun k => d.watchpoints.step (.insert k)) hfiled
      · rintro op ⟨⟩
        exact (fst_gdbStubAddWatchpoint d addr key.len key.type).trans
          (congrArg (fun k => (d.watchpoints.insert k).isSome) hfiled)
    | false =>
      refine ⟨breakpoints_tableStep d (.watchpoint (.remove key)),
        watchpoints_tableStep d (.watchpoint (.remove key)), by simp, ?_⟩
      rintro op ⟨⟩
      simp [gdbStubRemoveWatchpoint, outcome, accepts, hkey, addedKey]

theorem not_hash_payload (p : TablePacket x) : chr '#' ∉ p.payload := by
  have hdigits : ∀ n, chr '#' ∉ hexText n := fun n hm => by
    have hx := isxdigit_hexText hm
    revert hx
    decide
  cases p with
  | set ins type addr len =>
    have hcmd : chr '#' ≠ chr (if ins then 'Z' else 'z') := by cases ins <;> decide
    have hcomma : chr '#' ≠ chr ',' := by decide
    simp [TablePacket.payload, hcmd, hcomma, hdigits]
  | reset arg =>
    have hcmd : chr '#' ≠ chr 'R' := by decide
    simp [TablePacket.payload, hcmd, hdigits]

theorem length_payload_lt (p : TablePacket x) : p.payload.length < gdbBufferSize := by
  have hlen : ∀ n < 2 ^ 64, (hexText n).length ≤ 16 := fun n hn =>
    length_hexText_le (by decide) (hn.trans_le (by decide))
  have hbits : 2 ^ x.bits ≤ 2 ^ 64 := by cases x <;> decide
  cases p with
  | set ins type addr len =>
    have htype := hlen type.val (by omega)
    have haddr := hlen addr.toNat (addr.isLt.trans_le hbits)
    have hlen' := hlen len.toNat (len.isLt.trans_le hbits)
    simp only [TablePacket.payload, List.length_cons, List.length_append, gdbBufferSize]
    omega
  | reset arg =>
    have harg := hlen arg.toNat (arg.isLt.trans_le (by decide))
    simp only [TablePacket.payload, List.length_cons, gdbBufferSize]
    omega

theorem sendPacket_eq (s : GdbStub) (data : List Byte) :
    ∃ out, sendPacket s data = { s with output := out } := by
  unfold sendPacket
  split_ifs
  · exact ⟨_, rfl⟩
  · exact ⟨s.output, rfl⟩

/-- A reset empties both tables. -/
theorem handleReset_eq (cb : GdbCallbacks x σ) (w : World x σ) :
    ∃ v : World x σ, v.stub = w.stub ∧ v.dbg.breakpoints = empty _ _ ∧
      v.dbg.watchpoints = empty _ _ ∧ handleReset cb w = v.send (ascii "OK") := by
  unfold handleReset
  refine ⟨_, ?_, rfl, rfl, rfl⟩
  cases cb.reset with
  | none => simp [stub_clearRegisters]
  | some reset => simp

/-- A packet is carried out and answered. -/
theorem processed_of_input (fuel : Nat) (cb : GdbCallbacks x σ) {w : World x σ} {p : TablePacket x}
    {rest : List Byte} (hconn : w.stub.connected) (hfail : w.stub.consecutiveFailures < 50)
    (hin : w.stub.input = frame p.payload ++ rest) :
    ∃ w', gdbStubProcess fuel cb w = .ok (0, w') ∧ Processed w p rest w' := by
  have hframed : Framed p.payload rest w.stub.input := hin ▸ framed_frame (not_hash_payload p) rest
  obtain ⟨s', hrecv, hproc⟩ := gdbStubProcess_framed fuel cb hconn hfail hframed
    (length_payload_lt p)
  have hstub : ∀ (v : World x σ) (data : List Byte), v.stub.connected = s'.connected →
      v.stub.consecutiveFailures = s'.consecutiveFailures → v.stub.input = s'.input →
        (v.send data).stub.connected ∧ (v.send data).stub.consecutiveFailures = 0 ∧
          (v.send data).stub.input = rest := by
    intro v data hc hf hi
    obtain ⟨out, hout⟩ := sendPacket_eq v.stub data
    rw [World.send, hout, hc, hf, hi, hrecv.eq]
    exact ⟨hconn, rfl, rfl⟩
  rw [hproc]
  cases p with
  | set ins type addr len =>
    obtain ⟨buf, hhandle⟩ := handleBreakpoint_of_received hrecv
    obtain ⟨hbp, hwp, hansb, hansw⟩ := tableCall_eq w.dbg ins type addr len
    rw [dispatch_Z fuel cb ins hrecv.bytes.head, hhandle]
    obtain ⟨hc, hf, hi⟩ := hstub ((({ w with stub := s' } : World x σ).setBuffer buf).updDbg
      fun _ => (tableCall w.dbg ins type addr len).2)
      (if (tableCall w.dbg ins type addr len).1 then ascii "OK" else ascii "E01") rfl rfl rfl
    refine ⟨_, rfl, hc, hf, hi, hbp, hwp, fun op hop => ?_, fun op hop => ?_⟩
    · rw [answeredOk_send, hansb op hop]
    · rw [answeredOk_send, hansw op hop]
  | reset arg =>
    obtain ⟨v, hv, hbp, hwp, hhandle⟩ := handleReset_eq cb { w with stub := s' }
    rw [dispatch_R fuel cb hrecv.bytes.head, hhandle]
    obtain ⟨hc, hf, hi⟩ := hstub v (ascii "OK") (by rw [hv]) (by rw [hv]) (by rw [hv])
    refine ⟨_, rfl, hc, hf, hi, hbp, hwp, ?_, ?_⟩
    · rintro op ⟨⟩
      exact answeredOk_send v true
    · rintro op ⟨⟩
      exact answeredOk_send v true

/-- The tables are those that the log determines. -/
structure TablesLogged (d : DebugState x) (log : List (TablePacket x × Bool)) : Prop where
  breakpoints : Logged d.breakpoints (breakpointLog log)
  watchpoints : Logged d.watchpoints (watchpointLog log)

/-- An operation that a packet may be, at the end of a log. -/
theorem logged_append {κ : Type} [DecidableEq κ] {cap : Nat} {t t' : SlotTable κ cap}
    {log : List (Op κ × Bool)} {op : Option (Op κ)} {ok : Bool} (h : Logged t log)
    (hstep : t' = (op.map t.step).getD t) (hok : ∀ o ∈ op, ok = t.accepts o) :
    Logged t' (log ++ (op.map fun o => (o, ok)).toList) := by
  cases op with
  | none =>
    rw [hstep]
    simpa using h
  | some o =>
    rw [hstep, hok o rfl]
    exact h.step o

theorem TablesLogged.of_processed {w w' : World x σ} {p : TablePacket x} {rest : List Byte}
    {log : List (TablePacket x × Bool)} (h : TablesLogged w.dbg log) (hp : Processed w p rest w') :
    TablesLogged w'.dbg (log ++ [(p, w'.answeredOk)]) := by
  constructor
  · have hlogged := logged_append h.breakpoints hp.breakpoints hp.answered_breakpoint
    rw [breakpointLog, List.filterMap_append]
    cases hop : p.breakpointOp <;> simpa [breakpointLog, hop] using hlogged
  · have hlogged := logged_append h.watchpoints hp.watchpoints hp.answered_watchpoint
    rw [watchpointLog, List.filterMap_append]
    cases hop : p.watchpointOp <;> simpa [watchpointLog, hop] using hlogged

/-- Packets are carried out one after the other, and the tables are those that the log of the
packets determines. -/
theorem processPackets_logged (fuel : Nat) (cb : GdbCallbacks x σ) {w : World x σ}
    {ps : List (TablePacket x)} {rest : List Byte} (before : List (TablePacket x × Bool))
    (hconn : w.stub.connected) (hfail : w.stub.consecutiveFailures < 50)
    (hin : w.stub.input = tableStream ps ++ rest) (hw : TablesLogged w.dbg before) :
    ∃ log w', processPackets fuel cb ps w = .ok (log, w') ∧ log.map Prod.fst = ps ∧
      TablesLogged w'.dbg (before ++ log) := by
  induction ps generalizing w before with
  | nil => exact ⟨[], w, rfl, rfl, by rwa [List.append_nil]⟩
  | cons p ps ih =>
    have hcons : tableStream (p :: ps) = frame p.payload ++ tableStream ps := List.flatMap_cons
    rw [hcons, List.append_assoc] at hin
    obtain ⟨w₁, hret, hp⟩ := processed_of_input fuel cb hconn hfail hin
    obtain ⟨log, w', hrun, hlog, htables⟩ := ih _ hp.connected
      (by rw [hp.consecutiveFailures]; decide) hp.input (hw.of_processed hp)
    rw [List.append_assoc] at htables
    refine ⟨(p, w₁.answeredOk) :: log, w', ?_, ?_, htables⟩
    · rw [processPackets, hret]
      show (processPackets fuel cb ps w₁ >>= fun rs =>
        .ok ((p, w₁.answeredOk) :: rs.1, rs.2)) = _
      rw [hrun]
      rfl
    · rw [List.map_cons, hlog]

/-- The log has set the watchpoint `key`, and it concerns an access at `a` of `n` bytes. -/
def Watches (log : List (TablePacket .x32 × Bool)) (kind : WatchpointType) (a n : GdbAddr .x32)
    (key : WatchpointKey .x32) : Prop :=
  (key.type = kind ∨ key.type = .access) ∧
    lastAccepted (watchpointLog log) key = some (.insert key) ∧
    ∃ b, (a.toNat ≤ b ∧ b < a.toNat + n.toNat) ∧
      (key.addr.toNat ≤ b ∧ b < key.addr.toNat + key.len.toNat)

/-- What a check of an access answers: whether a watchpoint is hit, with the address of one that is,
or with the last one as before. -/
def AnswersFor (log : List (TablePacket .x32 × Bool)) (kind : WatchpointType)
    (a n : GdbAddr .x32) (d : DebugState .x32) (r : Bool × DebugState .x32) : Prop :=
  (r.1 ↔ ∃ key, Watches log kind a n key) ∧
    (r.1 → ∃ key, Watches log kind a n key ∧ r.2.lastWatchpointAddr = key.addr) ∧
    (¬r.1 → r.2.lastWatchpointAddr = d.lastWatchpointAddr)

theorem answersFor_checkWatchpoint {d : DebugState .x32} {log : List (TablePacket .x32 × Bool)}
    (h : TablesLogged d log) (kind : WatchpointType) (a n : GdbAddr .x32) :
    AnswersFor log kind a n d (checkWatchpoint d kind a n) := by
  have hslot : ∀ s ∈ d.watchpoints.slots, (s.enabled && (s.key.type = kind || s.key.type = .access)
      && rangesOverlap a n s.key.addr s.key.len) = true → Watches log kind a n s.key := by
    intro s hs hp
    simp only [Bool.and_eq_true, Bool.or_eq_true, decide_eq_true_iff] at hp
    obtain ⟨⟨hen, htype⟩, hover⟩ := hp
    refine ⟨htype, ?_, (rangesOverlap_iff _ _ _ _).mp hover⟩
    rw [← h.watchpoints.mem_active_iff, mem_active]
    rwa [← hen]
  cases hfind : d.watchpoints.slots.find? fun s => s.enabled && (s.key.type = kind ||
      s.key.type = .access) && rangesOverlap a n s.key.addr s.key.len with
  | some s =>
    have hcheck : checkWatchpoint d kind a n =
        (true, { d with lastWatchpointAddr := s.key.addr }) := by
      rw [checkWatchpoint, DebugState.watchpointFor, hfind]
      rfl
    have hp := List.find?_some hfind
    have hwatch := hslot s (List.mem_of_find?_eq_some hfind) hp
    rw [hcheck]
    exact ⟨iff_of_true rfl ⟨_, hwatch⟩, fun _ => ⟨_, hwatch, rfl⟩, fun hno => absurd rfl hno⟩
  | none =>
    have hcheck : checkWatchpoint d kind a n = (false, d) := by
      rw [checkWatchpoint, DebugState.watchpointFor, hfind]
      rfl
    rw [hcheck]
    refine ⟨iff_of_false (by simp) ?_, fun hyes => absurd hyes (by simp), fun _ => rfl⟩
    rintro ⟨key, htype, hlast, hover⟩
    rw [← h.watchpoints.mem_active_iff, mem_active] at hlast
    have hno := List.find?_eq_none.mp hfind _ hlast
    rw [← rangesOverlap_iff] at hover
    exact hno (by simp [htype, hover])

/-- After any packets `Z`, `z` and `R`, an access hits a watchpoint if it has a byte in common with
one of its kind whose last packet answered `OK` since the last reset is an insertion. -/
theorem checkWatchpoint_processPackets (fuel : Nat) (cb : GdbCallbacks .x32 σ) {w : World .x32 σ}
    {ps : List (TablePacket .x32)} {rest : List Byte} (hinit : w.dbg = DebugState.init .x32)
    (hconn : w.stub.connected) (hfail : w.stub.consecutiveFailures < 50)
    (hin : w.stub.input = tableStream ps ++ rest) :
    ∃ log w', processPackets fuel cb ps w = .ok (log, w') ∧ log.map Prod.fst = ps ∧
      ∀ a n, AnswersFor log .write a n w'.dbg (gdbStubCheckWatchpointWrite w'.dbg a n) ∧
        AnswersFor log .read a n w'.dbg (gdbStubCheckWatchpointRead w'.dbg a n) := by
  obtain ⟨log, w', hrun, hlog, htables⟩ := processPackets_logged fuel cb [] hconn hfail hin
    (hinit ▸ ⟨.empty, .empty⟩)
  rw [List.nil_append] at htables
  exact ⟨log, w', hrun, hlog, fun a n => ⟨answersFor_checkWatchpoint htables .write a n,
    answersFor_checkWatchpoint htables .read a n⟩⟩

/-- A watchpoint of no length at the end of the address space watches four bytes. -/
theorem checkWatchpoint_processPackets_end :
    let ps : List (TablePacket .x32) := [.set true 2 0xFFFFFFFE 0, .reset 0, .set true 2 0xFFFFFFFE 0]
    ∃ log w', processPackets 0 (byteMemoryCallbacks .x32) ps
        (byteMemoryWorld .x32 (tableStream ps)) = .ok (log, w') ∧ log.map Prod.fst = ps ∧
      ∀ a n, AnswersFor log .write a n w'.dbg (gdbStubCheckWatchpointWrite w'.dbg a n) ∧
        AnswersFor log .read a n w'.dbg (gdbStubCheckWatchpointRead w'.dbg a n) := by
  intro ps
  exact checkWatchpoint_processPackets 0 (byteMemoryCallbacks .x32) rfl rfl (by decide)
    (List.append_nil _).symm

/-- After any packets `Z`, `z` and `R`, a breakpoint is set at an address if the last packet for the
address answered `OK` since the last reset is an insertion, of type `0` or `1`; a removal of one
type removes the breakpoint of the other. -/
theorem checkBreakpoint_processPackets (fuel : Nat) (cb : GdbCallbacks x σ) {w : World x σ}
    {ps : List (TablePacket x)} {rest : List Byte} (hinit : w.dbg = DebugState.init x)
    (hconn : w.stub.connected) (hfail : w.stub.consecutiveFailures < 50)
    (hin : w.stub.input = tableStream ps ++ rest) :
    ∃ log w', processPackets fuel cb ps w = .ok (log, w') ∧ log.map Prod.fst = ps ∧
      ∀ pc, (gdbStubCheckBreakpoint w'.dbg pc).1 ↔
        lastAccepted (breakpointLog log) pc = some (.insert pc) := by
  obtain ⟨log, w', hrun, hlog, htables⟩ := processPackets_logged fuel cb [] hconn hfail hin
    (hinit ▸ ⟨.empty, .empty⟩)
  rw [List.nil_append] at htables
  exact ⟨log, w', hrun, hlog, fun pc => by
    rw [fst_gdbStubCheckBreakpoint_iff, htables.breakpoints.mem_active_iff]⟩

theorem checkBreakpoint_processPackets_twice :
    let ps : List (TablePacket .x32) := [.set true 0 0x1000 4, .set true 1 0x1000 4]
    ∃ log w', processPackets 0 (byteMemoryCallbacks .x32) ps
        (byteMemoryWorld .x32 (tableStream ps)) = .ok (log, w') ∧ log.map Prod.fst = ps ∧
      ∀ pc, (gdbStubCheckBreakpoint w'.dbg pc).1 ↔
        lastAccepted (breakpointLog log) pc = some (.insert pc) := by
  intro ps
  exact checkBreakpoint_processPackets 0 (byteMemoryCallbacks .x32) rfl rfl (by decide)
    (List.append_nil _).symm

/-- The packets of one type, with the replies. -/
def typeLog (type : Fin 5) (log : List (TablePacket x × Bool)) : List (Op (GdbAddr x) × Bool) :=
  breakpointLog (log.filter fun e => match e.1 with
    | .set _ t _ _ => t = type
    | .reset _ => true)

/-- Software and hardware breakpoints are not independent: a removal of type `1` removes the
breakpoint of type `0`. -/
theorem not_independent_processPackets :
    let ps : List (TablePacket .x32) :=
      [.set true 0 0x1000 4, .set true 1 0x1000 4, .set false 1 0x1000 4]
    ∃ log w', processPackets 0 (byteMemoryCallbacks .x32) ps
        (byteMemoryWorld .x32 (tableStream ps)) = .ok (log, w') ∧
      log.map Prod.fst = ps ∧ (∀ e ∈ log, e.2) ∧
      ¬((gdbStubCheckBreakpoint w'.dbg 0x1000).1 ↔
        lastAccepted (typeLog 0 log) 0x1000 = some (.insert 0x1000) ∨
          lastAccepted (typeLog 1 log) 0x1000 = some (.insert 0x1000)) := by
  intro ps
  have hrun : (processPackets 0 (byteMemoryCallbacks .x32) ps
      (byteMemoryWorld .x32 (tableStream ps))).toOption.map
        (fun r => (r.1, (gdbStubCheckBreakpoint r.2.dbg 0x1000).1)) =
      some (ps.map fun p => (p, true), false) := by decide +kernel
  cases hret : processPackets 0 (byteMemoryCallbacks .x32) ps
      (byteMemoryWorld .x32 (tableStream ps)) with
  | error e =>
    rw [hret] at hrun
    cases hrun
  | ok r =>
    rw [hret] at hrun
    obtain ⟨hlog, hcheck⟩ := Prod.mk.inj (Option.some.inj hrun)
    have hlast : lastAccepted (typeLog 0 r.1) 0x1000 = some (.insert 0x1000) := by
      rw [hlog]
      rfl
    refine ⟨r.1, r.2, rfl, ?_, ?_, ?_⟩
    · rw [hlog]
      rfl
    · rw [hlog]
      simp
    · rw [hcheck, hlast]
      simp

end Rv32Gdb
