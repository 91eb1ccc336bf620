import Rv32Gdb.Equiv.Execution
import Rv32Gdb.Equiv.Errors
import Rv32Gdb.Equiv.Ram

/-!
# Memory access of the debugger

`transparent_iff`: a memory packet leaves execution alone if and only if the last watchpoint that
its accesses hit (`lastHit`) is one that is already recorded, for a hart that is already the stop
hart and halted.  The accesses go through the same functions as those of the harts, on behalf of
hart `0` for `m` and `qSearch:memory` and of the focus hart for `M` and `X`.
-/

namespace Rv32Gdb

/-! ### Hits -/

/-- The watchpoint that an access of the debugger to one byte hits.  The sync words are accessed
without a check, and so is the doorbell when it is read. -/
def debugHit (connected : Bool) (d : DebugState .x32) (kind : AccessKind) (a : Word) :
    Option Word :=
  if smpSyncBase ≤ a ∧ a < smpSyncBase + 0x40 ∨ kind = .load ∧ a = smpIpiMmio then none
  else accessHit connected d kind a 1

/-- The last watchpoint that accesses to some bytes hit. -/
def lastHit (connected : Bool) (d : DebugState .x32) (kind : AccessKind) (addrs : List Word) :
    Option Word := (addrs.filterMap (debugHit connected d kind)).getLast?

theorem debugHit_congr {connected : Bool} {d d' : DebugState .x32} {kind : AccessKind}
    (h : d'.watchpoints = d.watchpoints) (a : Word) :
    debugHit connected d' kind a = debugHit connected d kind a := by
  unfold debugHit accessHit DebugState.watchpointFor
  rw [h]

theorem lastHit_congr {connected : Bool} {d d' : DebugState .x32} {kind : AccessKind}
    (h : d'.watchpoints = d.watchpoints) (addrs : List Word) :
    lastHit connected d' kind addrs = lastHit connected d kind addrs := by
  unfold lastHit
  rw [funext (debugHit_congr h)]

theorem lastHit_append (connected : Bool) (d : DebugState .x32) (kind : AccessKind)
    (l₁ l₂ : List Word) : lastHit connected d kind (l₁ ++ l₂) =
      (lastHit connected d kind l₂).or (lastHit connected d kind l₁) := by
  rw [lastHit, List.filterMap_append, List.getLast?_append, lastHit, lastHit]

theorem lastHit_singleton (connected : Bool) (d : DebugState .x32) (kind : AccessKind) (a : Word) :
    lastHit connected d kind [a] = debugHit connected d kind a := by
  rw [lastHit]
  cases hhit : debugHit connected d kind a with
  | none =>
    rw [List.filterMap_cons_none hhit]
    rfl
  | some b =>
    rw [List.filterMap_cons_some hhit]
    rfl

/-! ### What accesses change -/

/-- Accesses on behalf of hart `h`: the last hit is recorded, and memory is written at some
addresses. -/
structure Accessed (h : Nat) (hit : Option Word) (written : List Word) (m m' : Machine) :
    Prop where
  dbg : m'.dbg = { m.dbg with lastWatchpointAddr := hit.getD m.dbg.lastWatchpointAddr }
  focusHart : m'.sys.focusHart = m.sys.focusHart
  stopHart : m'.sys.stopHart = if hit.isSome then ((m.hart h).hartId : Int) else m.sys.stopHart
  hart : ∀ k, m'.hart k =
    { m.hart k with memory := (m'.hart k).memory, halted := (m'.hart k).halted }
  halted : ∀ k, (m'.hart k).halted = ((m.hart k).halted || hit.isSome && k = h)
  memory : ∀ k off, (∀ a ∈ written, inRam a 1 → ramOffset a ≠ off) →
    (m'.hart k).memory off = (m.hart k).memory off

namespace Accessed

theorem refl (h : Nat) (m : Machine) : Accessed h none [] m m where
  dbg := rfl
  focusHart := rfl
  stopHart := rfl
  hart _ := rfl
  halted k := by simp
  memory _ _ _ := rfl

theorem trans {h : Nat} {o₁ o₂ : Option Word} {l₁ l₂ : List Word} {m₁ m₂ m₃ : Machine}
    (h₁ : Accessed h o₁ l₁ m₁ m₂) (h₂ : Accessed h o₂ l₂ m₂ m₃) :
    Accessed h (o₂.or o₁) (l₁ ++ l₂) m₁ m₃ where
  dbg := by rw [h₂.dbg, h₁.dbg, Option.getD_or]
  focusHart := h₂.focusHart.trans h₁.focusHart
  stopHart := by
    rw [h₂.stopHart, h₁.stopHart, h₁.hart h]
    cases o₂ <;> rfl
  hart k := by rw [h₂.hart k, h₁.hart k]
  halted k := by
    rw [h₂.halted, h₁.halted]
    cases o₂ <;> cases o₁ <;> simp
  memory k off hoff := by
    rw [List.forall_mem_append] at hoff
    rw [h₂.memory k off hoff.2, h₁.memory k off hoff.1]

variable {connected : Bool} {kind : AccessKind} {h : Nat} {m m₁ m₂ : Machine}

theorem watchpoints {hit : Option Word} {written : List Word} (h₁ : Accessed h hit written m m₁) :
    m₁.dbg.watchpoints = m.dbg.watchpoints := by rw [h₁.dbg]

/-- Nothing has been written. -/
theorem weaken {hit : Option Word} (h₁ : Accessed h hit [] m m₁) (written : List Word) :
    Accessed h hit written m m₁ :=
  { h₁ with memory := fun k off _ => h₁.memory k off nofun }

/-- Accesses in a row. -/
theorem append {l₁ l₂ written₁ written₂ : List Word}
    (h₁ : Accessed h (lastHit connected m.dbg kind l₁) written₁ m m₁)
    (h₂ : Accessed h (lastHit connected m₁.dbg kind l₂) written₂ m₁ m₂) :
    Accessed h (lastHit connected m.dbg kind (l₁ ++ l₂)) (written₁ ++ written₂) m m₂ := by
  rw [lastHit_append, ← lastHit_congr h₁.watchpoints l₂]
  exact h₁.trans h₂

/-- An access, then others. -/
theorem cons {a : Word} {l written₁ written₂ : List Word}
    (h₁ : Accessed h (debugHit connected m.dbg kind a) written₁ m m₁)
    (h₂ : Accessed h (lastHit connected m₁.dbg kind l) written₂ m₁ m₂) :
    Accessed h (lastHit connected m.dbg kind (a :: l)) (written₁ ++ written₂) m m₂ := by
  rw [← lastHit_singleton] at h₁
  exact h₁.append h₂

end Accessed

/-! ### One byte -/

theorem accessed_recordHit (m : Machine) (h : Nat) (a : Word) :
    Accessed h (some a) [] m (recordHit m h a) where
  dbg := rfl
  focusHart := rfl
  stopHart := rfl
  hart k := by
    rw [recordHit, Target.hart_updHart]
    split_ifs with hk
    · rw [hk]
      rfl
    · rfl
  halted k := by
    rw [recordHit, Target.hart_updHart]
    by_cases hk : k = h
    · simp [hk, Rv32Cpu.halt]
    · simp [hk, Target.hart, Target.updSys, Target.sys]
  memory k off _ := by
    rw [recordHit, Target.hart_updHart]
    split_ifs with hk
    · rw [hk]
      rfl
    · rfl

theorem accessed_checkAccess (kind : AccessKind) (connected : Bool) (m : Machine) (h : Nat)
    (a : Word) (size : Nat) : Accessed h (accessHit connected m.dbg kind a size) [] m
      (checkAccess kind connected m h a size) := by
  cases hhit : accessHit connected m.dbg kind a size with
  | none =>
    rw [checkAccess_of_none hhit]
    exact Accessed.refl h m
  | some b =>
    rw [checkAccess_of_some hhit]
    exact accessed_recordHit m h b

/-- A load of the debugger. -/
theorem accessed_sysReadMem (connected : Bool) (m : Machine) (a : Word) :
    Accessed 0 (debugHit connected m.dbg .load a) [] m (sysReadMem connected m a 1).2 := by
  unfold debugHit sysReadMem
  by_cases hsync : smpSyncBase ≤ a ∧ a < smpSyncBase + 0x40
  · rw [if_pos (Or.inl hsync), if_pos hsync]
    exact Accessed.refl 0 m
  by_cases hmmio : a = smpIpiMmio
  · rw [if_pos (Or.inr ⟨rfl, hmmio⟩), if_neg hsync, if_pos hmmio]
    exact Accessed.refl 0 m
  · rw [if_neg (not_or.mpr ⟨hsync, fun h => hmmio h.2⟩), if_neg hsync, if_neg hmmio]
    exact accessed_checkAccess _ _ _ _ _ _

theorem accessed_setRam (h k : Nat) (m : Machine) {a : Word} (b : Byte) (ha : inRam a 1) :
    Accessed h none [a] m (m.updSys fun s => s.setRam k (ramOffset a) b) := by
  have hset : (m.updSys fun s => s.setRam k (ramOffset a) b) =
      m.updHart (m.sys.ramOwner k) fun c =>
        { c with memory := Function.update c.memory (ramOffset a) b } := rfl
  have hhart : ∀ j, (m.updSys fun s => s.setRam k (ramOffset a) b).hart j =
      if j = m.sys.ramOwner k then
        { m.hart j with memory := Function.update (m.hart j).memory (ramOffset a) b }
      else m.hart j := by
    intro j
    rw [hset, Target.hart_updHart]
    split_ifs with hj
    · rw [hj]
    · rfl
  refine ⟨rfl, rfl, rfl, fun j => ?_, fun j => ?_, fun j off hoff => ?_⟩
  · rw [hhart]
    split_ifs <;> rfl
  · rw [hhart]
    split_ifs <;> simp
  · rw [hhart]
    split_ifs
    · exact Function.update_of_ne (hoff a (List.mem_singleton_self a) ha).symm _ _
    · rfl

/-- The sync words are in RAM. -/
theorem inRam_of_syncRegion {a : Word} (h : smpSyncBase ≤ a ∧ a < smpSyncBase + 0x40) :
    inRam a 1 := by
  obtain ⟨hlow, hhigh⟩ := h
  rw [BitVec.le_def] at hlow
  rw [BitVec.lt_def] at hhigh
  have hlow' : 0x80002000 ≤ a.toNat := hlow
  have hhigh' : a.toNat < 0x80002040 := hhigh
  have h1 : ramBase ≤ a := by
    rw [BitVec.le_def]
    show 0x80000000 ≤ a.toNat
    omega
  have h2 : a < ramBase + ramSize - BitVec.ofNat 32 1 + 1 := by
    rw [BitVec.lt_def]
    show a.toNat < 0x80010000
    omega
  rw [inRam, decide_eq_true h1, decide_eq_true h2]
  rfl

/-- A store of the debugger; one byte never rings the doorbell. -/
theorem accessed_sysWriteMem (connected : Bool) (m : Machine) (h : Nat) (a value : Word) :
    Accessed h (debugHit connected m.dbg .store a) [a] m
      (sysWriteMem connected m h a value 1) := by
  have hmmio : smpSyncHandleMmio connected m a value 1 = none := if_pos (Or.inr (by decide))
  unfold debugHit sysWriteMem
  rw [hmmio]
  simp only
  by_cases hsync : smpSyncBase ≤ a ∧ a < smpSyncBase + 0x40
  · rw [if_pos (Or.inl hsync), if_pos hsync]
    unfold smpSyncWriteRam
    split_ifs
    · exact accessed_setRam h 0 m _ (inRam_of_syncRegion hsync)
    · exact (Accessed.refl h m).weaken [a]
  · rw [if_neg (not_or.mpr ⟨hsync, fun h => nomatch h.1⟩), if_neg hsync]
    have hcheck := accessed_checkAccess .store connected m h a 1
    unfold rv32CpuWriteMem
    simp only
    split_ifs with hram
    · exact hcheck.trans (accessed_setRam h h _ _ hram)
    · exact hcheck.weaken [a]

/-- A step that returns, then another one. -/
theorem exists_of_bind_eq_ok {α β : Type} {r : Result α} {f : α → Result β} {b : β}
    (h : (r >>= f) = .ok b) : ∃ a, r = .ok a ∧ f a = .ok b := by
  cases r with
  | error e => cases h
  | ok a => exact ⟨a, rfl, h⟩

/-! ### Reads and writes of memory -/

/-- The addresses of `n` bytes from offset `i` on. -/
def byteAddrs (addr : Word) (i n : Nat) : List Word :=
  (List.range' i n).map fun j => addr + BitVec.ofNat 32 j

theorem byteAddrs_succ (addr : Word) (i n : Nat) :
    byteAddrs addr i (n + 1) = (addr + BitVec.ofNat 32 i) :: byteAddrs addr (i + 1) n := rfl

theorem accessed_readMemoryLoop {addr : Word} {n i : Nat} {w w' : EmuWorld}
    {p p' : CharArray gdbBufferSize}
    (hloop : readMemoryLoop emuCallbacks addr n i w p = .ok (w', p')) :
    Accessed 0 (lastHit w.stub.connected w.dbg .load (byteAddrs addr i n)) [] w.toTarget
      w'.toTarget := by
  induction n generalizing i w p with
  | zero =>
    obtain ⟨rfl, -⟩ := Prod.mk.inj (Except.ok.inj hloop)
    exact Accessed.refl 0 _
  | succ n ih =>
    set a := addr + BitVec.ofNat 32 i with ha
    have hbyte := accessed_sysReadMem w.stub.connected w.toTarget a
    set r := sysReadMem w.stub.connected w.toTarget a 1 with hr
    have hbody : (p.pushAll (hexByte (r.1.setWidth 8)) >>=
        readMemoryLoop emuCallbacks addr n (i + 1) (w.withTarget r.2)) = .ok (w', p') := hloop
    obtain ⟨p₁, -, hrest⟩ := exists_of_bind_eq_ok hbody
    rw [byteAddrs_succ]
    exact hbyte.cons (ih (w := w.withTarget r.2) hrest)

theorem accessed_writeMemoryLoop {addr : Word} {data n i : Nat} {w w' : EmuWorld}
    (hloop : writeMemoryLoop emuCallbacks addr data n i w = .ok w') :
    Accessed w.sim.sys.focusHart
      (lastHit w.stub.connected w.dbg .store (byteAddrs addr i n)) (byteAddrs addr i n)
      w.toTarget w'.toTarget := by
  induction n generalizing i w with
  | zero =>
    obtain rfl := Except.ok.inj hloop
    exact Accessed.refl _ _
  | succ n ih =>
    obtain ⟨hi, -, hloop⟩ := exists_of_bind_eq_ok hloop
    obtain ⟨lo, -, hloop⟩ := exists_of_bind_eq_ok hloop
    have hbyte := accessed_sysWriteMem w.stub.connected w.toTarget w.sim.sys.focusHart
      (addr + BitVec.ofNat 32 i) ((hexPair hi lo).setWidth 32)
    set v : EmuWorld := w.withTarget (sysWriteMem w.stub.connected w.toTarget w.sim.sys.focusHart
      (addr + BitVec.ofNat 32 i) ((hexPair hi lo).setWidth 32) 1) with hv
    have hrest := ih (w := v) hloop
    have hfocus : v.sim.sys.focusHart = w.sim.sys.focusHart := hbyte.focusHart
    rw [hfocus] at hrest
    rw [byteAddrs_succ]
    exact hbyte.cons hrest

theorem accessed_writeBytes (connected : Bool) (addr : Word) (i : Nat) (bytes : List Byte)
    (m : Machine) : Accessed m.sim.sys.focusHart
      (lastHit connected m.dbg .store (byteAddrs addr i bytes.length))
      (byteAddrs addr i bytes.length) m (writeBytes emuCallbacks connected addr i bytes m) := by
  induction bytes generalizing i m with
  | nil => exact Accessed.refl _ _
  | cons b bytes ih =>
    have hbyte := accessed_sysWriteMem connected m m.sim.sys.focusHart (addr + BitVec.ofNat 32 i)
      (b.setWidth 32)
    set m₁ := sysWriteMem connected m m.sim.sys.focusHart (addr + BitVec.ofNat 32 i)
      (b.setWidth 32) 1 with hm₁
    have hrest := ih (i + 1) m₁
    have hfocus : m₁.sim.sys.focusHart = m.sim.sys.focusHart := hbyte.focusHart
    rw [hfocus] at hrest
    rw [List.length_cons, byteAddrs_succ]
    exact hbyte.cons hrest

/-! ### Searches -/

/-- The comparison of a pattern with the bytes at `addr + i`: the outcome and the bytes read. -/
def matchReads (byte : Word → Byte) (addr : Word) (i : Nat) : List Byte → Bool × List Word
  | hi :: lo :: rest =>
    let a := addr + BitVec.ofNat 32 i
    if hexPair hi lo ≠ byte a then (false, [a])
    else
      let r := matchReads byte addr (i + 1) rest
      (r.1, a :: r.2)
  | _ => (true, [])

/-- The bytes that a search reads, up to the match. -/
def searchReads (byte : Word → Byte) (last : Word) (pattern : List Byte) : Nat → Word → List Word
  | 0, _ => []
  | fuel + 1, addr =>
    if addr ≤ last then
      let r := matchReads byte addr 0 pattern
      if r.1 then r.2 else r.2 ++ searchReads byte last pattern fuel (addr + 1)
    else []

/-- What has been loaded is loaded again. -/
theorem Accessed.debugByte_eq {connected : Bool} {h : Nat} {hit : Option Word} {m m' : Machine}
    (hacc : Accessed h hit [] m m') (a : Word) :
    debugByte connected m' a = debugByte connected m a := by
  have hram : ∀ off, m'.sys.ram 0 off = m.sys.ram 0 off := by
    intro off
    have hshared := congrArg Rv32Cpu.sharedRam (hacc.hart 0)
    simp only [Target.hart] at hshared
    rw [Rv32System.ram, Rv32System.ram, Rv32System.ramOwner, Rv32System.ramOwner, hshared]
    exact hacc.memory _ off (by simp)
  unfold debugByte
  rw [fst_sysReadMem_congr hram]

theorem accessed_matchPattern {byte : Word → Byte} (addr : Word) (i : Nat) (pattern : List Byte)
    {w : EmuWorld} (hbyte : ∀ a, debugByte w.stub.connected w.toTarget a = byte a) :
    (matchPattern emuCallbacks addr i pattern w).1 = (matchReads byte addr i pattern).1 ∧
      Accessed 0 (lastHit w.stub.connected w.dbg .load (matchReads byte addr i pattern).2) []
        w.toTarget (matchPattern emuCallbacks addr i pattern w).2.toTarget := by
  induction pattern using List.twoStepInduction generalizing i w with
  | nil => exact ⟨rfl, Accessed.refl 0 _⟩
  | singleton c => exact ⟨rfl, Accessed.refl 0 _⟩
  | cons_cons hi lo rest ih _ =>
    have hload := accessed_sysReadMem w.stub.connected w.toTarget (addr + BitVec.ofNat 32 i)
    set v : EmuWorld := w.withTarget
      (sysReadMem w.stub.connected w.toTarget (addr + BitVec.ofNat 32 i) 1).2 with hv
    have hbody : matchPattern emuCallbacks addr i (hi :: lo :: rest) w =
        if hexPair hi lo ≠ byte (addr + BitVec.ofNat 32 i) then (false, v)
        else matchPattern emuCallbacks addr (i + 1) rest v := by
      rw [← hbyte]
      rfl
    obtain ⟨hmatch, hrest⟩ := ih (i + 1) (w := v) fun a => by
      rw [← hbyte a]
      exact hload.debugByte_eq a
    rw [hbody, matchReads]
    simp only
    split_ifs
    · refine ⟨rfl, ?_⟩
      rw [lastHit_singleton]
      exact hload
    · exact ⟨hmatch, hload.cons hrest⟩

theorem accessed_searchLoop (byte : Word → Byte) {last addr : Word} {pattern : List Byte}
    {fuel : Nat} {w w' : EmuWorld}
    (hbyte : ∀ a, debugByte w.stub.connected w.toTarget a = byte a)
    (hloop : searchLoop emuCallbacks last pattern fuel addr w = .ok w') :
    Accessed 0 (lastHit w.stub.connected w.dbg .load (searchReads byte last pattern fuel addr)) []
      w.toTarget w'.toTarget := by
  induction fuel generalizing addr w with
  | zero => cases hloop
  | succ fuel ih =>
    obtain ⟨hfound, hmatch⟩ := accessed_matchPattern addr 0 pattern hbyte
    have hstub := stub_matchPattern emuCallbacks addr 0 pattern w
    set r := matchPattern emuCallbacks addr 0 pattern w with hr
    rw [searchLoop, ← hr] at hloop
    rw [searchReads]
    simp only at hloop ⊢
    rw [← hfound]
    split_ifs at hloop ⊢
    · obtain rfl := Except.ok.inj hloop
      exact hmatch
    · have hrest := ih (w := r.2) (fun a => by
        rw [hstub, ← hbyte a]
        exact hmatch.debugByte_eq a) hloop
      rw [hstub] at hrest
      exact hmatch.append hrest
    · obtain rfl := Except.ok.inj hloop
      exact Accessed.refl 0 _

/-! ### Packets -/

/-- The bytes that an `m` packet reads. -/
def readAddrs (buf : Fin gdbBufferSize → Byte) : List Word :=
  match strchr buf 1 (chr ',') with
  | none => []
  | some comma =>
    let buf := setByte buf comma 0
    let addr := parseHex .x32 (cstr buf 1) (comma - 1)
    let len := parseHex .x32 (cstr buf (comma + 1)) (cstr buf (comma + 1)).length
    if len.toNat > gdbBufferSize / 2 then [] else byteAddrs addr 0 len.toNat

/-- The bytes that an `M` packet writes. -/
def writeAddrs (buf : Fin gdbBufferSize → Byte) : List Word :=
  match strchr buf 1 (chr ','), strchr buf 1 (chr ':') with
  | some comma, some colon =>
    let buf := setByte (setByte buf comma 0) colon 0
    byteAddrs (parseHex .x32 (cstr buf 1) (comma - 1)) 0
      (parseHex .x32 (cstr buf (comma + 1)) (colon - comma - 1)).toNat
  | _, _ => []

/-- The bytes that an `X` packet writes. -/
def binaryAddrs (buf : Fin gdbBufferSize → Byte) : List Word :=
  match strchr buf 1 (chr ','), strchr buf 1 (chr ':') with
  | some comma, some colon =>
    let buf := setByte (setByte buf comma 0) colon 0
    let len := ((parseHex .x32 (cstr buf (comma + 1)) (colon - comma - 1)).setWidth 32).toNat
    if len = 0 ∨ len > gdbBufferSize then []
    else
      match decodeRspBinary len (cstr buf (colon + 1)) (CharArray.empty gdbBufferSize) with
      | .ok (some bytes) => byteAddrs (parseHex .x32 (cstr buf 1) (comma - 1)) 0 bytes.data.length
      | _ => []
  | _, _ => []

/-- The bytes that a `qSearch:memory` packet reads, of which `byte` gives the contents. -/
def searchAddrs (byte : Word → Byte) (fuel : Nat) (buf : Fin gdbBufferSize → Byte) : List Word :=
  match strchr buf 15 (chr ':') with
  | none => []
  | some colon1 =>
    match strchr buf (colon1 + 1) (chr ':') with
    | none => []
    | some colon2 =>
      let buf := setByte (setByte buf colon1 0) colon2 0
      let startAddr := parseHex .x32 (cstr buf 15) (colon1 - 15)
      let searchLen := parseHex .x32 (cstr buf (colon1 + 1)) (colon2 - colon1 - 1)
      let pattern := cstr buf (colon2 + 1)
      let patternLen := pattern.length / 2
      if patternLen = 0 ∨ searchLen.toNat < patternLen then []
      else searchReads byte (startAddr + searchLen - BitVec.ofNat 32 patternLen) pattern fuel
        startAddr

theorem accessed_handleReadMemory {w w' : EmuWorld}
    (hret : handleReadMemory emuCallbacks w = .ok w') :
    Accessed 0 (lastHit w.stub.connected w.dbg .load (readAddrs w.stub.packetBuffer)) []
      w.toTarget w'.toTarget := by
  unfold handleReadMemory at hret
  unfold readAddrs
  cases hcomma : strchr w.stub.packetBuffer 1 (chr ',') with
  | none =>
    simp only [hcomma] at hret
    obtain rfl := Except.ok.inj hret
    exact Accessed.refl 0 _
  | some comma =>
    simp only [hcomma] at hret ⊢
    split_ifs at hret ⊢
    · obtain rfl := Except.ok.inj hret
      exact Accessed.refl 0 _
    · obtain ⟨⟨w₁, p⟩, hloop, hret⟩ := exists_of_bind_eq_ok hret
      obtain ⟨response, -, hret⟩ := exists_of_bind_eq_ok hret
      obtain rfl := Except.ok.inj hret
      have hacc := accessed_readMemoryLoop hloop
      exact hacc

theorem accessed_handleWriteMemory {w w' : EmuWorld}
    (hret : handleWriteMemory emuCallbacks w = .ok w') :
    Accessed w.sim.sys.focusHart
      (lastHit w.stub.connected w.dbg .store (writeAddrs w.stub.packetBuffer))
      (writeAddrs w.stub.packetBuffer) w.toTarget w'.toTarget := by
  unfold handleWriteMemory at hret
  unfold writeAddrs
  rcases hcomma : strchr w.stub.packetBuffer 1 (chr ',') with _ | comma
  · rw [hcomma] at hret
    obtain rfl := Except.ok.inj hret
    exact Accessed.refl _ _
  rcases hcolon : strchr w.stub.packetBuffer 1 (chr ':') with _ | colon
  · rw [hcomma, hcolon] at hret
    obtain rfl := Except.ok.inj hret
    exact Accessed.refl _ _
  rw [hcomma, hcolon] at hret
  obtain ⟨w₁, hloop, hret⟩ := exists_of_bind_eq_ok hret
  obtain rfl := Except.ok.inj hret
  have hacc := accessed_writeMemoryLoop hloop
  exact hacc

theorem accessed_handleWriteMemoryBinary {w w' : EmuWorld}
    (hret : handleWriteMemoryBinary emuCallbacks w = .ok w') :
    Accessed w.sim.sys.focusHart
      (lastHit w.stub.connected w.dbg .store (binaryAddrs w.stub.packetBuffer))
      (binaryAddrs w.stub.packetBuffer) w.toTarget w'.toTarget := by
  unfold handleWriteMemoryBinary at hret
  unfold binaryAddrs
  rcases hcomma : strchr w.stub.packetBuffer 1 (chr ',') with _ | comma
  · rw [hcomma] at hret
    obtain rfl := Except.ok.inj hret
    exact Accessed.refl _ _
  rcases hcolon : strchr w.stub.packetBuffer 1 (chr ':') with _ | colon
  · rw [hcomma, hcolon] at hret
    obtain rfl := Except.ok.inj hret
    exact Accessed.refl _ _
  rw [hcomma, hcolon] at hret
  simp only at hret ⊢
  split_ifs at hret ⊢
  · obtain rfl := Except.ok.inj hret
    exact Accessed.refl _ _
  · obtain ⟨decoded, hdecode, hret⟩ := exists_of_bind_eq_ok hret
    rw [hdecode]
    cases decoded with
    | none =>
      obtain rfl := Except.ok.inj hret
      exact Accessed.refl _ _
    | some bytes =>
      obtain rfl := Except.ok.inj hret
      exact accessed_writeBytes _ _ _ _ _

theorem accessed_handleSearchMemory {byte : Word → Byte} {fuel : Nat} {w w' : EmuWorld}
    (hbyte : ∀ a, debugByte w.stub.connected w.toTarget a = byte a)
    (hret : handleSearchMemory fuel emuCallbacks w = .ok w') :
    Accessed 0 (lastHit w.stub.connected w.dbg .load
      (searchAddrs byte fuel w.stub.packetBuffer)) [] w.toTarget w'.toTarget := by
  unfold handleSearchMemory at hret
  unfold searchAddrs
  cases hcolon1 : strchr w.stub.packetBuffer 15 (chr ':') with
  | none =>
    simp only [hcolon1] at hret
    obtain rfl := Except.ok.inj hret
    exact Accessed.refl 0 _
  | some colon1 =>
    cases hcolon2 : strchr w.stub.packetBuffer (colon1 + 1) (chr ':') with
    | none =>
      simp only [hcolon1, hcolon2] at hret ⊢
      obtain rfl := Except.ok.inj hret
      exact Accessed.refl 0 _
    | some colon2 =>
      simp only [hcolon1, hcolon2] at hret ⊢
      split_ifs at hret ⊢
      · obtain rfl := Except.ok.inj hret
        exact Accessed.refl 0 _
      · have hacc := fun hb => accessed_searchLoop byte hb hret
        exact hacc hbyte

/-- What a memory packet accesses: whether it loads or stores, and the bytes in order. -/
def memoryAccess (fuel : Nat) (w : EmuWorld) : Option (AccessKind × List Word) :=
  let buf := w.stub.packetBuffer
  if byteAt buf 0 = chr 'm' then some (.load, readAddrs buf)
  else if byteAt buf 0 = chr 'M' then some (.store, writeAddrs buf)
  else if byteAt buf 0 = chr 'X' then some (.store, binaryAddrs buf)
  else if strncmpEq w.packetText (ascii "qSearch:memory:") then
    some (.load, searchAddrs (debugByte w.stub.connected w.toTarget) fuel buf)
  else none

/-- The hart on whose behalf the debugger accesses memory. -/
def accessHart (m : Machine) : AccessKind → Nat
  | .load => 0
  | .store => m.sys.focusHart

/-- The bytes that an access may change. -/
def writtenBytes : AccessKind → List Word → List Word
  | .load, _ => []
  | .store, addrs => addrs

theorem andReturnZero_eq_ok {σ : Type} {x : Xlen} {r : Result (World x σ)} {n : Int}
    {w : World x σ} (h : andReturnZero r = .ok (n, w)) : n = 0 ∧ r = .ok w := by
  obtain ⟨v, hv, hret⟩ := exists_of_bind_eq_ok h
  obtain ⟨rfl, rfl⟩ := Prod.mk.inj (Except.ok.inj hret)
  exact ⟨rfl, hv⟩

/-- What a memory packet does to the machine. -/
theorem accessed_dispatch {fuel : Nat} {w : EmuWorld} {r : Int × EmuWorld} {kind : AccessKind}
    {addrs : List Word} (hmem : memoryAccess fuel w = some (kind, addrs))
    (hret : dispatch fuel emuCallbacks w = .ok r) :
    r.1 = 0 ∧ Accessed (accessHart w.toTarget kind) (lastHit w.stub.connected w.dbg kind addrs)
      (writtenBytes kind addrs) w.toTarget r.2.toTarget := by
  obtain ⟨n, v⟩ := r
  unfold memoryAccess at hmem
  simp only at hmem
  split_ifs at hmem with hm hM hX hsearch
  · obtain ⟨rfl, rfl⟩ := Prod.mk.inj (Option.some.inj hmem)
    rw [dispatch_m fuel emuCallbacks hm] at hret
    obtain ⟨rfl, hr⟩ := andReturnZero_eq_ok hret
    exact ⟨rfl, accessed_handleReadMemory hr⟩
  · obtain ⟨rfl, rfl⟩ := Prod.mk.inj (Option.some.inj hmem)
    have hdispatch : dispatch fuel emuCallbacks w =
        andReturnZero (handleWriteMemory emuCallbacks w) := by
      unfold dispatch
      simp only [hM]
      rfl
    obtain ⟨rfl, hr⟩ := andReturnZero_eq_ok (hdispatch.symm.trans hret)
    exact ⟨rfl, accessed_handleWriteMemory hr⟩
  · obtain ⟨rfl, rfl⟩ := Prod.mk.inj (Option.some.inj hmem)
    have hdispatch : dispatch fuel emuCallbacks w =
        andReturnZero (handleWriteMemoryBinary emuCallbacks w) := by
      unfold dispatch
      simp only [hX]
      rfl
    obtain ⟨rfl, hr⟩ := andReturnZero_eq_ok (hdispatch.symm.trans hret)
    exact ⟨rfl, accessed_handleWriteMemoryBinary hr⟩
  · obtain ⟨rfl, rfl⟩ := Prod.mk.inj (Option.some.inj hmem)
    obtain ⟨t, ht⟩ := List.isPrefixOf_iff_prefix.mp hsearch
    have hq : byteAt w.stub.packetBuffer 0 = chr 'q' := (byteAt_of_packetText ht.symm).1
    have hdispatch : dispatch fuel emuCallbacks w =
        andReturnZero (handleQuery fuel emuCallbacks w) := by
      unfold dispatch
      simp only [hq]
      rfl
    rw [handleQuery_searchMemory fuel _ hsearch] at hdispatch
    obtain ⟨rfl, hr⟩ := andReturnZero_eq_ok (hdispatch.symm.trans hret)
    exact ⟨rfl, accessed_handleSearchMemory (fun _ => rfl) hr⟩

/-! ### Transparency -/

/-- A packet has left execution alone: nothing has changed but the RAM bytes at some addresses. -/
structure Transparent (written : List Word) (m m' : Machine) : Prop where
  regs : ∀ k, (m'.hart k).regs = (m.hart k).regs
  pc : ∀ k, (m'.hart k).pc = (m.hart k).pc
  running : ∀ k, (m'.hart k).running = (m.hart k).running
  halted : ∀ k, (m'.hart k).halted = (m.hart k).halted
  memory : ∀ k off, (∀ a ∈ written, inRam a 1 → ramOffset a ≠ off) →
    (m'.hart k).memory off = (m.hart k).memory off
  focusHart : m'.sys.focusHart = m.sys.focusHart
  stopHart : m'.sys.stopHart = m.sys.stopHart
  lastWatchpointAddr : m'.dbg.lastWatchpointAddr = m.dbg.lastWatchpointAddr
  breakpointHit : m'.dbg.breakpointHit = m.dbg.breakpointHit
  stopThread : m'.dbg.stopThread = m.dbg.stopThread

/-- A hit of hart `h` on the watchpoint at `a` is what the machine shows already. -/
def HitRecorded (m : Machine) (h : Nat) (a : Word) : Prop :=
  m.dbg.lastWatchpointAddr = a ∧ m.sys.stopHart = (m.hart h).hartId ∧ (m.hart h).halted

theorem Accessed.transparent_iff_hitRecorded {h : Nat} {hit : Option Word} {written : List Word}
    {m m' : Machine} (hacc : Accessed h hit written m m') :
    Transparent written m m' ↔ ∀ a ∈ hit, HitRecorded m h a := by
  constructor
  · rintro htrans a rfl
    have hlast := htrans.lastWatchpointAddr
    have hstop := htrans.stopHart
    have hhalted := htrans.halted h
    rw [hacc.dbg] at hlast
    rw [hacc.stopHart] at hstop
    rw [hacc.halted] at hhalted
    exact ⟨hlast.symm, hstop.symm, by simpa using hhalted⟩
  · intro hrecorded
    have hhart : ∀ k, m'.hart k =
        { m.hart k with memory := (m'.hart k).memory, halted := (m'.hart k).halted } := hacc.hart
    cases hit with
    | none =>
      refine ⟨fun k => by rw [hhart k], fun k => by rw [hhart k], fun k => by rw [hhart k],
        fun k => ?_, hacc.memory, hacc.focusHart, hacc.stopHart, ?_, ?_, ?_⟩
      · rw [hacc.halted]
        simp
      · rw [hacc.dbg]
        rfl
      · rw [hacc.dbg]
      · rw [hacc.dbg]
    | some a =>
      obtain ⟨hlast, hstop, hhalted⟩ := hrecorded a rfl
      refine ⟨fun k => by rw [hhart k], fun k => by rw [hhart k], fun k => by rw [hhart k],
        fun k => ?_, hacc.memory, hacc.focusHart, ?_, ?_, ?_, ?_⟩
      · rw [hacc.halted]
        by_cases hk : k = h
        · rw [hk, hhalted]
          rfl
        · simp [hk]
      · rw [hacc.stopHart, hstop]
        rfl
      all_goals rw [hacc.dbg]
      exact hlast.symm

/-- What the packet that `main` takes in a step accesses. -/
def Session.memoryAccess (e : Event) (s : Session) : Option (AccessKind × List Word) :=
  match receivePacket s.world.stub with
  | .ok (true, stub) => Rv32Gdb.memoryAccess e.fuel { s.signaled e with stub := stub }
  | _ => none

/-- A memory packet is transparent, if and only if the last hit of its accesses is recorded
already. -/
theorem transparent_iff {debugMode : Bool} {n : Nat} {packets : List (List Byte)} {e : Event}
    {s s' : Session} {kind : AccessKind} {addrs : List Word} (hn : validHartCount n)
    (hrun : SessionRun debugMode n packets s) (hwait : s.phase = .waiting)
    (hmem : s.memoryAccess e = some (kind, addrs)) (hstep : sessionStep debugMode e s = .ok s') :
    Transparent (writtenBytes kind addrs) (s.signaled e).toTarget s'.world.toTarget ↔
      ∀ a ∈ lastHit s.world.stub.connected s.world.dbg kind addrs,
        HitRecorded (s.signaled e).toTarget (accessHart (s.signaled e).toTarget kind) a := by
  have hinv := sessionInv_of_sessionRun hn hrun (by simp [hwait])
  have hfail := hinv.consecutiveFailures
  have hpre := Prelude.signaled s e
  unfold Session.memoryAccess at hmem
  rcases step_of_waiting hwait hinv.connected (by omega) hstep with
    ⟨stub, hrecv, -⟩ | ⟨stub, r, hrecv, hret, rfl⟩
  · rw [hrecv] at hmem
    cases hmem
  · rw [hrecv] at hmem
    obtain ⟨hzero, hacc⟩ := accessed_dispatch hmem hret
    have hafter : (afterProcess r).world = r.2 := by
      rcases afterProcess_cases r with ⟨hneg, -⟩ | ⟨hone, -⟩ | ⟨-, -, hafter⟩
      · omega
      · omega
      · rw [hafter]
    have hconn : stub.connected = s.world.stub.connected := (receiveLoop_frame _ _ _ hrecv).connected
    rw [hafter, hacc.transparent_iff_hitRecorded, ← lastHit_congr hpre.runFrame.watchpoints, ← hconn]

/-- One hart, with a read watchpoint set. -/
def readWatchSession (packet : List Byte) : Session :=
  (loadedSession 1 (frame (ascii "Z3,80001000,4") ++ frame packet)).next false .quiet

theorem sessionRun_readWatchSession (packet : List Byte)
    (hok : (sessionStep false .quiet
      (loadedSession 1 (frame (ascii "Z3,80001000,4") ++ frame packet))).isOk) :
    ∃ packets, SessionRun false 1 packets (readWatchSession packet) :=
  ⟨_, (sessionRun_loadedSession false 1 _).step .quiet (sessionStep_next hok)⟩

/-- A write to the bytes whose reads are watched. -/
theorem transparent_readWatchSession :
    Transparent [0x80001000, 0x80001001] (readWatchSession (ascii "M80001000,2:beef")).world.toTarget
      ((readWatchSession (ascii "M80001000,2:beef")).next false .quiet).world.toTarget := by
  obtain ⟨packets, hrun⟩ := sessionRun_readWatchSession (ascii "M80001000,2:beef")
    (by decide +kernel)
  have hmem : (readWatchSession (ascii "M80001000,2:beef")).memoryAccess .quiet =
      some (.store, [0x80001000, 0x80001001]) := by
    decide +kernel
  refine (transparent_iff (by decide) hrun (by decide +kernel) hmem
    (sessionStep_next (by decide +kernel))).mpr ?_
  have hnone : lastHit (readWatchSession (ascii "M80001000,2:beef")).world.stub.connected
      (readWatchSession (ascii "M80001000,2:beef")).world.dbg .store [0x80001000, 0x80001001] =
        none := by
    decide +kernel
  rw [hnone]
  exact nofun

/-- A read of watched bytes halts the hart, which has executed nothing. -/
theorem not_transparent_readWatchSession :
    (∃ packets, SessionRun false 1 packets (readWatchSession (ascii "m80001000,4"))) ∧
      (readWatchSession (ascii "m80001000,4")).phase = .waiting ∧
      (readWatchSession (ascii "m80001000,4")).handled = [ascii "m80001000,4"] ∧
      (sessionStep false .quiet (readWatchSession (ascii "m80001000,4"))).isOk ∧
      ¬Transparent [] (readWatchSession (ascii "m80001000,4")).world.toTarget
        ((readWatchSession (ascii "m80001000,4")).next false .quiet).world.toTarget := by
  refine ⟨sessionRun_readWatchSession _ (by decide +kernel), by decide +kernel, by decide +kernel,
    by decide +kernel, fun htrans => ?_⟩
  have hhalted : ((readWatchSession (ascii "m80001000,4")).world.toTarget.hart 0).halted = false ∧
      (((readWatchSession (ascii "m80001000,4")).next false .quiet).world.toTarget.hart
        0).halted = true := by
    decide +kernel
  rw [htrans.halted 0, hhalted.1] at hhalted
  exact absurd hhalted.2 (by decide)

end Rv32Gdb
