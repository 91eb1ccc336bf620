import Rv32Gdb.Equiv.Decode
import Rv32Gdb.Equiv.Execution
import Rv32Gdb.Equiv.MemoryWrite
import Rv32Gdb.Equiv.Reachable
import Rv32Gdb.Equiv.Registers

/-!
# One memory for all harts and the debugger

`MemRun n m₀ log m`: the writes of the debugger, of the harts and of the job delivery have led from
`m₀` to `m`, and `log` lists the bytes that they wrote; instructions and `M` packets are steps of such
a run (`MemRun.rv32CpuStep`, `MemRun.exchanges_M`).  `MemRun.writes`: every hart below `n` sees in its
RAM the bytes written last.  The main result is `oneMemory`: what the debugger reads with `m` and what
loads read are these bytes, on every hart.
-/

namespace Rv32Gdb

open ByteMemory Rv32i

/-! ### Writes -/

/-- The writes `log` lead from the RAM of `s` to that of `s'`, as the harts below `n` see it. -/
def Writes (n : Nat) (s : Rv32System) (log : List (Word × Byte)) (s' : Rv32System) : Prop :=
  ∀ h < n, ∀ a, InRam a → s'.ram h (ramOffset a) = (lastAt log a).getD (s.ram h (ramOffset a))

/-- The bytes of a value, least significant first. -/
def valueBytes (value : Word) (size : Nat) : List Byte :=
  (List.range size).map fun k => (value >>> (8 * k)).setWidth 8

theorem SystemInv.ram {n : Nat} {s : Rv32System} (hs : SystemInv n s) {h : Nat} (hh : h < n)
    (off : BitVec 16) : s.ram h off = (s.harts 0).memory off := by
  rw [Rv32System.ram, hs.ramOwner hh]

namespace Writes

variable {n : Nat} {s s' s'' : Rv32System} {log log' : List (Word × Byte)}

theorem refl (n : Nat) (s : Rv32System) : Writes n s [] s := fun _ _ _ _ => rfl

theorem trans (h₁ : Writes n s log s') (h₂ : Writes n s' log' s'') :
    Writes n s (log ++ log') s'' := by
  intro h hh a ha
  rw [h₂ h hh a ha, h₁ h hh a ha, lastAt_append]
  cases lastAt log' a <;> rfl

/-- What does not concern the memory of hart `0` writes nothing. -/
theorem of_memory (hs : SystemInv n s) (hs' : SystemInv n s')
    (hmem : (s'.harts 0).memory = (s.harts 0).memory) : Writes n s [] s' := by
  intro h hh a _
  rw [hs'.ram hh, hs.ram hh, hmem]
  rfl

/-- A store inside the RAM. -/
theorem ramStore (hs : SystemInv n s) {h : Nat} (hh : h < n) {addr : Word} {size : Nat}
    (hsize : AccessSize size) (hin : inRam addr size) (value : Word) :
    Writes n s (placed addr (valueBytes value size)) (s.ramStore h (ramOffset addr) value size) := by
  intro k hk a ha
  obtain ⟨hdiff, hsame⟩ := toNat_ramOffset_sub hsize hin ha
  have hlen : (valueBytes value size).length ≤ 2 ^ 32 := by
    rw [valueBytes, List.length_map, List.length_range]
    unfold AccessSize at hsize
    omega
  rw [Rv32System.ram_ramStore s h _ value hsize, hs.ramOwner hk, hs.ramOwner hh, lastAt_placed _ _ hlen,
    valueBytes, List.getElem?_map]
  by_cases hlt : (a - addr).toNat < size
  · rw [if_pos ⟨rfl, hdiff.mpr hlt⟩, hsame hlt, List.getElem?_range hlt]
    rfl
  · rw [if_neg fun hand => hlt (hdiff.mp hand.2), List.getElem?_eq_none (by simpa using hlt)]
    rfl

theorem checkAccess (m : Machine) (kind : AccessKind) (connected : Bool) (h : Nat) (addr : Word)
    (size : Nat) : Writes n m.sys [] (checkAccess kind connected m h addr size).sys := by
  intro k hk a _
  rw [ram_checkAccess]
  rfl

/-- The CPU's stores: inside the RAM they write, anywhere else they do not. -/
theorem rv32CpuWriteMem {m : Machine} (hs : SystemInv n m.sys) (connected : Bool) {h : Nat}
    (hh : h < n) (addr value : Word) {size : Nat} (hsize : AccessSize size) :
    Writes n m.sys (if inRam addr size then placed addr (valueBytes value size) else [])
      (rv32CpuWriteMem connected m h addr value size).sys := by
  have hcheck := checkAccess (n := n) m .store connected h addr size
  unfold Rv32Gdb.rv32CpuWriteMem
  simp only
  split_ifs with hin
  · exact hcheck.trans (ramStore (hs.checkAccess connected .store hh addr size) hh hsize hin value)
  · exact hcheck

/-- A byte that is not in RAM does not count. -/
theorem of_not_inRam (h : Writes n s [] s') {addr : Word} (haddr : ¬InRam addr) (b : Byte) :
    Writes n s [(addr, b)] s' := by
  intro k hk a ha
  have hne : addr ≠ a := by
    rintro rfl
    exact haddr ha
  rw [h k hk a ha, lastAt_singleton, if_neg hne]
  rfl

/-- A byte that the debugger writes. -/
theorem sysWriteMem {m : Machine} (hs : SystemInv n m.sys) (connected : Bool) {src : Nat}
    (hsrc : src < n) (addr : Word) (b : Byte) :
    Writes n m.sys [(addr, b)] (sysWriteMem connected m src addr (b.setWidth 32) 1).sys := by
  have hsize : AccessSize 1 := Or.inl rfl
  have hbyte : placed addr (valueBytes (b.setWidth 32) 1) = [(addr, b)] := by
    simp [placed, valueBytes]
  have hpos : 0 < n := Nat.zero_lt_of_lt hsrc
  unfold Rv32Gdb.sysWriteMem smpSyncHandleMmio
  rw [if_pos (Or.inr (by decide))]
  simp only
  split_ifs with hwindow
  · -- the sync window is part of the RAM of hart 0
    have hin : inRam addr 1 ∧ inSyncRegion addr 1 := by
      obtain ⟨hge, hlt⟩ := hwindow
      rw [inRam_iff hsize]
      unfold smpSyncBase at hge hlt
      rw [BitVec.le_def] at hge
      rw [BitVec.lt_def] at hlt
      unfold inSyncRegion smpSyncBase
      simp [BitVec.lt_def] at hge hlt ⊢
      omega
    show Writes n m.sys [(addr, b)] (smpSyncWriteRam m.sys addr (b.setWidth 32) 1)
    rw [smpSyncWriteRam, if_pos hin.2, ← hbyte]
    exact ramStore hs hpos hsize hin.1 _
  · have hwrite := rv32CpuWriteMem hs connected hsrc addr (b.setWidth 32) hsize
    by_cases hin : inRam addr 1
    · rwa [if_pos hin, hbyte] at hwrite
    · rw [if_neg hin] at hwrite
      refine hwrite.of_not_inRam (fun haddr => hin ?_) b
      rw [inRam_iff hsize]
      rw [inRamAddr_iff] at haddr
      omega

end Writes

/-! ### Sequences of writes -/

/-- The bytes that a store instruction writes: none, unless all are in RAM. -/
def storeWrites (m : Machine) (h : Nat) (i : Word) : List (Word × Byte) :=
  match storeSize (funct3Field i) with
  | none => []
  | some size =>
    let addr := rv32CpuReadReg (m.hart h) (rs1Field i) + signExtend (immS i) 12
    if inRam addr size then
      placed addr (valueBytes (rv32CpuReadReg (m.hart h) (rs2Field i)) size)
    else []

/-- A sync word. -/
def InSync (addr : Word) : Prop := smpSyncBase ≤ addr ∧ addr ≤ smpSyncBase + 0x3c

/-- Machines that a sequence of writes leads to from `m₀`, with anything else in between that does
not concern the RAM of hart `0`; the log lists the bytes that are written. -/
inductive MemRun (n : Nat) (m₀ : Machine) : List (Word × Byte) → Machine → Prop
  | refl : MemRun n m₀ [] m₀
  | debugger {log : List (Word × Byte)} {m : Machine} (connected : Bool) (addr : Word)
      (d : List Byte) (hrun : MemRun n m₀ log m) :
      MemRun n m₀ (log ++ placed addr d) (writeBytes emuCallbacks connected addr 0 d m)
  | store {log : List (Word × Byte)} {m : Machine} (connected : Bool) {h : Nat} (hh : h < n)
      (i : Word) (hrun : MemRun n m₀ log m) :
      MemRun n m₀ (log ++ storeWrites m h i) (execStore connected m h i)
  | sync {log : List (Word × Byte)} {m : Machine} {addr : Word} (haddr : InSync addr)
      (value : Word) (hrun : MemRun n m₀ log m) :
      MemRun n m₀ (log ++ placed addr (valueBytes value 4)) (m.updSys fun s => ramWrite32 s addr value)
  | other {log : List (Word × Byte)} {m m' : Machine} (hs : SystemInv n m'.sys)
      (hmem : (m'.hart 0).memory = (m.hart 0).memory) (hrun : MemRun n m₀ log m) :
      MemRun n m₀ log m'

/-- A string that the debugger writes. -/
theorem writes_writeBytes {n : Nat} {m : Machine} (hs : SystemInv n m.sys) (connected : Bool)
    (addr : Word) (i : Nat) (d : List Byte) :
    SystemInv n (writeBytes emuCallbacks connected addr i d m).sys ∧
      Writes n m.sys (d.mapIdx fun k b => (addr + BitVec.ofNat 32 (i + k), b))
        (writeBytes emuCallbacks connected addr i d m).sys := by
  induction d generalizing i m with
  | nil => exact ⟨hs, Writes.refl _ _⟩
  | cons b d ih =>
    have hbyte := Writes.sysWriteMem hs connected hs.focusHart_lt (addr + BitVec.ofNat 32 i) b
    have hs' := hs.sysWriteMem connected hs.focusHart_lt (addr + BitVec.ofNat 32 i)
      (b.setWidth 32) 1
    obtain ⟨hinv, hrest⟩ := ih (m := sysWriteMem connected m m.sim.sys.focusHart
      (addr + BitVec.ofNat 32 i) (b.setWidth 32) 1) hs' (i + 1)
    refine ⟨hinv, ?_⟩
    have hlog : (b :: d).mapIdx (fun k b => (addr + BitVec.ofNat 32 (i + k), b)) =
        [(addr + BitVec.ofNat 32 i, b)] ++
          d.mapIdx fun k b => (addr + BitVec.ofNat 32 (i + 1 + k), b) := by
      rw [List.mapIdx_cons, List.singleton_append, Nat.add_zero]
      congr 2
      funext k b
      rw [Nat.add_assoc, Nat.add_comm 1 k]
    rw [hlog]
    exact hbyte.trans hrest

/-- A store instruction. -/
theorem writes_execStore {n : Nat} {m : Machine} (hs : SystemInv n m.sys) (connected : Bool)
    {h : Nat} (hh : h < n) (i : Word) :
    Writes n m.sys (storeWrites m h i) (execStore connected m h i).sys := by
  unfold storeWrites execStore
  simp only
  cases hsize : storeSize (funct3Field i) with
  | none => exact Writes.refl _ _
  | some size =>
    have haccess : AccessSize size := by
      unfold storeSize at hsize
      unfold AccessSize
      split_ifs at hsize <;> simp_all
    exact Writes.rv32CpuWriteMem (m := m.log _) hs connected hh _ _ haccess

/-- A sync word that is written. -/
theorem writes_ramWrite32 {n : Nat} {s : Rv32System} (hs : SystemInv n s) {addr : Word}
    (haddr : InSync addr) (value : Word) :
    Writes n s (placed addr (valueBytes value 4)) (ramWrite32 s addr value) := by
  have hsize : AccessSize 4 := Or.inr (Or.inr rfl)
  have hin : inRam32 addr ∧ inRam addr 4 := by
    obtain ⟨hge, hle⟩ := haddr
    rw [inRam_iff hsize]
    unfold smpSyncBase at hge hle
    rw [BitVec.le_def] at hge hle
    unfold inRam32 ramBase ramSize
    simp [BitVec.lt_def] at hge hle ⊢
    omega
  rw [ramWrite32, if_pos hin.1]
  exact Writes.ramStore hs (Nat.zero_lt_of_lt hs.focusHart_lt) hsize hin.2 value

/-- After a sequence of writes, every hart sees the bytes written last. -/
theorem MemRun.writes {n : Nat} {m₀ m : Machine} {log : List (Word × Byte)}
    (hs₀ : SystemInv n m₀.sys) (hrun : MemRun n m₀ log m) :
    SystemInv n m.sys ∧ Writes n m₀.sys log m.sys := by
  induction hrun with
  | refl => exact ⟨hs₀, Writes.refl _ _⟩
  | debugger connected addr d _ ih =>
    obtain ⟨hs, hwrites⟩ := writes_writeBytes ih.1 connected addr 0 d
    simp only [Nat.zero_add] at hwrites
    exact ⟨hs, ih.2.trans hwrites⟩
  | store connected hh i _ ih =>
    exact ⟨ih.1.execStore connected hh i, ih.2.trans (writes_execStore ih.1 connected hh i)⟩
  | sync haddr value _ ih =>
    exact ⟨ih.1.ramWrite32 _ _, ih.2.trans (writes_ramWrite32 ih.1 haddr value)⟩
  | other hs hmem _ ih =>
    refine ⟨hs, ?_⟩
    have hsame := ih.2.trans (Writes.of_memory ih.1 hs hmem)
    rwa [List.append_nil] at hsame

/-- The bytes that the next instruction of a hart writes. -/
def instrWrites (m : Machine) (h : Nat) : List (Word × Byte) :=
  if fetched m h &&& 0x7F = 0x23 then storeWrites m h (fetched m h) else []

/-- An instruction is a step: a store writes its bytes, and the others write none. -/
theorem MemRun.rv32CpuStep {n : Nat} {m₀ m : Machine} {log : List (Word × Byte)}
    (hs₀ : SystemInv n m₀.sys) (hrun : MemRun n m₀ log m) (connected : Bool) {h : Nat} (hh : h < n)
    (hrunning : (m.hart h).running) :
    MemRun n m₀ (log ++ instrWrites m h) (rv32CpuStep connected m h) := by
  obtain ⟨b, hhart⟩ := hart_afterFetch connected m h
  have hs : SystemInv n (afterFetch connected m h).sys :=
    (SystemInv.checkAccess (m := m.log _) connected (hrun.writes hs₀).1 .load hh
      (m.hart h).pc 4).updHart h fun _ hc => hc.advance
  have hfetch : MemRun n m₀ log (afterFetch connected m h) := by
    refine .other hs ?_ hrun
    rw [hhart]
    split_ifs with hk
    · rw [hk]
      rfl
    · rfl
  rw [rv32CpuStep_of_running connected hrunning, instrWrites]
  by_cases hstore : fetched m h &&& 0x7F = 0x23
  · rw [if_pos hstore, if_neg (by rw [hstore]; decide), if_pos hstore]
    have hread : rv32CpuReadReg ((afterFetch connected m h).hart h) =
        rv32CpuReadReg (m.hart h) := by
      rw [hhart, if_pos rfl]
      rfl
    have hwrites : storeWrites (afterFetch connected m h) h (fetched m h) =
        storeWrites m h (fetched m h) := by
      unfold storeWrites
      rw [hread]
    rw [← hwrites]
    exact .store connected hh _ hfetch
  rw [if_neg hstore, if_neg hstore, List.append_nil]
  split_ifs with hload
  · obtain ⟨b', value, hhart'⟩ := hart_execLoad connected (afterFetch connected m h) h (fetched m h)
    refine .other (hs.execLoad connected hh _) ?_ hfetch
    rw [hhart']
    split_ifs with hk
    · rw [hk]
      exact (sameCore_writeReg _ _ _).memory
    · rfl
  · refine .other (hs.updHart h fun _ hc => hc.execHart _ _) ?_ hfetch
    rw [Target.hart_updHart]
    split_ifs with hk
    · rw [hk]
      exact (sameCore_execHart _ _ _).memory
    · rfl

/-! ### Reading with `m` -/

theorem ram_sysReadMem (c : Bool) (m : Machine) (a : Word) (size h : Nat) (off : BitVec 16) :
    (sysReadMem c m a size).2.sys.ram h off = m.sys.ram h off := by
  unfold sysReadMem
  split_ifs
  · rfl
  · rfl
  · exact ram_checkAccess _ _ _ _ _ _ _ _

/-- At the addresses of the RAM this is the byte in the RAM of hart `0`. -/
theorem debugByte_of_inRam (m : Machine) {a : Word} (ha : InRam a) :
    debugByte true m a = m.sys.ram 0 (ramOffset a) := by
  have hsize : AccessSize 1 := Or.inl rfl
  have hin : inRam a 1 := by
    rw [inRam_iff hsize]
    rw [inRamAddr_iff] at ha
    omega
  have hbyte : (m.sys.ramLoad 0 (ramOffset a) 1).setWidth 8 = m.sys.ram 0 (ramOffset a) := by
    rw [Rv32System.ramLoad]
    exact BitVec.setWidth_setWidth_of_le _ (by decide)
  unfold debugByte sysReadMem
  split_ifs with hwindow hmmio
  · have hsync : inSyncRegion a 1 := by
      obtain ⟨hge, hlt⟩ := hwindow
      unfold smpSyncBase at hge hlt
      rw [BitVec.le_def] at hge
      rw [BitVec.lt_def] at hlt
      unfold inSyncRegion smpSyncBase
      simp [BitVec.lt_def] at hge hlt ⊢
      omega
    show (smpSyncReadRam m.sys a 1).setWidth 8 = _
    rw [smpSyncReadRam, if_pos hsync, hbyte]
  · rw [hmmio] at ha
    exact absurd ha (by decide)
  · rw [fst_rv32CpuReadMem, if_pos hin, hbyte]

/-- The text that a read of `n` bytes from `a` on is answered with. -/
def memoryText (m : Machine) (a : Word) (n : Nat) : List Byte :=
  ((List.range n).map fun k => debugByte true m (a + BitVec.ofNat 32 k)).flatMap hexByte

/-- The loop of `handle_read_memory` formats the bytes, and leaves the RAM as it is. -/
theorem readMemoryLoop_emuCallbacks (addr : Word) (n i : Nat) (w : EmuWorld)
    (p : CharArray gdbBufferSize) (hroom : p.data.length + 2 * n ≤ gdbBufferSize) :
    ∃ t p', readMemoryLoop emuCallbacks addr n i w p = .ok (w.withTarget t, p') ∧
      p'.data = p.data ++ ((List.range' i n).map fun k =>
        debugByte true w.toTarget (addr + BitVec.ofNat 32 k)).flatMap hexByte ∧
      ∀ off, t.sys.ram 0 off = w.toTarget.sys.ram 0 off := by
  induction n generalizing i w p with
  | zero => exact ⟨w.toTarget, p, rfl, by simp, fun _ => rfl⟩
  | succ n ih =>
    set r := sysReadMem w.stub.connected w.toTarget (addr + BitVec.ofNat 32 i) 1 with hr
    have hram : ∀ off, r.2.sys.ram 0 off = w.toTarget.sys.ram 0 off := ram_sysReadMem _ _ _ _ _
    have hbyte : r.1.setWidth 8 = debugByte true w.toTarget (addr + BitVec.ofNat 32 i) :=
      congrArg (BitVec.setWidth 8) (fst_sysReadMem_congr (fun _ => rfl) true w.stub.connected _ _)
    obtain ⟨p₁, hpush, hdata⟩ := p.pushAll_of_le (hexByte (r.1.setWidth 8)) (by
      rw [length_hexByte]
      omega)
    have hlen : p₁.data.length = p.data.length + 2 := by
      rw [hdata, List.length_append, length_hexByte]
    obtain ⟨t, p', hloop, hdata', hram'⟩ := ih (i + 1) (w.withTarget r.2) p₁ (by omega)
    refine ⟨t, p', ?_, ?_, fun off => (hram' off).trans (hram off)⟩
    · rw [readMemoryLoop]
      show (p.pushAll (hexByte (r.1.setWidth 8)) >>= fun p =>
        readMemoryLoop emuCallbacks addr n (i + 1) (w.withTarget r.2) p) = _
      rw [hpush]
      exact hloop
    · have hrest : ∀ a, debugByte true r.2 a = debugByte true w.toTarget a := fun a =>
        congrArg (BitVec.setWidth 8) (fst_sysReadMem_congr hram true true a 1)
      rw [hdata', hdata, hbyte, List.range'_succ, List.map_cons, List.flatMap_cons,
        List.append_assoc]
      simp only [World.toTarget_withTarget, hrest]

/-- `m` with the texts of address and length. -/
def readPacket (addr len : List Byte) : List Byte := chr 'm' :: addr ++ chr ',' :: len

/-- An `m` packet whose reply fits. -/
theorem exchanges_m (fuel : Nat) {w : EmuWorld} (hw : Ready w.stub) {addr len : List Byte}
    (haddr : ∀ c ∈ addr, isxdigit c) (hlen : ∀ c ∈ len, isxdigit c)
    (hbound : (readPacket addr len).length < gdbBufferSize) (hn : hexValue len ≤ 2045) :
    ∃ w', Exchanges fuel emuCallbacks w (readPacket addr len)
        (memoryText w.toTarget (BitVec.ofNat 32 (hexValue addr)) (hexValue len)) w' ∧
      Ready w'.stub ∧ ∀ off, w'.toTarget.sys.ram 0 off = w.toTarget.sys.ram 0 off := by
  -- hex digits and the comma neither end the frame nor the text
  have hhash : chr '#' ∉ readPacket addr len := by
    have hcmd : chr '#' ≠ chr 'm' := by decide
    have hsep : chr '#' ≠ chr ',' := by decide
    have ha : chr '#' ∉ addr := fun hm => (ne_of_isxdigit (haddr _ hm)).2.2.1 rfl
    have hl : chr '#' ∉ len := fun hm => (ne_of_isxdigit (hlen _ hm)).2.2.1 rfl
    simp [readPacket, hcmd, hsep, ha, hl]
  have hcomma : chr ',' ∉ addr := fun hm => (ne_of_isxdigit (haddr _ hm)).1 rfl
  have hnul : 0#8 ∉ addr ++ chr ',' :: len := by
    have hsep : 0#8 ≠ chr ',' := by decide
    have ha : 0#8 ∉ addr := fun hm => (ne_of_isxdigit (haddr _ hm)).2.2.2 rfl
    have hl : 0#8 ∉ len := fun hm => (ne_of_isxdigit (hlen _ hm)).2.2.2 rfl
    simp [hsep, ha, hl]
  have hreply : (memoryText w.toTarget (BitVec.ofNat 32 (hexValue addr)) (hexValue len)).length =
      2 * hexValue len := by
    rw [memoryText, length_flatMap_hexByte, List.length_map, List.length_range]
  refine exchanges_of_dispatch (fun t => ∀ off, t.sys.ram 0 off = w.toTarget.sys.ram 0 off) hw hhash
    hbound (by omega) fun s hs => ?_
  have hstr : cstr s.packetBuffer 1 = addr ++ chr ',' :: len := by
    have htail : HasBytes s.packetBuffer 1 ((addr ++ chr ',' :: len) ++ [0#8]) := hs.tail
    exact cstr_of_hasBytes htail hnul
  obtain ⟨comma, hfind, hpos, hcut, hrest⟩ := strchr_cut (by decide) hstr hcomma
  set buf := setByte s.packetBuffer comma 0 with hbuf
  have ha : parseHex .x32 addr (comma - 1) = BitVec.ofNat 32 (hexValue addr) := by
    rw [parseHex_eq, List.take_of_length_le (by omega)]
  have hl : (parseHex .x32 len len.length).toNat = hexValue len := by
    rw [parseHex_eq, List.take_length, BitVec.toNat_ofNat]
    exact Nat.mod_eq_of_lt (lt_of_le_of_lt hn (by decide))
  -- two digits for each byte fit the reply
  obtain ⟨t, p, hloop, hdata, hram⟩ := readMemoryLoop_emuCallbacks
    (BitVec.ofNat 32 (hexValue addr)) (hexValue len) 0
    (({ w with stub := s } : EmuWorld).setBuffer buf) (CharArray.empty gdbBufferSize) (by
      show 0 + 2 * hexValue len ≤ 4096
      omega)
  have hdata' : p.data =
      memoryText w.toTarget (BitVec.ofNat 32 (hexValue addr)) (hexValue len) := by
    rw [hdata, ← List.range_eq_range']
    rfl
  refine ⟨buf, t, ?_, hram⟩
  have hhandle : handleReadMemory emuCallbacks { w with stub := s } =
      .ok (((({ w with stub := s } : EmuWorld).setBuffer buf).withTarget t).send p.data) := by
    unfold handleReadMemory
    simp only [hfind]
    rw [← hbuf, hcut, hrest 0, ha, hl, if_neg (by unfold gdbBufferSize; omega), hloop]
    show (p.terminate >>= fun response => Except.ok (World.send _ response)) = _
    rw [p.terminate_of_lt (by rw [hdata', hreply, gdbBufferSize]; omega)]
    rfl
  rw [dispatch_m fuel emuCallbacks hs.head, hhandle, hdata']
  rfl

/-! ### Writing with `M` -/

/-- After a packet that is handled, the stub is ready for the next one. -/
theorem ready_of_gdbStubProcess {x : Xlen} {σ : Type} {fuel : Nat} {cb : GdbCallbacks x σ}
    {w w' : World x σ} {p : List Byte} (hw : Ready w.stub) (hp : chr '#' ∉ p)
    (hlen : p.length < gdbBufferSize)
    (hret : gdbStubProcess fuel cb (w.withInput (frame p)) = .ok (0, w')) : Ready w'.stub := by
  have hready : StubInvariant fun s => s.connected ∧ s.consecutiveFailures < 50 := by
    refine ⟨fun s data h => ?_, fun s buf h => h, fun s h => h⟩
    unfold sendPacket
    split_ifs <;> exact h
  obtain ⟨s, hrecv, hproc⟩ := gdbStubProcess_framed (w := w.withInput (frame p)) fuel cb
    hw.connected hw.consecutiveFailures (framed_frame_nil hp) hlen
  have hs : s.connected ∧ s.consecutiveFailures < 50 := by
    rw [hrecv.eq]
    exact ⟨hw.connected, show 0 < 50 by decide⟩
  rw [hproc] at hret
  have h := hready.dispatch fuel cb (w := { w with stub := s }) hs 0 w' hret le_rfl
  exact ⟨h.1, h.2⟩

/-- An `M` packet with two digits for every byte. -/
theorem exchanges_M (fuel : Nat) {w : EmuWorld} (hw : Ready w.stub) {addr len payload : List Byte}
    (haddr : ∀ c ∈ addr, isxdigit c) (hlen : ∀ c ∈ len, isxdigit c)
    (hpayload : ∀ c ∈ payload, isxdigit c) (hn : payload.length = 2 * hexValue len)
    (hbound : (writePacket 'M' addr len payload).length < gdbBufferSize) :
    ∃ w', Exchanges fuel emuCallbacks w (writePacket 'M' addr len payload) (ascii "OK") w' ∧
      Ready w'.stub ∧ w'.toTarget = writeBytes emuCallbacks true (BitVec.ofNat 32 (hexValue addr)) 0
        (hexPairs payload) w.toTarget := by
  have hhash : chr '#' ∉ writePacket 'M' addr len payload := by
    have hcmd : chr '#' ≠ chr 'M' := by decide
    have hcomma : chr '#' ≠ chr ',' := by decide
    have hcolon : chr '#' ≠ chr ':' := by decide
    have ha : chr '#' ∉ addr := fun hm => (ne_of_isxdigit (haddr _ hm)).2.2.1 rfl
    have hl : chr '#' ∉ len := fun hm => (ne_of_isxdigit (hlen _ hm)).2.2.1 rfl
    have hd : chr '#' ∉ payload := fun hm => (ne_of_isxdigit (hpayload _ hm)).2.2.1 rfl
    simp [writePacket, hcmd, hcomma, hcolon, ha, hl, hd]
  obtain ⟨w', hret, htarget, -, hout⟩ := writesExactly_writeMemory fuel emuCallbacks
    (w := w.withInput (frame (writePacket 'M' addr len payload))) hw.connected
    hw.consecutiveFailures haddr hlen hbound (framed_frame_nil hhash) hn
  exact ⟨w', ⟨hret, hout⟩, ready_of_gdbStubProcess hw hhash hbound hret, htarget⟩

/-- An `M` packet is a step. -/
theorem MemRun.exchanges_M {n : Nat} {m₀ : Machine} {log : List (Word × Byte)} (fuel : Nat)
    {w : EmuWorld} (addr len payload : List Byte) (hrun : MemRun n m₀ log w.toTarget)
    (hw : Ready w.stub) (haddr : ∀ c ∈ addr, isxdigit c) (hlen : ∀ c ∈ len, isxdigit c)
    (hpayload : ∀ c ∈ payload, isxdigit c) (hn : payload.length = 2 * hexValue len)
    (hbound : (writePacket 'M' addr len payload).length < gdbBufferSize) :
    ∃ w', Exchanges fuel emuCallbacks w (writePacket 'M' addr len payload) (ascii "OK") w' ∧
      Ready w'.stub ∧ w'.toTarget = writeBytes emuCallbacks true (BitVec.ofNat 32 (hexValue addr)) 0
        (hexPairs payload) w.toTarget ∧
      MemRun n m₀ (log ++ placed (BitVec.ofNat 32 (hexValue addr)) (hexPairs payload))
        w'.toTarget := by
  obtain ⟨w', hexchange, hready, htarget⟩ :=
    Rv32Gdb.exchanges_M fuel hw haddr hlen hpayload hn hbound
  exact ⟨w', hexchange, hready, htarget, htarget ▸ .debugger true _ _ hrun⟩

/-! ### One memory -/

/-- The contents of the RAM, byte for byte, as the debugger and the harts see them. -/
structure OneMemory (n : Nat) (byte : Word → Byte) (m : Machine) : Prop where
  /-- The bytes of the reply to an `m` packet. -/
  reads : ∀ fuel (w : EmuWorld) addr len, w.toTarget = m → Ready w.stub →
    (∀ c ∈ addr, isxdigit c) → (∀ c ∈ len, isxdigit c) →
    (readPacket addr len).length < gdbBufferSize → hexValue len ≤ 2045 →
    ∃ (d : List Byte) (w' : EmuWorld),
      Exchanges fuel emuCallbacks w (readPacket addr len) (d.flatMap hexByte) w' ∧
      d.length = hexValue len ∧ ∀ k < d.length,
        let a := BitVec.ofNat 32 (hexValue addr) + BitVec.ofNat 32 k
        InRam a → d[k]? = some (byte a)
  /-- The bytes of a load inside the RAM; `LBU` adds nothing to them. -/
  loads : ∀ connected, ∀ h < n, ∀ op rd rs1 imm, (m.hart h).running →
    (archState m h).fetch = some (Instr.load op rd rs1 imm).encode → rd ≠ 0 →
    let a := (archState m h).reg rs1 + imm.signExtend 32
    let v := (archState (rv32CpuStep connected m h) h).reg rd
    (∀ k < op.size, InRam (a + BitVec.ofNat 32 k)) →
      (∀ k < op.size, (v >>> (8 * k)).setWidth 8 = byte (a + BitVec.ofNat 32 k)) ∧
      (op = .lbu → v = (byte a).setWidth 32)
  /-- What an `M` packet writes to the RAM is what an `m` packet reads. -/
  roundTrip : ∀ fuel (w : EmuWorld) addr len payload, w.toTarget = m → Ready w.stub →
    (∀ c ∈ addr, isxdigit c) → (∀ c ∈ len, isxdigit c) → (∀ c ∈ payload, isxdigit c) →
    payload.length = 2 * hexValue len →
    (writePacket 'M' addr len payload).length < gdbBufferSize →
    (∀ k < hexValue len, InRam (BitVec.ofNat 32 (hexValue addr) + BitVec.ofNat 32 k)) →
    ∃ w₁ w₂, Exchanges fuel emuCallbacks w (writePacket 'M' addr len payload) (ascii "OK") w₁ ∧
      Exchanges fuel emuCallbacks w₁ (readPacket addr len) ((hexPairs payload).flatMap hexByte) w₂

section OneMemory

variable {n : Nat} {byte : Word → Byte} {m : Machine}

/-- An `m` packet. -/
theorem exchanges_m_of_ram (hram : ∀ a, InRam a → m.sys.ram 0 (ramOffset a) = byte a) (fuel : Nat)
    {w : EmuWorld} {addr len : List Byte} (htarget : w.toTarget = m) (hw : Ready w.stub)
    (haddr : ∀ c ∈ addr, isxdigit c) (hlen : ∀ c ∈ len, isxdigit c)
    (hbound : (readPacket addr len).length < gdbBufferSize) (hn : hexValue len ≤ 2045) :
    ∃ (d : List Byte) (w' : EmuWorld),
      Exchanges fuel emuCallbacks w (readPacket addr len) (d.flatMap hexByte) w' ∧
      d.length = hexValue len ∧ ∀ k < d.length,
        let a := BitVec.ofNat 32 (hexValue addr) + BitVec.ofNat 32 k
        InRam a → d[k]? = some (byte a) := by
  obtain ⟨w', hexchange, -, -⟩ := exchanges_m fuel hw haddr hlen hbound hn
  refine ⟨_, w', hexchange, by rw [List.length_map, List.length_range], ?_⟩
  intro k hk a ha
  rw [List.length_map, List.length_range] at hk
  rw [List.getElem?_map, List.getElem?_range hk, Option.map_some, htarget, debugByte_of_inRam m ha,
    hram a ha]

/-- A load instruction. -/
theorem load_of_ram (hram : ∀ h < n, ∀ a, InRam a → m.sys.ram h (ramOffset a) = byte a)
    (connected : Bool) {h : Nat} (hh : h < n) {op : LoadOp} {rd rs1 : Reg} {imm : BitVec 12}
    (hrun : (m.hart h).running)
    (hfetch : (archState m h).fetch = some (Instr.load op rd rs1 imm).encode) (hrd : rd ≠ 0) :
    let a := (archState m h).reg rs1 + imm.signExtend 32
    let v := (archState (rv32CpuStep connected m h) h).reg rd
    (∀ k < op.size, InRam (a + BitVec.ofNat 32 k)) →
      (∀ k < op.size, (v >>> (8 * k)).setWidth 8 = byte (a + BitVec.ofNat 32 k)) ∧
      (op = .lbu → v = (byte a).setWidth 32) := by
  intro a v hin
  have hmem : ∀ k < op.size, (archState m h).mem (a + BitVec.ofNat 32 k) =
      some (byte (a + BitVec.ofNat 32 k)) := by
    intro k hk
    show ramAt m.sys h _ = _
    rw [ramAt, if_pos (hin k hk), hram h hh _ (hin k hk)]
  have hmapped : (archState m h).Mapped a op.size := fun k hk => by rw [hmem k hk]; rfl
  have hv : v = op.extend ((archState m h).bytesAt a op.size) := by
    have hstep : archState (rv32CpuStep connected m h) h =
        (Instr.load op rd rs1 imm).exec (archState m h) := (rv32CpuStep_encode hrun hfetch).1
    have hreg : v = ((Instr.load op rd rs1 imm).exec (archState m h)).reg rd :=
      congrArg (fun s => s.reg rd) hstep
    rw [hreg]
    show (if rd = rd ∧ rd ≠ 0 then op.extend ((archState m h).load a op.size) else _) = _
    rw [if_pos ⟨rfl, hrd⟩, State.load, if_pos hmapped]
  have hbytes : ∀ k < op.size, (v >>> (8 * k)).setWidth 8 = byte (a + BitVec.ofNat 32 k) := by
    intro k hk
    rw [hv, op.setWidth_extend _ hk, State.setWidth_bytesAt _ op.size_le hk, hmem k hk]
    rfl
  refine ⟨hbytes, ?_⟩
  rintro rfl
  -- `lbu` fills the register with zeros above the byte
  have hlow : v = (v.setWidth 8).setWidth 32 := by
    rw [hv]
    simp [LoadOp.extend]
  have hbyte := hbytes 0 (by decide)
  have haddr : a + BitVec.ofNat 32 0 = a := BitVec.add_zero a
  have hshift : v >>> (8 * 0) = v := BitVec.ushiftRight_zero v
  rw [haddr, hshift] at hbyte
  rw [hlow, hbyte]

/-- `M`, then `m`. -/
theorem roundTrip_of_systemInv (hs : SystemInv n m.sys) (fuel : Nat) {w : EmuWorld}
    {addr len payload : List Byte} (htarget : w.toTarget = m) (hw : Ready w.stub)
    (haddr : ∀ c ∈ addr, isxdigit c) (hlen : ∀ c ∈ len, isxdigit c)
    (hpayload : ∀ c ∈ payload, isxdigit c) (hn : payload.length = 2 * hexValue len)
    (hbound : (writePacket 'M' addr len payload).length < gdbBufferSize)
    (hin : ∀ k < hexValue len, InRam (BitVec.ofNat 32 (hexValue addr) + BitVec.ofNat 32 k)) :
    ∃ w₁ w₂, Exchanges fuel emuCallbacks w (writePacket 'M' addr len payload) (ascii "OK") w₁ ∧
      Exchanges fuel emuCallbacks w₁ (readPacket addr len) ((hexPairs payload).flatMap hexByte)
        w₂ := by
  have hpos : 0 < n := Nat.zero_lt_of_lt hs.focusHart_lt
  have hsize : addr.length + len.length + payload.length + 3 < gdbBufferSize := by
    simp only [writePacket, List.length_cons, List.length_append] at hbound
    omega
  have hsmall : hexValue len ≤ 2045 := by
    by_contra hlarge
    -- such a packet has no room for a length
    have hempty : len = [] := List.length_eq_zero_iff.mp (by unfold gdbBufferSize at hsize; omega)
    rw [hempty] at hlarge
    exact hlarge (by decide)
  obtain ⟨w₁, hM, hw₁, htarget₁⟩ := exchanges_M fuel hw haddr hlen hpayload hn hbound
  have hread : (readPacket addr len).length < gdbBufferSize := by
    simp only [readPacket, List.length_cons, List.length_append]
    omega
  obtain ⟨w₂, hm, -, -⟩ := exchanges_m fuel hw₁ haddr hlen hread hsmall
  refine ⟨w₁, w₂, hM, ?_⟩
  have hdata : (hexPairs payload).length = hexValue len := length_hexPairs hn
  set addr₀ : Word := BitVec.ofNat 32 (hexValue addr)
  have hbytes : (List.range (hexValue len)).map
      (fun k => debugByte true w₁.toTarget (addr₀ + BitVec.ofNat 32 k)) = hexPairs payload := by
    refine List.ext_getElem? fun k => ?_
    by_cases hk : k < hexValue len
    · have hwrites := (writes_writeBytes hs true addr₀ 0 (hexPairs payload)).2 0 hpos _ (hin k hk)
      have hlast := lastAt_placed addr₀ (addr₀ + BitVec.ofNat 32 k) (l := hexPairs payload)
        (by rw [hdata]; omega)
      have hsub : (addr₀ + BitVec.ofNat 32 k - addr₀).toNat = k := by
        rw [add_sub_cancel_left, BitVec.toNat_ofNat]
        omega
      rw [hsub] at hlast
      simp only [Nat.zero_add] at hwrites
      have hplaced : (hexPairs payload).mapIdx
          (fun k b => (addr₀ + BitVec.ofNat 32 k, b)) = placed addr₀ (hexPairs payload) := rfl
      rw [hplaced, hlast] at hwrites
      rw [List.getElem?_map, List.getElem?_range hk, Option.map_some, debugByte_of_inRam _ (hin k hk),
        htarget₁, htarget, hwrites, List.getElem?_eq_getElem (by omega)]
      rfl
    · rw [List.getElem?_eq_none (by simpa using hk), List.getElem?_eq_none (by omega)]
  rw [memoryText, hbytes] at hm
  exact hm

end OneMemory

/-- The byte that a sequence of writes has left at an address of the RAM. -/
def writtenByte (image : BitVec 16 → Byte) (log : List (Word × Byte)) (a : Word) : Byte :=
  (lastAt log a).getD (image (ramOffset a))

/-- Debugger and harts see one memory: at every address the byte written last, and before that the
image that was loaded. -/
theorem oneMemory {n : Nat} {image : BitVec 16 → Byte} {input : List Byte}
    {log : List (Word × Byte)} {m : Machine} (hn : validHartCount n)
    (hrun : MemRun n (imageSession n image input).world.toTarget log m) :
    OneMemory n (writtenByte image log) m := by
  have hpos : 0 < n := by
    refine Nat.pos_of_ne_zero ?_
    rintro rfl
    exact absurd hn (by decide)
  have hs₀ := (machineInv_imageSession hpos image input).sys
  obtain ⟨hs, hwrites⟩ := hrun.writes hs₀
  have himage : ((imageSession n image input).world.toTarget.hart 0).memory = image := by
    show ((Rv32System.updHart (initSystem n) 0 fun c => { c with memory := image }).harts 0).memory =
      image
    rw [Rv32System.harts_updHart, if_pos rfl]
  have hram : ∀ h < n, ∀ a, InRam a → m.sys.ram h (ramOffset a) = writtenByte image log a := by
    intro h hh a ha
    rw [hwrites h hh a ha, hs₀.ram hh]
    exact congrArg (fun memory => (lastAt log a).getD (memory (ramOffset a))) himage
  exact ⟨fun fuel w addr len => exchanges_m_of_ram (hram 0 hpos) fuel,
    fun connected h hh op rd rs1 imm => load_of_ram hram connected hh,
    fun fuel w addr len payload => roundTrip_of_systemInv hs fuel⟩

/-- The debugger writes two bytes and the instruction `sh x2, 0(x2)`, with which the second hart stores
to the second byte and the one after it; then a sync word is written. -/
theorem oneMemory_two :
    ∃ (w₁ w₂ : EmuWorld) (byte : Word → Byte),
      Exchanges 0 emuCallbacks (imageSession 2 (fun _ => 0) []).world
        (writePacket 'M' (ascii "8000fffb") (ascii "2") (ascii "4142")) (ascii "OK") w₁ ∧
      Exchanges 0 emuCallbacks w₁
        (writePacket 'M' (ascii "80000034") (ascii "4") (ascii "23102100")) (ascii "OK") w₂ ∧
      OneMemory 2 byte
        ((rv32CpuStep true w₂.toTarget 1).updSys fun s => ramWrite32 s smpSyncBase 1) ∧
      [0x8000fffb, 0x8000fffc, 0x8000fffd, smpSyncBase].map byte = [0x41, 0xfc, 0xff, 0x01] := by
  set w := (imageSession 2 (fun _ => 0) []).world with hw
  have hs : SystemInv 2 w.toTarget.sys := (machineInv_imageSession (by decide) _ _).sys
  have hstart : w.toTarget = (loadedSession 2 []).world.toTarget.updHart 0
      fun c => { c with memory := fun _ => 0 } := by
    rw [hw, imageSession, initSession_eq]
    rfl
  obtain ⟨w₁, hdata, hready, htarget₁, hrun₁⟩ :=
    (.refl : MemRun 2 w.toTarget [] w.toTarget).exchanges_M 0 (ascii "8000fffb") (ascii "2")
      (ascii "4142") ⟨rfl, by decide⟩ (by decide) (by decide) (by decide) (by decide) (by decide)
  obtain ⟨w₂, hinstr, -, htarget₂, hrun₂⟩ :=
    hrun₁.exchanges_M 0 (ascii "80000034") (ascii "4") (ascii "23102100") hready (by decide)
      (by decide) (by decide) (by decide) (by decide)
  have hrunning : (w₂.toTarget.hart 1).running := by
    rw [htarget₂, htarget₁, hstart]
    decide +kernel
  have hwrites : instrWrites w₂.toTarget 1 = [(0x8000fffc, 0xfc), (0x8000fffd, 0xff)] := by
    rw [htarget₂, htarget₁, hstart]
    decide +kernel
  have hsync : InSync smpSyncBase := ⟨by decide, by decide⟩
  have hrun := (hrun₂.rv32CpuStep hs true (show 1 < 2 by decide) hrunning).sync hsync 1
  rw [hwrites] at hrun
  exact ⟨w₁, w₂, _, hdata, hinstr, oneMemory (by decide) hrun, by decide +kernel⟩

end Rv32Gdb
