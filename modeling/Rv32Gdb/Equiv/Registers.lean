import Rv32Gdb.Equiv.Handlers
import Rv32Gdb.Emu.Session

/-!
# Register transfers

`parseHexLe_encodeHex` is the round trip of the two codecs, in either width.  Over callbacks that
are a register file (`IsRegisterFile`, which `isRegisterFile_emuCallbacks` proves of the emulator),
`registers_roundTrip` follows the register packets: what `g` sends can be sent back by `G`, what `G`
sends is what `g` returns, and `P` and `p` transfer a single register.
-/

namespace Rv32Gdb

variable {x : Xlen} {σ : Type}

/-! ### The codecs -/

/-- The low `k` bytes of a register value. -/
def lowBytes (v : GdbReg x) (k : Nat) : GdbReg x := (v.setWidth (k * 8)).setWidth x.bits

theorem lowBytes_succ (v : GdbReg x) (k : Nat) :
    lowBytes v k ||| ((((v >>> (k * 8)).setWidth 8).setWidth x.bits) <<< (k * 8)) =
      lowBytes v (k + 1) := by
  apply BitVec.eq_of_getLsbD_eq
  intro j hj
  simp only [lowBytes, BitVec.getLsbD_or, BitVec.getLsbD_setWidth, BitVec.getLsbD_shiftLeft,
    BitVec.getLsbD_ushiftRight, hj, decide_true, Bool.true_and]
  by_cases hlow : j < k * 8
  · have hnext : j < (k + 1) * 8 := by omega
    simp [hlow, hnext]
  · have hsub : k * 8 + (j - k * 8) = j := by omega
    by_cases hnext : j < (k + 1) * 8
    · have hbyte : j - k * 8 < 8 := by omega
      have hbits : j - k * 8 < x.bits := by omega
      simp [hlow, hnext, hbyte, hbits, hsub]
    · have hbyte : ¬j - k * 8 < 8 := by omega
      simp [hlow, hnext, hbyte]

/-- The digits of byte `i` of a register value. -/
def byteDigits (v : GdbReg x) (i : Nat) : List Byte := hexByte ((v >>> (i * 8)).setWidth 8)

theorem parseHexLeLoop_byteDigits (v : GdbReg x) (i n : Nat) (tail : List Byte)
    (hin : (i + n) * 8 ≤ x.bits) :
    parseHexLeLoop x i n ((List.range' i n).flatMap (byteDigits v) ++ tail) (lowBytes v i) =
      .ok (lowBytes v (i + n)) := by
  induction n generalizing i with
  | zero => rfl
  | succ n ih =>
    have hroom : ¬x.bits ≤ i * 8 := by omega
    rw [List.range'_succ, List.flatMap_cons, List.append_assoc]
    show parseHexLeLoop x i (n + 1) (_ :: _ :: _) _ = _
    rw [parseHexLeLoop, if_neg hroom, hexPair_hexByte, lowBytes_succ]
    refine (ih (i + 1) (by omega)).trans ?_
    rw [Nat.add_right_comm, Nat.add_assoc]

/-- `parse_hex_le` reads what `encode_hex` has written, whatever follows. -/
theorem parseHexLe_encodeHex (v : GdbReg x) (tail : List Byte) :
    parseHexLe x (encodeHex v x.regHexBytes ++ tail) x.regHexChars = .ok v := by
  have hbytes : x.regHexChars / 2 = x.regHexBytes := by cases x <;> rfl
  have hbits : x.regHexBytes * 8 = x.bits := by cases x <;> rfl
  have hloop := parseHexLeLoop_byteDigits v 0 x.regHexBytes tail (by omega)
  have hzero : lowBytes v 0 = 0 := by
    apply BitVec.eq_of_toNat_eq
    rw [lowBytes, BitVec.toNat_setWidth, BitVec.toNat_setWidth]
    simp [Nat.mod_one]
  have hall : lowBytes v (0 + x.regHexBytes) = v := by
    rw [Nat.zero_add, lowBytes, hbits, BitVec.setWidth_eq, BitVec.setWidth_eq]
  rw [hzero, hall, ← List.range_eq_range'] at hloop
  rw [parseHexLe, hbytes]
  exact hloop

/-! ### Register files -/

/-- `regs` reads off the target a register file behind the callbacks: `x0` to `x31`, of which `x0` is
hard-wired to zero, and the program counter as number `32`. -/
structure IsRegisterFile (cb : GdbCallbacks x σ) (regs : Target x σ → Nat → GdbReg x) : Prop where
  readReg : ∀ c t i, i < 32 → cb.readReg c t i = (regs t i, t)
  getPc : ∀ c t, cb.getPc c t = (regs t 32, t)
  regs_writeReg : ∀ c t i v j, i < 32 →
    regs (cb.writeReg c t i v) j = if j = i ∧ i ≠ 0 then v else regs t j
  regs_setPc : ∀ c t v j, regs (cb.setPc c t v) j = if j = 32 then v else regs t j
  reg_zero : ∀ t, regs t 0 = 0

theorem rv32CpuReadReg_rv32CpuWriteReg (c : Rv32Cpu) (i : Nat) (v : Word) {j : Nat} (hi : i < 32) :
    rv32CpuReadReg (rv32CpuWriteReg c i v) j = if j = i ∧ i ≠ 0 then v else rv32CpuReadReg c j := by
  unfold rv32CpuReadReg rv32CpuWriteReg
  by_cases hi0 : i = 0
  · have hno : ¬(j = i ∧ i ≠ 0) := fun h => h.2 hi0
    rw [if_pos hi0, if_neg hno]
  rw [if_neg hi0, dif_pos hi]
  by_cases hj : j < 32
  · simp only [dif_pos hj, Function.update_apply, Fin.mk.injEq]
    by_cases hji : j = i
    · rw [if_neg fun h => hi0 (hji.symm.trans h), if_pos hji, if_pos ⟨hji, hi0⟩]
    · have hno : ¬(j = i ∧ i ≠ 0) := fun h => hji h.1
      rw [if_neg hji, if_neg hno]
  · have hno : ¬(j = i ∧ i ≠ 0) := fun h => hj (h.1.trans_lt hi)
    simp only [dif_neg hj, if_neg hno]

theorem pc_rv32CpuWriteReg (c : Rv32Cpu) (i : Nat) (v : Word) :
    (rv32CpuWriteReg c i v).pc = c.pc := by
  unfold rv32CpuWriteReg
  split_ifs <;> rfl

/-- The register callbacks of the emulator, for the focus hart. -/
theorem isRegisterFile_emuCallbacks : IsRegisterFile emuCallbacks gdbReadReg where
  readReg _ _ _ _ := rfl
  getPc _ _ := rfl
  regs_writeReg c t i v j hi := by
    have hhart : (gdbWriteReg t i v).hart t.sys.focusHart =
        rv32CpuWriteReg (t.hart t.sys.focusHart) i v := by
      rw [gdbWriteReg, Target.hart_updHart, if_pos rfl, if_pos hi]
    show (if j < 32 then rv32CpuReadReg ((gdbWriteReg t i v).hart t.sys.focusHart) j
      else if j = 32 then ((gdbWriteReg t i v).hart t.sys.focusHart).pc else 0) = _
    rw [hhart, rv32CpuReadReg_rv32CpuWriteReg _ _ _ hi, pc_rv32CpuWriteReg]
    by_cases hj : j < 32
    · rw [if_pos hj, gdbReadReg, if_pos hj]
    · have hno : ¬(j = i ∧ i ≠ 0) := fun h => hj (h.1.trans_lt hi)
      rw [if_neg hj, if_neg hno, gdbReadReg, if_neg hj]
  regs_setPc c t v j := by
    have hhart : (gdbSetPc t v).hart t.sys.focusHart =
        { t.hart t.sys.focusHart with pc := v } := by
      rw [gdbSetPc, Target.hart_updHart, if_pos rfl]
    show (if j < 32 then rv32CpuReadReg ((gdbSetPc t v).hart t.sys.focusHart) j
      else if j = 32 then ((gdbSetPc t v).hart t.sys.focusHart).pc else 0) = _
    rw [hhart]
    by_cases hj : j < 32
    · rw [if_pos hj, if_neg (by omega), gdbReadReg, if_pos hj]
      rfl
    · rw [if_neg hj, gdbReadReg, if_neg hj]
      by_cases hpc : j = 32
      · rw [if_pos hpc, if_pos hpc]
      · rw [if_neg hpc, if_neg hpc, if_neg hpc]
  reg_zero _ := rfl

/-- The text of a register file. -/
def registersText (v : Nat → GdbReg x) : List Byte :=
  (List.range 33).flatMap fun i => encodeHex (v i) x.regHexBytes

theorem readRegistersLoop_regs {cb : GdbCallbacks x σ} {regs : Target x σ → Nat → GdbReg x}
    (h : IsRegisterFile cb regs) (w : World x σ) (is : List Nat) (his : ∀ i ∈ is, i < 32)
    (p : CharArray gdbBufferSize)
    (hp : p.data.length + is.length * (2 * x.regHexBytes) ≤ gdbBufferSize) :
    ∃ p', readRegistersLoop cb is w p = .ok (w, p') ∧
      p'.data = p.data ++ is.flatMap fun i => encodeHex (regs w.toTarget i) x.regHexBytes := by
  induction is generalizing p with
  | nil => exact ⟨p, rfl, (List.append_nil _).symm⟩
  | cons i is ih =>
    have hread : w.call (fun c t => cb.readReg c t i) = (regs w.toTarget i, w) := by
      rw [World.call, h.readReg _ _ _ (his i List.mem_cons_self)]
      rfl
    rw [List.length_cons, Nat.succ_mul] at hp
    obtain ⟨p₁, hpush, hdata⟩ := p.pushAll_of_le (encodeHex (regs w.toTarget i) x.regHexBytes)
      (by rw [length_encodeHex]; omega)
    obtain ⟨p', hloop, hdata'⟩ := ih (fun j hj => his j (List.mem_cons_of_mem _ hj)) p₁ (by
      rw [hdata, List.length_append, length_encodeHex]
      omega)
    refine ⟨p', ?_, ?_⟩
    · rw [readRegistersLoop, hread]
      show (p.pushAll (encodeHex (regs w.toTarget i) x.regHexBytes) >>=
        readRegistersLoop cb is w) = _
      rw [hpush]
      exact hloop
    · rw [hdata', hdata, List.append_assoc, List.flatMap_cons]

theorem handleReadRegisters_regs {cb : GdbCallbacks x σ} {regs : Target x σ → Nat → GdbReg x}
    (h : IsRegisterFile cb regs) (w : World x σ) :
    handleReadRegisters cb w = .ok (w.send (registersText (regs w.toTarget))) := by
  have hbytes := regHexBytes_le x
  obtain ⟨p₁, hloop, hdata₁⟩ := readRegistersLoop_regs h w (List.range 32)
    (fun i hi => List.mem_range.mp hi) (CharArray.empty gdbBufferSize) (by
      rw [List.length_range]
      simp only [CharArray.empty, List.length_nil, gdbBufferSize]
      omega)
  have hlen₁ : p₁.data.length = 32 * (2 * x.regHexBytes) := by
    rw [hdata₁, CharArray.empty, List.nil_append, List.length_flatMap]
    simp only [length_encodeHex, List.map_const', List.sum_replicate, List.length_range]
    rfl
  have hpc : w.call cb.getPc = (regs w.toTarget 32, w) := by
    rw [World.call, h.getPc]
    rfl
  obtain ⟨p₂, hpush, hdata₂⟩ := p₁.pushAll_of_le
    (encodeHex (regs w.toTarget 32) x.regHexBytes) (by
      rw [length_encodeHex]
      show _ ≤ 4096
      omega)
  have htext : p₂.data = registersText (regs w.toTarget) := by
    rw [hdata₂, hdata₁, CharArray.empty, List.nil_append, registersText,
      show List.range 33 = List.range 32 ++ [32] from rfl, List.flatMap_append,
      List.flatMap_singleton]
  have hlen₂ : p₂.data.length < gdbBufferSize := by
    rw [hdata₂, List.length_append, length_encodeHex]
    show _ < 4096
    omega
  rw [handleReadRegisters, hloop]
  show (p₁.pushAll (encodeHex (w.call cb.getPc).1 x.regHexBytes) >>= fun p =>
    p.terminate >>= fun response => Except.ok ((w.call cb.getPc).2.send response)) = _
  rw [hpc, hpush]
  show (p₂.terminate >>= fun response => Except.ok (w.send response)) = _
  rw [p₂.terminate_of_lt hlen₂, htext]
  rfl

/-! ### Writing all registers -/

theorem regHexChars_eq (x : Xlen) : x.regHexChars = 2 * x.regHexBytes := by cases x <;> rfl

/-- Field `i` of the text of a register file. -/
theorem registersText_split (v : Nat → GdbReg x) {i : Nat} (hi : i ≤ 32) :
    ∃ before after, registersText v = before ++ (encodeHex (v i) x.regHexBytes ++ after) ∧
      before.length = i * x.regHexChars := by
  have hrange : List.range 33 = List.range i ++ i :: List.range' (i + 1) (32 - i) := by
    have hsum : 33 = i + (32 - i + 1) := by omega
    rw [List.range_eq_range', hsum, ← List.range'_append_1, ← List.range_eq_range', Nat.zero_add,
      List.range'_succ]
  refine ⟨(List.range i).flatMap fun k => encodeHex (v k) x.regHexBytes,
    (List.range' (i + 1) (32 - i)).flatMap fun k => encodeHex (v k) x.regHexBytes, ?_, ?_⟩
  · rw [registersText, hrange, List.flatMap_append, List.flatMap_cons]
  · rw [List.length_flatMap, regHexChars_eq]
    simp only [length_encodeHex, List.map_const', List.sum_replicate, List.length_range]
    rfl

theorem isxdigit_encodeHex (v : GdbReg x) (n : Nat) : ∀ c ∈ encodeHex v n, isxdigit c := by
  intro c hc
  obtain ⟨i, -, hi⟩ := List.mem_flatMap.mp hc
  exact isxdigit_hexByte _ c hi

theorem isxdigit_registersText (v : Nat → GdbReg x) : ∀ c ∈ registersText v, isxdigit c := by
  intro c hc
  obtain ⟨i, -, hi⟩ := List.mem_flatMap.mp hc
  exact isxdigit_encodeHex _ _ c hi

theorem parse_registersText {buf : Fin gdbBufferSize → Byte} {v : Nat → GdbReg x}
    (h : HasBytes buf 1 (registersText v ++ [0#8])) {i : Nat} (hi : i ≤ 32) :
    parseHexLe x (cstr buf (1 + i * x.regHexChars)) x.regHexChars = .ok (v i) := by
  obtain ⟨before, after, htext, hlen⟩ := registersText_split v hi
  have hnul : 0#8 ∉ encodeHex (v i) x.regHexBytes ++ after := by
    intro hmem
    have hdigit := isxdigit_registersText v 0#8 (by
      rw [htext]
      exact List.mem_append_right _ hmem)
    revert hdigit
    decide
  rw [htext, List.append_assoc] at h
  have hfield := (hasBytes_append.mp h).2
  rw [hlen] at hfield
  rw [cstr_of_hasBytes hfield hnul, parseHexLe_encodeHex]

theorem writeRegistersLoop_regs {cb : GdbCallbacks x σ} {regs : Target x σ → Nat → GdbReg x}
    (h : IsRegisterFile cb regs) {v : Nat → GdbReg x} (w : World x σ)
    (hbuf : HasBytes w.stub.packetBuffer 1 (registersText v ++ [0#8])) (is : List Nat)
    (his : ∀ i ∈ is, i < 32) :
    ∃ t, writeRegistersLoop cb is w = .ok (w.withTarget t) ∧
      ∀ j, regs t j = if j ∈ is ∧ j ≠ 0 then v j else regs w.toTarget j := by
  induction is generalizing w with
  | nil => exact ⟨w.toTarget, rfl, by simp⟩
  | cons i is ih =>
    have hi := his i List.mem_cons_self
    set w₁ := w.act fun c t => cb.writeReg c t i (v i) with hw₁
    obtain ⟨t, hloop, hregs⟩ := ih w₁ hbuf fun j hj => his j (List.mem_cons_of_mem _ hj)
    refine ⟨t, ?_, fun j => ?_⟩
    · rw [writeRegistersLoop, parse_registersText hbuf hi.le]
      exact hloop
    · have hone : regs w₁.toTarget j = if j = i ∧ i ≠ 0 then v i else regs w.toTarget j :=
        h.regs_writeReg _ _ _ _ _ hi
      rw [hregs, hone]
      by_cases hj : j ∈ is ∧ j ≠ 0
      · rw [if_pos hj, if_pos ⟨List.mem_cons_of_mem _ hj.1, hj.2⟩]
      rw [if_neg hj]
      by_cases hji : j = i ∧ i ≠ 0
      · obtain ⟨rfl, hne⟩ := hji
        rw [if_pos ⟨rfl, hne⟩, if_pos ⟨List.mem_cons_self, hne⟩]
      · have hno : ¬(j ∈ i :: is ∧ j ≠ 0) := by
          rintro ⟨hmem, hne⟩
          rcases List.mem_cons.mp hmem with rfl | hmem
          · exact hji ⟨rfl, hne⟩
          · exact hj ⟨hmem, hne⟩
        rw [if_neg hji, if_neg hno]

theorem handleWriteRegisters_regs {cb : GdbCallbacks x σ} {regs : Target x σ → Nat → GdbReg x}
    (h : IsRegisterFile cb regs) {v : Nat → GdbReg x} (w : World x σ)
    (hbuf : HasBytes w.stub.packetBuffer 1 (registersText v ++ [0#8])) :
    ∃ t, handleWriteRegisters cb w = .ok ((w.withTarget t).send (ascii "OK")) ∧
      ∀ j, regs t j = if j ≤ 32 ∧ j ≠ 0 then v j else regs w.toTarget j := by
  obtain ⟨t, hloop, hregs⟩ := writeRegistersLoop_regs h w hbuf (List.range 32) fun i hi =>
    List.mem_range.mp hi
  refine ⟨cb.setPc w.stub.connected t (v 32), ?_, fun j => ?_⟩
  · have hpc := parse_registersText hbuf le_rfl
    rw [handleWriteRegisters, hloop]
    show (parseHexLe x (cstr w.stub.packetBuffer (1 + 32 * x.regHexChars)) x.regHexChars >>= _) = _
    rw [hpc]
    rfl
  · rw [h.regs_setPc, hregs]
    simp only [List.mem_range]
    by_cases hj : j = 32
    · rw [if_pos hj, if_pos (by omega), hj]
    · rw [if_neg hj]
      exact if_congr (by omega) rfl rfl

/-! ### Single registers -/

theorem addrToInt_ofNat_of_le {n : Nat} (hn : n ≤ 32) :
    addrToInt (BitVec.ofNat x.bits n) = n := by
  have hall : ∀ n : Fin 33, addrToInt (BitVec.ofNat x.bits n.val) = (n.val : Int) := by
    cases x <;> decide
  exact hall ⟨n, by omega⟩

theorem zero_not_mem_hexText (n : Nat) : 0#8 ∉ hexText n := fun hm =>
  (ne_of_isxdigit (isxdigit_hexText hm)).2.2.2 rfl

theorem handleReadSingleRegister_regs {cb : GdbCallbacks x σ} {regs : Target x σ → Nat → GdbReg x}
    (h : IsRegisterFile cb regs) (w : World x σ) {n : Nat} (hn : n ≤ 32)
    (hbuf : HasBytes w.stub.packetBuffer 1 (hexText n ++ [0#8])) :
    handleReadSingleRegister cb w =
      .ok (w.send (encodeHex (regs w.toTarget n) x.regHexBytes)) := by
  have hbytes := regHexBytes_le x
  have hnum : addrToInt (parseHex x (cstr w.stub.packetBuffer 1)
      (cstr w.stub.packetBuffer 1).length) = n := by
    rw [cstr_of_hasBytes hbuf (zero_not_mem_hexText n), parseHex_eq, List.take_length,
      hexValue_hexText, addrToInt_ofNat_of_le hn]
  have hread : (if (n : Int) < 32 then w.call fun c t => cb.readReg c t (n : Int).toNat
      else w.call cb.getPc) = (regs w.toTarget n, w) := by
    by_cases hlt : n < 32
    · rw [if_pos (by omega), World.call, Int.toNat_natCast, h.readReg _ _ _ hlt]
      rfl
    · obtain rfl : n = 32 := by omega
      rw [if_neg (by omega), World.call, h.getPc]
      rfl
  obtain ⟨p, hpush, hdata⟩ := (CharArray.empty 32).pushAll_of_le
    (encodeHex (regs w.toTarget n) x.regHexBytes) (by
      rw [length_encodeHex]
      simp only [CharArray.empty, List.length_nil]
      omega)
  rw [CharArray.empty, List.nil_append] at hdata
  have hlen : p.data.length < 32 := by
    rw [hdata, length_encodeHex]
    omega
  rw [handleReadSingleRegister]
  simp only [hnum, hread]
  rw [if_neg (by omega), hpush]
  show (p.terminate >>= fun response => Except.ok (w.send response)) = _
  rw [p.terminate_of_lt hlen, hdata]
  rfl

theorem handleWriteSingleRegister_regs {cb : GdbCallbacks x σ}
    {regs : Target x σ → Nat → GdbReg x} (h : IsRegisterFile cb regs) (w : World x σ) {n : Nat}
    (hn : n ≤ 32) {v : GdbReg x}
    (hbuf : HasBytes w.stub.packetBuffer 1
      (hexText n ++ chr '=' :: encodeHex v x.regHexBytes ++ [0#8])) :
    ∃ buf t, handleWriteSingleRegister cb w =
        .ok (((w.setBuffer buf).withTarget t).send (ascii "OK")) ∧
      ∀ j, regs t j = if j = n ∧ n ≠ 0 then v else regs w.toTarget j := by
  have hequals : chr '=' ∉ hexText n := fun hm => by
    have hdigit := isxdigit_hexText hm
    revert hdigit
    decide
  have hzero : 0#8 ∉ hexText n ++ chr '=' :: encodeHex v x.regHexBytes := by
    have hv : 0#8 ∉ encodeHex v x.regHexBytes := fun hm =>
      (ne_of_isxdigit (isxdigit_encodeHex _ _ _ hm)).2.2.2 rfl
    have hsep : 0#8 ≠ chr '=' := by decide
    simp [zero_not_mem_hexText, hv, hsep]
  obtain ⟨p, hfind, hp, hnum, hvalue⟩ := strchr_cut (by decide) (cstr_of_hasBytes hbuf hzero) hequals
  have hnum' : addrToInt (parseHex x (cstr (setByte w.stub.packetBuffer p 0) 1) (p - 1)) = n := by
    rw [hnum, parseHex_eq, List.take_of_length_le (by omega), hexValue_hexText,
      addrToInt_ofNat_of_le hn]
  have hvalue' : parseHexLe x (cstr (setByte w.stub.packetBuffer p 0) (p + 1))
      (cstr (setByte w.stub.packetBuffer p 0) (p + 1)).length = .ok v := by
    have hparse := parseHexLe_encodeHex v []
    rw [List.append_nil] at hparse
    rw [hvalue 0, length_encodeHex, ← regHexChars_eq, hparse]
  set w₁ := w.setBuffer (setByte w.stub.packetBuffer p 0) with hw₁
  refine ⟨setByte w.stub.packetBuffer p 0, if n < 32 then cb.writeReg w.stub.connected w.toTarget n v
    else cb.setPc w.stub.connected w.toTarget v, ?_, fun j => ?_⟩
  · rw [handleWriteSingleRegister]
    simp only [hfind, hnum']
    rw [hvalue']
    show (if (n : Int) < 0 ∨ (n : Int) > 32 then _ else _) = _
    rw [if_neg (by omega), Int.toNat_natCast]
    by_cases hlt : n < 32
    · rw [if_pos hlt, if_pos (by omega)]
      rfl
    · rw [if_neg hlt, if_neg (by omega)]
      rfl
  · by_cases hlt : n < 32
    · rw [if_pos hlt, h.regs_writeReg _ _ _ _ _ hlt]
    · obtain rfl : n = 32 := by omega
      rw [if_neg hlt, h.regs_setPc]
      exact if_congr (by simp) rfl rfl

/-! ### Packets -/

/-- The client sends the packet `p` and gets the reply `reply`. -/
def Exchanges (fuel : Nat) (cb : GdbCallbacks x σ) (w : World x σ) (p reply : List Byte)
    (w' : World x σ) : Prop :=
  gdbStubProcess fuel cb (w.withInput (frame p)) = .ok (0, w') ∧
    w'.stub.output = w.stub.output ++ w.stub.ack ++ [frame reply]

/-- The stub is ready for a packet. -/
structure Ready (s : GdbStub) : Prop where
  connected : s.connected
  consecutiveFailures : s.consecutiveFailures < 50

/-- A packet whose handler sends a reply. -/
theorem exchanges_of_dispatch {fuel : Nat} {cb : GdbCallbacks x σ} {w : World x σ}
    {p reply : List Byte} (P : Target x σ → Prop) (hw : Ready w.stub) (hp : chr '#' ∉ p)
    (hlen : p.length < gdbBufferSize) (hreply : reply.length ≤ 4091)
    (hdispatch : ∀ s, HasBytes s.packetBuffer 0 (p ++ [0#8]) →
      ∃ buf t, dispatch fuel cb { w with stub := s } =
        .ok (0, ((({ w with stub := s } : World x σ).setBuffer buf).withTarget t).send reply) ∧
          P t) :
    ∃ w', Exchanges fuel cb w p reply w' ∧ Ready w'.stub ∧ P w'.toTarget := by
  obtain ⟨s, hrecv, hproc⟩ := gdbStubProcess_framed (w := w.withInput (frame p)) fuel cb
    hw.connected hw.consecutiveFailures (framed_frame_nil hp) hlen
  obtain ⟨buf, t, hok, ht⟩ := hdispatch s hrecv.bytes
  have hstub : s.connected = w.stub.connected ∧ s.consecutiveFailures = 0 ∧
      s.output = w.stub.output ++ w.stub.ack := by
    rw [hrecv.eq]
    exact ⟨rfl, rfl, rfl⟩
  refine ⟨_, ⟨hproc.trans hok, ?_⟩, ⟨?_, ?_⟩, ht⟩
  · rw [output_send_of_le _ hreply]
    show s.output ++ _ = _
    rw [hstub.2.2]
  · rw [World.send, sendPacket_of_le hreply]
    exact hstub.1.trans hw.connected
  · rw [World.send, sendPacket_of_le hreply]
    show s.consecutiveFailures < 50
    omega

theorem dispatch_g (fuel : Nat) (cb : GdbCallbacks x σ) {w : World x σ}
    (h : byteAt w.stub.packetBuffer 0 = chr 'g') :
    dispatch fuel cb w = andReturnZero (handleReadRegisters cb w) := by
  unfold dispatch
  simp only [h]
  rfl

theorem dispatch_G (fuel : Nat) (cb : GdbCallbacks x σ) {w : World x σ}
    (h : byteAt w.stub.packetBuffer 0 = chr 'G') :
    dispatch fuel cb w = andReturnZero (handleWriteRegisters cb w) := by
  unfold dispatch
  simp only [h]
  rfl

theorem dispatch_p (fuel : Nat) (cb : GdbCallbacks x σ) {w : World x σ}
    (h : byteAt w.stub.packetBuffer 0 = chr 'p') :
    dispatch fuel cb w = andReturnZero (handleReadSingleRegister cb w) := by
  unfold dispatch
  simp only [h]
  rfl

theorem dispatch_P (fuel : Nat) (cb : GdbCallbacks x σ) {w : World x σ}
    (h : byteAt w.stub.packetBuffer 0 = chr 'P') :
    dispatch fuel cb w = andReturnZero (handleWriteSingleRegister cb w) := by
  unfold dispatch
  simp only [h]
  rfl

/-- The packet `P` for register `n` and a value. -/
def writeRegisterPacket (n : Nat) (v : GdbReg x) : List Byte :=
  chr 'P' :: (hexText n ++ chr '=' :: encodeHex v x.regHexBytes)

/-- The packet `p` for register `n`. -/
def readRegisterPacket (n : Nat) : List Byte := chr 'p' :: hexText n

/-- The packet `G` for a register file. -/
def writeRegistersPacket (v : Nat → GdbReg x) : List Byte := chr 'G' :: registersText v

theorem length_registersText (v : Nat → GdbReg x) :
    (registersText v).length = 33 * (2 * x.regHexBytes) := by
  rw [registersText, List.length_flatMap]
  simp only [length_encodeHex, List.map_const', List.sum_replicate, List.length_range]
  rfl

theorem registersText_congr {v v' : Nat → GdbReg x} (h : ∀ i ≤ 32, v i = v' i) :
    registersText v = registersText v' := by
  refine List.flatMap_congr fun i hi => ?_
  rw [h i (Nat.lt_succ_iff.mp (List.mem_range.mp hi))]

section RegisterFile

variable {cb : GdbCallbacks x σ} {regs : Target x σ → Nat → GdbReg x}
  (h : IsRegisterFile cb regs) (fuel : Nat) {w : World x σ} (hw : Ready w.stub)

include h hw

theorem exchanges_g : ∃ w', Exchanges fuel cb w (ascii "g") (registersText (regs w.toTarget)) w' ∧
    Ready w'.stub ∧ regs w'.toTarget = regs w.toTarget := by
  have hbytes := regHexBytes_le x
  refine exchanges_of_dispatch (fun t => regs t = regs w.toTarget) hw (by decide) (by decide)
    (by rw [length_registersText]; omega) fun s hs => ⟨s.packetBuffer, w.toTarget, ?_, rfl⟩
  have hok := handleReadRegisters_regs h { w with stub := s }
  rw [dispatch_g fuel cb hs.head, hok]
  rfl

theorem exchanges_G (v : Nat → GdbReg x) :
    ∃ w', Exchanges fuel cb w (writeRegistersPacket v) (ascii "OK") w' ∧ Ready w'.stub ∧
      ∀ j, regs w'.toTarget j = if j ≤ 32 ∧ j ≠ 0 then v j else regs w.toTarget j := by
  have hbytes := regHexBytes_le x
  have hhash : chr '#' ∉ writeRegistersPacket v := by
    rw [writeRegistersPacket, List.mem_cons, not_or]
    exact ⟨by decide, fun hm => (ne_of_isxdigit (isxdigit_registersText v _ hm)).2.2.1 rfl⟩
  have hlen : (writeRegistersPacket v).length < gdbBufferSize := by
    rw [writeRegistersPacket, List.length_cons, length_registersText, gdbBufferSize]
    omega
  refine exchanges_of_dispatch (fun t => ∀ j, regs t j =
    if j ≤ 32 ∧ j ≠ 0 then v j else regs w.toTarget j) hw hhash hlen (by decide) fun s hs => ?_
  obtain ⟨t, hok, hregs⟩ := handleWriteRegisters_regs h { w with stub := s } hs.tail
  refine ⟨s.packetBuffer, t, ?_, hregs⟩
  rw [dispatch_G fuel cb hs.head, hok]
  rfl

theorem exchanges_p {n : Nat} (hn : n ≤ 32) :
    ∃ w', Exchanges fuel cb w (readRegisterPacket n)
        (encodeHex (regs w.toTarget n) x.regHexBytes) w' ∧
      Ready w'.stub ∧ regs w'.toTarget = regs w.toTarget := by
  have hbytes := regHexBytes_le x
  have hhash : chr '#' ∉ readRegisterPacket n := by
    rw [readRegisterPacket, List.mem_cons, not_or]
    exact ⟨by decide, fun hm => (ne_of_isxdigit (isxdigit_hexText hm)).2.2.1 rfl⟩
  have hlen : (readRegisterPacket n).length < gdbBufferSize := by
    have hdigits := length_hexText_le (n := n) (k := 2) (by decide) (by omega)
    rw [readRegisterPacket, List.length_cons, gdbBufferSize]
    omega
  refine exchanges_of_dispatch (fun t => regs t = regs w.toTarget) hw hhash hlen
    (by rw [length_encodeHex]; omega) fun s hs => ⟨s.packetBuffer, w.toTarget, ?_, rfl⟩
  have hok := handleReadSingleRegister_regs h { w with stub := s } hn hs.tail
  rw [dispatch_p fuel cb hs.head, hok]
  rfl

theorem exchanges_P {n : Nat} (hn : n ≤ 32) (v : GdbReg x) :
    ∃ w', Exchanges fuel cb w (writeRegisterPacket n v) (ascii "OK") w' ∧ Ready w'.stub ∧
      ∀ j, regs w'.toTarget j = if j = n ∧ n ≠ 0 then v else regs w.toTarget j := by
  have hbytes := regHexBytes_le x
  have hhash : chr '#' ∉ writeRegisterPacket n v := by
    have hdigits : chr '#' ∉ hexText n := fun hm =>
      (ne_of_isxdigit (isxdigit_hexText hm)).2.2.1 rfl
    have hvalue : chr '#' ∉ encodeHex v x.regHexBytes := fun hm =>
      (ne_of_isxdigit (isxdigit_encodeHex _ _ _ hm)).2.2.1 rfl
    have hcmd : chr '#' ≠ chr 'P' := by decide
    have hsep : chr '#' ≠ chr '=' := by decide
    simp [writeRegisterPacket, hdigits, hvalue, hcmd, hsep]
  have hlen : (writeRegisterPacket n v).length < gdbBufferSize := by
    have hdigits := length_hexText_le (n := n) (k := 2) (by decide) (by omega)
    rw [writeRegisterPacket, List.length_cons, List.length_append, List.length_cons,
      length_encodeHex, gdbBufferSize]
    omega
  refine exchanges_of_dispatch (fun t => ∀ j, regs t j =
    if j = n ∧ n ≠ 0 then v else regs w.toTarget j) hw hhash hlen (by decide) fun s hs => ?_
  obtain ⟨buf, t, hok, hregs⟩ := handleWriteSingleRegister_regs h { w with stub := s } hn hs.tail
  refine ⟨buf, t, ?_, hregs⟩
  rw [dispatch_P fuel cb hs.head, hok]
  rfl

end RegisterFile

/-- Field `n` of the text of a register file. -/
def registerField (x : Xlen) (n : Nat) (text : List Byte) : List Byte :=
  (text.drop (n * x.regHexChars)).take x.regHexChars

theorem registerField_registersText (v : Nat → GdbReg x) {n : Nat} (hn : n ≤ 32) :
    registerField x n (registersText v) = encodeHex (v n) x.regHexBytes := by
  obtain ⟨before, after, htext, hlen⟩ := registersText_split v hn
  rw [registerField, htext, ← hlen, List.drop_left, List.take_left' ?_]
  rw [length_encodeHex, regHexChars_eq]

/-- What `g` returns can be sent back by `G`; what `G` sends is what `g` returns, but for `x0`; and
what `P` writes, `p` and `g` return, and no other register changes. -/
theorem registers_roundTrip {cb : GdbCallbacks x σ} {regs : Target x σ → Nat → GdbReg x}
    (h : IsRegisterFile cb regs) (fuel : Nat) {w : World x σ} (hconn : w.stub.connected)
    (hfail : w.stub.consecutiveFailures < 50) :
    (∃ text w₁ w₂, Exchanges fuel cb w (ascii "g") text w₁ ∧
      Exchanges fuel cb w₁ (chr 'G' :: text) (ascii "OK") w₂ ∧
      regs w₂.toTarget = regs w.toTarget) ∧
    (∀ v : Nat → GdbReg x, ∃ w₁ w₂, Exchanges fuel cb w (writeRegistersPacket v) (ascii "OK") w₁ ∧
      Exchanges fuel cb w₁ (ascii "g") (registersText fun i => if i = 0 then 0 else v i) w₂) ∧
    ∀ n ≤ 32, ∀ v : GdbReg x, ∃ text w₁ w₂ w₃,
      Exchanges fuel cb w (writeRegisterPacket n v) (ascii "OK") w₁ ∧
      Exchanges fuel cb w₁ (readRegisterPacket n)
        (encodeHex (if n = 0 then 0 else v) x.regHexBytes) w₂ ∧
      Exchanges fuel cb w₂ (ascii "g") text w₃ ∧
      registerField x n text = encodeHex (if n = 0 then 0 else v) x.regHexBytes ∧
      ∀ j, j ≠ n → regs w₁.toTarget j = regs w.toTarget j := by
  have hw : Ready w.stub := ⟨hconn, hfail⟩
  refine ⟨?_, fun v => ?_, fun n hn v => ?_⟩
  · obtain ⟨w₁, hg, hw₁, hregs₁⟩ := exchanges_g h fuel hw
    obtain ⟨w₂, hG, -, hregs₂⟩ := exchanges_G h fuel hw₁ (regs w.toTarget)
    refine ⟨_, w₁, w₂, hg, hG, funext fun j => ?_⟩
    rw [hregs₂, hregs₁, ite_self]
  · obtain ⟨w₁, hG, hw₁, hregs₁⟩ := exchanges_G h fuel hw v
    obtain ⟨w₂, hg, -, -⟩ := exchanges_g h fuel hw₁
    have htext : registersText (regs w₁.toTarget) =
        registersText fun i => if i = 0 then 0 else v i := by
      refine registersText_congr fun i hi => ?_
      by_cases hzero : i = 0
      · rw [if_pos hzero, hzero, h.reg_zero]
      · rw [hregs₁, if_pos ⟨hi, hzero⟩, if_neg hzero]
    exact ⟨w₁, w₂, hG, htext ▸ hg⟩
  · obtain ⟨w₁, hP, hw₁, hregs₁⟩ := exchanges_P h fuel hw hn v
    obtain ⟨w₂, hp, hw₂, hregs₂⟩ := exchanges_p h fuel hw₁ hn
    obtain ⟨w₃, hg, -, -⟩ := exchanges_g h fuel hw₂
    have hvalue : regs w₁.toTarget n = if n = 0 then 0 else v := by
      by_cases hzero : n = 0
      · rw [if_pos hzero, hzero, h.reg_zero]
      · rw [hregs₁, if_pos ⟨rfl, hzero⟩, if_neg hzero]
    refine ⟨_, w₁, w₂, w₃, hP, hvalue ▸ hp, hg, ?_, fun j hj => ?_⟩
    · rw [registerField_registersText _ hn, hregs₂, hvalue]
    · rw [hregs₁, if_neg fun hjn => hj hjn.1]

/-- Writing `sp` in the emulator. -/
theorem registers_roundTrip_sp :
    let w := (initSession 1 []).world
    ∃ w₁ w₂, Exchanges 0 emuCallbacks w (ascii "P2=78563412") (ascii "OK") w₁ ∧
      Exchanges 0 emuCallbacks w₁ (ascii "p2") (ascii "78563412") w₂ := by
  intro w
  obtain ⟨-, -, hsingle⟩ := registers_roundTrip isRegisterFile_emuCallbacks 0 (w := w) rfl
    (by decide)
  obtain ⟨-, w₁, w₂, -, hP, hp, -⟩ := hsingle 2 (by decide) 0x12345678
  exact ⟨w₁, w₂, hP, hp⟩

end Rv32Gdb
