import Rv32Gdb.Equiv.Reachable
import Rv32Gdb.Equiv.Registers

/-!
# The byte order of the stop replies

A stop reply gives the program counter as a number, most significant byte first (`addrText_eq`); the
register packets give it least significant byte first (`encodeHex_eq`).  `pcField_eq_iff`: the two
agree on the values whose bytes are a palindrome, and on no others.
-/

namespace Rv32Gdb

variable {x : Xlen} {σ : Type}

/-! ### Digits -/

theorem hexText_of_lt {n : Nat} (h : n < 16) : hexText n = [intToHex (BitVec.ofNat 8 n)] := by
  by_cases hn : n = 0
  · rw [hn]
    rfl
  · rw [hexText, if_neg hn, Nat.digits_of_lt 16 n hn h]
    rfl

theorem hexText_of_le {n : Nat} (h : 16 ≤ n) :
    hexText n = hexText (n / 16) ++ [intToHex (BitVec.ofNat 8 (n % 16))] := by
  have hdiv : n / 16 ≠ 0 := by omega
  rw [hexText, if_neg (by omega), hexText, if_neg hdiv, Nat.digits_def' (by decide) (by omega),
    List.reverse_cons, List.map_append]
  rfl

/-- The last digit of a padded number. -/
theorem hexPad_succ {k : Nat} (hk : 1 ≤ k) (n : Nat) :
    hexPad (k + 1) n = hexPad k (n / 16) ++ [intToHex (BitVec.ofNat 8 (n % 16))] := by
  by_cases hn : n < 16
  · have hdiv : n / 16 = 0 := Nat.div_eq_of_lt hn
    have hzero : hexText 0 = [chr '0'] := rfl
    rw [hexPad, hexPad, hdiv, hexText_of_lt hn, Nat.mod_eq_of_lt hn, hzero, List.length_singleton,
      List.length_singleton, ← List.replicate_succ', Nat.sub_add_cancel hk, Nat.add_sub_cancel]
  · rw [hexPad, hexPad, hexText_of_le (not_lt.mp hn), List.length_append, List.length_singleton,
      Nat.add_sub_add_right, List.append_assoc]

theorem hexByte_eq (b : Byte) :
    hexByte b =
      [intToHex (BitVec.ofNat 8 (b.toNat / 16)), intToHex (BitVec.ofNat 8 (b.toNat % 16))] :=
  forall_byte (P := fun b => hexByte b =
    [intToHex (BitVec.ofNat 8 (b.toNat / 16)), intToHex (BitVec.ofNat 8 (b.toNat % 16))])
    (by decide +kernel) b

/-- The last byte of a padded number. -/
theorem hexPad_add_two {k : Nat} (hk : 1 ≤ k) (n : Nat) :
    hexPad (k + 2) n = hexPad k (n / 256) ++ hexByte (BitVec.ofNat 8 n) := by
  have hlow : n % 2 ^ 8 / 16 = n / 16 % 16 := by omega
  have hmod : n % 2 ^ 8 % 16 = n % 16 := by omega
  have hdiv : n / 16 / 16 = n / 256 := by omega
  rw [hexPad_succ (Nat.le_succ_of_le hk), hexPad_succ hk, hexByte_eq, BitVec.toNat_ofNat, hlow, hmod,
    hdiv, List.append_assoc]
  rfl

theorem hexPad_two {n : Nat} (hn : n < 256) : hexPad 2 n = hexByte (BitVec.ofNat 8 n) := by
  have hone : hexPad 1 (n / 16) = [intToHex (BitVec.ofNat 8 (n / 16))] := by
    rw [hexPad, hexText_of_lt (show n / 16 < 16 by omega)]
    rfl
  rw [hexPad_succ le_rfl, hone, hexByte_eq, BitVec.toNat_ofNat,
    Nat.mod_eq_of_lt (show n < 2 ^ 8 by omega)]
  rfl

/-- A padded number, byte by byte. -/
theorem hexPad_bytes (k : Nat) {n : Nat} (hn : n < 256 ^ (k + 1)) :
    hexPad (2 * (k + 1)) n =
      (List.range (k + 1)).reverse.flatMap fun i => hexByte (BitVec.ofNat 8 (n / 256 ^ i)) := by
  induction k generalizing n with
  | zero =>
    rw [pow_one] at hn
    rw [hexPad_two hn]
    simp
  | succ k ih =>
    have hdiv : n / 256 < 256 ^ (k + 1) := by
      rw [Nat.div_lt_iff_lt_mul (by decide), ← pow_succ]
      exact hn
    have hbyte : ∀ i, n / 256 ^ (i + 1) = n / 256 / 256 ^ i := by
      intro i
      rw [Nat.div_div_eq_div_mul, ← pow_succ']
    rw [Nat.mul_succ, hexPad_add_two (by omega), ih hdiv, List.range_succ_eq_map (n := k + 1),
      List.reverse_cons, List.flatMap_append, ← List.map_reverse, List.flatMap_map]
    simp only [Nat.succ_eq_add_one, hbyte, List.flatMap_cons, List.flatMap_nil, List.append_nil,
      pow_zero, Nat.div_one]

/-! ### Bytes -/

/-- The bytes of an address, least significant first. -/
def addrBytes (a : GdbAddr x) : List Byte :=
  (List.range x.regHexBytes).map fun i => (a >>> (i * 8)).setWidth 8

theorem length_addrBytes (a : GdbAddr x) : (addrBytes a).length = x.regHexBytes := by
  rw [addrBytes, List.length_map, List.length_range]

theorem getElem_addrBytes (a : GdbAddr x) (i : Nat) (hi : i < (addrBytes a).length) :
    (addrBytes a)[i] = BitVec.ofNat 8 (a.toNat / 256 ^ i) := by
  have hpow : 2 ^ (i * 8) = 256 ^ i := by rw [mul_comm, pow_mul]; rfl
  simp only [addrBytes, List.getElem_map, List.getElem_range]
  apply BitVec.eq_of_toNat_eq
  rw [BitVec.toNat_setWidth, BitVec.toNat_ushiftRight, Nat.shiftRight_eq_div_pow, hpow,
    BitVec.toNat_ofNat]

/-- The register packets give the bytes in order. -/
theorem encodeHex_eq (a : GdbAddr x) :
    encodeHex a x.regHexBytes = (addrBytes a).flatMap hexByte := by
  rw [encodeHex, addrBytes, List.flatMap_map]

/-- The stop replies give them in reverse. -/
theorem addrText_eq (a : GdbAddr x) : addrText a = (addrBytes a).reverse.flatMap hexByte := by
  have hwidth : x.regHexChars = 2 * (x.regHexBytes - 1 + 1) ∧ x.regHexBytes - 1 + 1 = x.regHexBytes ∧
      2 ^ x.bits = 256 ^ (x.regHexBytes - 1 + 1) := by
    cases x <;> exact ⟨rfl, rfl, rfl⟩
  obtain ⟨hchars, hbytes, hpow⟩ := hwidth
  have hlt : a.toNat < 256 ^ (x.regHexBytes - 1 + 1) := hpow ▸ a.isLt
  have hlist : addrBytes a = (List.range x.regHexBytes).map fun i =>
      BitVec.ofNat 8 (a.toNat / 256 ^ i) := by
    refine List.ext_getElem (by simp [length_addrBytes]) fun i hi hi' => ?_
    rw [getElem_addrBytes a i hi]
    simp
  rw [addrText, hchars, hexPad_bytes _ hlt, hbytes, hlist, ← List.map_reverse, List.flatMap_map]

/-- Every list of bytes is that of an address. -/
theorem exists_addrBytes (l : List Byte) (hl : l.length = x.regHexBytes) :
    ∃ a : GdbAddr x, addrBytes a = l := by
  have hdigit : ∀ d ∈ l.map BitVec.toNat, d < 256 := by
    intro d hd
    obtain ⟨b, -, rfl⟩ := List.mem_map.mp hd
    exact b.isLt
  have hlt : Nat.ofDigits 256 (l.map BitVec.toNat) < 2 ^ x.bits := by
    have hpow : 2 ^ x.bits = 256 ^ x.regHexBytes := by cases x <;> rfl
    have := Nat.ofDigits_lt_base_pow_length (by decide) hdigit
    rwa [List.length_map, hl, ← hpow] at this
  refine ⟨BitVec.ofNat x.bits (Nat.ofDigits 256 (l.map BitVec.toNat)), ?_⟩
  refine List.ext_getElem (by rw [length_addrBytes, hl]) fun i hi hi' => ?_
  have hdrop : (l.map BitVec.toNat).drop i = l[i].toNat :: (l.map BitVec.toNat).drop (i + 1) := by
    rw [List.drop_eq_getElem_cons (by rw [List.length_map]; exact hi'), List.getElem_map]
  rw [getElem_addrBytes _ i hi, BitVec.toNat_ofNat, Nat.mod_eq_of_lt hlt,
    Nat.ofDigits_div_pow_eq_ofDigits_drop i (by decide) _ hdigit, hdrop, Nat.ofDigits_cons]
  apply BitVec.eq_of_toNat_eq
  rw [BitVec.toNat_ofNat]
  have := l[i].isLt
  omega

/-- Bytes are read back from their digits. -/
theorem flatMap_hexByte_inj {l l' : List Byte} (h : l.flatMap hexByte = l'.flatMap hexByte) :
    l = l' := by
  have hinj : ∀ b c : Byte, hexByte b = hexByte c → b = c := by
    intro b c hbc
    have hb := hexPair_hexByte b
    have hc := hexPair_hexByte c
    obtain ⟨hhi, hlo⟩ := List.cons.inj hbc
    rw [← hb, hhi, (List.cons.inj hlo).1, hc]
  induction l generalizing l' with
  | nil =>
    cases l' with
    | nil => rfl
    | cons c l' => cases h
  | cons b l ih =>
    cases l' with
    | nil => cases h
    | cons c l' =>
      obtain ⟨hhead, htail⟩ := List.append_inj h rfl
      rw [hinj b c hhead, ih htail]

/-- The decoder of the register packets, on a number of a stop reply. -/
theorem parseHexLe_addrText_eq_iff (a : GdbAddr x) :
    parseHexLe x (addrText a) x.regHexChars = .ok a ↔ (addrBytes a).reverse = addrBytes a := by
  obtain ⟨b, hb⟩ := exists_addrBytes (x := x) (addrBytes a).reverse (by
    rw [List.length_reverse, length_addrBytes])
  have hdecode : parseHexLe x (addrText a) x.regHexChars = .ok b := by
    have := parseHexLe_encodeHex b []
    rwa [List.append_nil, encodeHex_eq, hb, ← addrText_eq] at this
  rw [hdecode, ← hb, Except.ok.injEq]
  refine ⟨fun h => congrArg addrBytes h, fun h => ?_⟩
  have hsame : encodeHex b x.regHexBytes = encodeHex a x.regHexBytes := by
    rw [encodeHex_eq, encodeHex_eq, h]
  have hparse := parseHexLe_encodeHex b []
  rw [hsame, parseHexLe_encodeHex] at hparse
  exact (Except.ok.inj hparse).symm

theorem addrText_eq_encodeHex_iff (a : GdbAddr x) :
    addrText a = encodeHex a x.regHexBytes ↔ (addrBytes a).reverse = addrBytes a := by
  rw [addrText_eq, encodeHex_eq]
  exact ⟨flatMap_hexByte_inj, fun h => by rw [h]⟩

/-! ### Stop replies -/

/-- A stop reply for the address gives it as the program counter. -/
structure ExpeditesPc (d : DebugState x) (pc : GdbAddr x) : Prop where
  breakpointHit : d.breakpointHit = false
  lastWatchpointAddr : d.lastWatchpointAddr = 0
  pc_ne_zero : pc ≠ 0

theorem output_gdbStubSendStopReason {w : World x σ} {pc : GdbAddr x} (signal : Int)
    (h : ExpeditesPc w.dbg pc) :
    (gdbStubSendStopReason w signal pc).stub.output = w.stub.output ++
      [frame (stopReplyPrefix w.dbg.multiprocessActive signal w.dbg.replyThread ++
        (ascii "20:" ++ addrText pc ++ ascii ";"))] := by
  rw [stub_gdbStubSendStopReason, GdbStub.write, stopReplyText, h.breakpointHit,
    h.lastWatchpointAddr, stopReplyCause, if_neg Bool.false_ne_true, if_neg (not_not.mpr rfl),
    if_pos h.pc_ne_zero]

theorem toTarget_gdbStubSendStopReason {w : World x σ} {pc : GdbAddr x} (signal : Int)
    (h : ExpeditesPc w.dbg pc) :
    (gdbStubSendStopReason w signal pc).toTarget = w.toTarget := by
  unfold gdbStubSendStopReason
  simp only
  rw [h.breakpointHit, h.lastWatchpointAddr, if_neg Bool.false_ne_true, if_neg (not_not.mpr rfl),
    if_pos h.pc_ne_zero]
  rfl

/-- The stop reply is for the program counter of the focus hart. -/
def StopsAtPc (w' : EmuWorld) : Prop :=
  ∃ (u : EmuWorld) (signal : Int), w' = gdbStubSendStopReason u signal (gdbReadReg u.toTarget 32)

theorem stopsAtPc_notifyStop {w : EmuWorld} (signal : Int) {pc : Word}
    (hpc : pc = (w.toTarget.hart w.sim.sys.focusHart).pc) : StopsAtPc (notifyStop w signal pc) := by
  rw [hpc]
  exact ⟨w.updDbg fun d => gdbStubSetStopThread d (notifyThread w.sim.sys), signal, rfl⟩

theorem stopsAtPc_handleHartStop {n h : Nat} {w : EmuWorld} (hinv : MachineInv n w.toTarget)
    (hh : h < n) (signal : Int) : StopsAtPc (handleHartStop w h signal) := by
  have hid : (w.toTarget.hart h).hartId = h := (hinv.sys.hart h hh).hartId
  refine stopsAtPc_notifyStop signal ?_
  show (w.toTarget.hart h).pc = (w.toTarget.hart (w.toTarget.hart h).hartId).pc
  rw [hid]

theorem stopsAtPc_continueExit {w : EmuWorld}
    (hexit : ¬(sysAnyRunning w.sim.sys && !w.dbg.shouldStop && !w.sim.interruptReceived)) :
    StopsAtPc (continueExit w) := by
  unfold continueExit
  simp only
  split_ifs with hany hint hshould
  · exact stopsAtPc_notifyStop 4 rfl
  · exact stopsAtPc_notifyStop 2 rfl
  · exact stopsAtPc_notifyStop 2 rfl
  · simp_all

/-- A step without a turn. -/
theorem stopsAtPc_without_turn {debugMode : Bool} {e : Event} {s s' : Session} (hrun : s.Running)
    (hturn : s.begunTurn debugMode e = none) (hstep : sessionStep debugMode e s = .ok s') :
    s'.Running ∨ StopsAtPc s'.world := by
  obtain ⟨phase, world⟩ := s
  set w := Session.signaled ⟨phase, world⟩ e with hw
  rw [sessionStep, ← hw] at hstep
  unfold Session.begunTurn at hturn
  simp only [← hw] at hturn
  cases phase with
  | waiting => exact absurd rfl hrun.1
  | ended => exact absurd rfl hrun.2
  | stepping =>
    obtain rfl := Except.ok.inj hstep
    simp only at hturn
    split_ifs at hturn with hskip
    refine Or.inr ⟨w.updDbg fun d => gdbStubSetStopThread d
      (sysThreadId (w.toTarget.hart w.sim.sys.focusHart).hartId), 0, ?_⟩
    simp only [stepFocusHart, if_pos hskip]
    rfl
  | loopHead =>
    simp only [phaseStep] at hstep
    split_ifs at hstep with hgo
    · obtain rfl := Except.ok.inj hstep
      exact Or.inl ⟨by simp, by simp⟩
    · obtain rfl := Except.ok.inj hstep
      exact Or.inr (stopsAtPc_continueExit hgo)
  | turn h =>
    simp only at hturn
    split_ifs at hturn with hgo
    simp only [phaseStep] at hstep
    by_cases hlt : h < w.sim.sys.numHarts
    · rw [if_pos hlt, continueTurn_of_skip fun hrun => hgo ⟨hlt, hrun⟩, if_neg (by simp)] at hstep
      obtain rfl := Except.ok.inj hstep
      exact Or.inl ⟨by simp, by simp⟩
    rw [if_neg hlt] at hstep
    split_ifs at hstep with hready
    · obtain rfl := Except.ok.inj hstep
      exact Or.inr (stopsAtPc_continueExit (by simp))
    · obtain rfl := Except.ok.inj hstep
      exact Or.inl ⟨by simp, by simp⟩

/-- Every stop reply of a run. -/
theorem stopsAtPc_of_runStep {n : Nat} {debugMode : Bool} {e : Event} {s s' : Session}
    (h : MachineInv n s.world.toTarget) (hrun : s.Running)
    (hstep : sessionStep debugMode e s = .ok s') : s'.Running ∨ StopsAtPc s'.world := by
  cases hturn : s.begunTurn debugMode e with
  | none => exact stopsAtPc_without_turn hrun hturn hstep
  | some turn =>
    obtain ⟨k, v⟩ := turn
    obtain ⟨hk, hv⟩ := h.begunTurn hturn
    have hcases := runStep_of_begunTurn hturn hstep
    split_ifs at hcases
    · rw [hcases]
      have hbreak : MachineInv n
          (v.updDbg fun d => { d with breakpointHit := true }).toTarget :=
        ⟨hv.sys, hv.threads.of_eq rfl rfl⟩
      exact Or.inr (stopsAtPc_handleHartStop hbreak hk 5)
    · have hcpu : MachineInv n (v.cpuStep k).toTarget := hv.sysCpuStep _ hk
      rcases hcases with ⟨singleStep, signal, -, rfl⟩ | ⟨rfl, -⟩
      · have hstop : MachineInv n
            ((v.cpuStep k).updDbg fun d => { d with singleStep := singleStep }).toTarget :=
          ⟨hcpu.sys, hcpu.threads.of_eq rfl rfl⟩
        exact Or.inr (stopsAtPc_handleHartStop hstop hk signal)
      · exact Or.inl ⟨by simp, by simp⟩

/-- The program counter in a stop reply and the one that `p20` then returns are the same text, and
are decoded alike, if and only if its bytes are a palindrome; and the stop replies of the emulator
are for the program counter that `p20` returns. -/
theorem pcField_eq_iff (x : Xlen) (σ : Type) (cb : GdbCallbacks x σ)
    (regs : Target x σ → Nat → GdbReg x) :
    (IsRegisterFile cb regs → ∀ (fuel : Nat) (w : World x σ) (signal : Int), Ready w.stub →
        ∀ pc, regs w.toTarget 32 = pc → ExpeditesPc w.dbg pc →
          ∃ (field reply : List Byte) (w' : World x σ),
            (gdbStubSendStopReason w signal pc).stub.output = w.stub.output ++
              [frame (stopReplyPrefix w.dbg.multiprocessActive signal w.dbg.replyThread ++
                (ascii "20:" ++ field ++ ascii ";"))] ∧
            Exchanges fuel cb (gdbStubSendStopReason w signal pc) (ascii "p20") reply w' ∧
            (field = reply ↔ (addrBytes pc).reverse = addrBytes pc) ∧
            (parseHexLe x field x.regHexChars = .ok pc ↔
              (addrBytes pc).reverse = addrBytes pc)) ∧
    ∀ (debugMode : Bool) (n : Nat) (packets : List (List Byte)) (e : Event) (s s' : Session),
      validHartCount n → SessionRun debugMode n packets s → s.Running →
        sessionStep debugMode e s = .ok s' → s'.Running ∨ StopsAtPc s'.world := by
  constructor
  · rintro hcb fuel w signal hready pc rfl hfield
    have hstub : Ready (gdbStubSendStopReason w signal (regs w.toTarget 32)).stub := by
      rw [stub_gdbStubSendStopReason]
      exact ⟨hready.connected, hready.consecutiveFailures⟩
    obtain ⟨w', hreply, -, -⟩ := exchanges_p hcb fuel hstub (n := 32) le_rfl
    rw [toTarget_gdbStubSendStopReason signal hfield] at hreply
    exact ⟨_, _, w', output_gdbStubSendStopReason signal hfield, hreply,
      addrText_eq_encodeHex_iff _, parseHexLe_addrText_eq_iff _⟩
  · intro debugMode n packets e s s' hn hrun hrunning hstep
    have hpos : 0 < n := by
      refine Nat.pos_of_ne_zero ?_
      rintro rfl
      exact absurd hn (by decide)
    exact stopsAtPc_of_runStep (machineInv_of_sessionRun hpos hrun) hrunning hstep

/-- One hart that executes its first instruction, and a packet that reads the program counter. -/
def steppedPcSession : Session := loadedSession 1 (frame (ascii "s") ++ frame (ascii "p20"))

/-- One hart at an address whose bytes are a palindrome. -/
def palindromeWorld : EmuWorld :=
  let w := (loadedSession 1 []).world
  w.withTarget (w.toTarget.updHart 0 fun c => { c with pc := 0x80000080 })

theorem pcField_eq_palindromeWorld :
    (∃ field w', (gdbStubSendStopReason palindromeWorld 5 0x80000080).stub.output =
      palindromeWorld.stub.output ++ [frame (ascii "T05thread:1;" ++
        (ascii "20:" ++ field ++ ascii ";"))] ∧
      Exchanges 0 emuCallbacks (gdbStubSendStopReason palindromeWorld 5 0x80000080) (ascii "p20")
        field w') ∧
      StopsAtPc (steppedPcSession.after false [.quiet, .quiet]).world := by
  constructor
  · have hpc : gdbReadReg palindromeWorld.toTarget 32 = 0x80000080 := by decide +kernel
    obtain ⟨field, reply, w', hout, hreply, hiff, -⟩ := (pcField_eq_iff .x32 Emu
      emuCallbacks gdbReadReg).1 isRegisterFile_emuCallbacks 0 palindromeWorld 5
      ⟨by decide +kernel, by decide +kernel⟩ 0x80000080 hpc
      ⟨by decide +kernel, by decide +kernel, by decide⟩
    obtain rfl := hiff.mpr (by decide +kernel)
    have hfront : stopReplyPrefix palindromeWorld.dbg.multiprocessActive 5
        palindromeWorld.dbg.replyThread = ascii "T05thread:1;" := by decide +kernel
    rw [hfront] at hout
    exact ⟨field, w', hout, hreply⟩
  · have hrun : SessionRun false 1 [] steppedPcSession := sessionRun_loadedSession _ _ _
    have hstep : sessionStep false .quiet steppedPcSession = .ok _ :=
      sessionStep_next (by decide +kernel)
    refine ((pcField_eq_iff .x32 Emu emuCallbacks gdbReadReg).2 false 1 _ .quiet
      (steppedPcSession.next false .quiet) _ (by decide) (hrun.step .quiet hstep)
      ⟨by decide +kernel, by decide +kernel⟩
      (sessionStep_next (by decide +kernel))).resolve_left fun hrunning => ?_
    exact absurd hrunning.1 (by decide +kernel)

/-- The stop reply and the packet give it in opposite byte orders. -/
theorem pcField_ne_steppedPcSession :
    SessionRun false 1 [] steppedPcSession ∧
      steppedPcSession.steps false [.quiet, .quiet, .quiet] ∧
      (steppedPcSession.after false [.quiet, .quiet, .quiet]).world.stub.output =
        [[chr '+'], frame (ascii "T05thread:1;20:80000004;"), [chr '+'],
          frame (ascii "04000080")] := by
  exact ⟨sessionRun_loadedSession _ _ _, by decide +kernel, by decide +kernel⟩

end Rv32Gdb
