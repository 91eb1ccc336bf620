import Rv32Gdb.Equiv.DebugAccess
import Rv32Gdb.Equiv.DebugServer
import Rv32Gdb.Equiv.Memory

/-!
# The stub is a debug server

`implements_debugService`: over any callbacks that are a debug target, a call of `gdb_stub_process`
on the packet of a command does what `debugService` does for the command, in either width.
`conversation` is the consequence for any number of commands in a row, and
`isDebugTarget_emuCallbacks` says that the callbacks of the emulator are a debug target, for any
number of harts and the addresses of the RAM.
-/

namespace Rv32Gdb

variable {x : Xlen} {σ : Type}

/-! ### Handlers -/

theorem ShowsView.trans {I : σ → Prop} {view : σ → TargetView x} {t t' t'' : Target x σ}
    {v v' : TargetView x} (h : ShowsView I view t v t') (h' : ShowsView I view t' v' t'') :
    ShowsView I view t v' t'' :=
  ⟨h'.view, h'.inv, h'.breakpoints.trans h.breakpoints, h'.watchpoints.trans h.watchpoints,
    h'.continueThread.trans h.continueThread⟩

theorem ShowsView.refl {I : σ → Prop} {view : σ → TargetView x} {t : Target x σ} (h : I t.sim) :
    ShowsView I view t (view t.sim) t := ⟨rfl, h, rfl, rfl, rfl⟩

/-- The connection is as before, but for the packet buffer and the acknowledgement mode. -/
structure KeepsConnection (s s' : GdbStub) : Prop where
  connected : s'.connected = s.connected
  consecutiveFailures : s'.consecutiveFailures = s.consecutiveFailures
  input : s'.input = s.input
  output : s'.output = s.output

/-- A handler that does in `v` what the server does for a command, and sends the reply. -/
def CarriesOut (n : Nat) (I : σ → Prop) (view : σ → TargetView x) (v : World x σ) (c : Command x)
    (r : Result (World x σ)) : Prop :=
  ∃ w : World x σ, r = .ok (w.send ((v.server view).answer n c).2) ∧
    w.server view = ((v.server view).answer n c).1 ∧ I w.sim ∧ KeepsConnection v.stub w.stub

/-- A handler that only changes the target. -/
theorem carriesOut_of_shows {n : Nat} {I : σ → Prop} {view : σ → TargetView x} {v : World x σ}
    {c : Command x} {r : Result (World x σ)} {t : Target x σ} {u : TargetView x}
    (reply : List Byte) (ht : ShowsView I view v.toTarget u t)
    (hr : r = .ok ((v.withTarget t).send reply))
    (hc : (v.server view).answer n c = ({ v.server view with toTargetView := u }, reply)) :
    CarriesOut n I view v c r := by
  refine ⟨v.withTarget t, by rw [hr, hc], ?_, ht.inv, ⟨rfl, rfl, rfl, rfl⟩⟩
  rw [hc, World.server, World.toTarget_withTarget, ht.view, ht.breakpoints, ht.watchpoints,
    ht.continueThread]
  rfl

/-- A handler that changes nothing. -/
theorem carriesOut_of_eq {n : Nat} {I : σ → Prop} {view : σ → TargetView x} {v : World x σ}
    {c : Command x} {r : Result (World x σ)} (reply : List Byte) (hv : I v.sim)
    (hr : r = .ok (v.send reply)) (hc : (v.server view).answer n c = (v.server view, reply)) :
    CarriesOut n I view v c r :=
  carriesOut_of_shows reply (ShowsView.refl hv) hr hc

section Target

variable {cb : GdbCallbacks x σ} {n : Nat} {A : Set (GdbAddr x)} {I : σ → Prop}
  {view : σ → TargetView x} (h : IsDebugTarget cb n A I view)

include h

/-! ### Registers -/

theorem writeRegistersLoop_shows {values : Nat → GdbReg x} {v : World x σ} (hv : I v.sim)
    (hbuf : HasBytes v.stub.packetBuffer 1 (registersText values ++ [0#8])) (is : List Nat)
    (his : ∀ i ∈ is, i < 32) :
    ∃ t, writeRegistersLoop cb is v = .ok (v.withTarget t) ∧
      ShowsView I view v.toTarget
        ((view v.sim).updSelected fun r j => if j ∈ is ∧ j ≠ 0 then values j else r j) t := by
  induction is generalizing v with
  | nil =>
    refine ⟨v.toTarget, rfl, ?_⟩
    have hnone : ((view v.sim).updSelected fun r j =>
        if j ∈ ([] : List Nat) ∧ j ≠ 0 then values j else r j) = view v.sim := by
      simp [TargetView.updSelected, TargetView.selected]
    rw [hnone]
    exact ShowsView.refl hv
  | cons i is ih =>
    have hi := his i List.mem_cons_self
    set v₁ := v.act fun c t => cb.writeReg c t i (values i) with hv₁
    have hone : ShowsView I view v.toTarget ((view v.sim).setReg i (values i)) v₁.toTarget :=
      h.writeReg _ _ _ _ hv hi
    obtain ⟨t, hloop, ht⟩ := ih (v := v₁) hone.inv hbuf fun j hj =>
      his j (List.mem_cons_of_mem _ hj)
    refine ⟨t, ?_, ?_⟩
    · rw [writeRegistersLoop, parse_registersText hbuf hi.le]
      exact hloop
    · have hall : ((view v₁.sim).updSelected fun r j =>
          if j ∈ is ∧ j ≠ 0 then values j else r j) =
          (view v.sim).updSelected fun r j =>
            if j ∈ i :: is ∧ j ≠ 0 then values j else r j := by
        rw [hone.view, TargetView.setReg, TargetView.updSelected_updSelected]
        congr 1
        funext r j
        by_cases hj : j = i
        · by_cases hmem : i ∈ is <;> by_cases hzero : i = 0 <;> simp [hj, hmem, hzero]
        · simp [hj]
      rw [← hall]
      exact hone.trans ht

theorem carriesOut_writeRegisters {values : Nat → GdbReg x} {v : World x σ} (hv : I v.sim)
    (hbuf : HasBytes v.stub.packetBuffer 1 (registersText values ++ [0#8])) :
    CarriesOut n I view v (.writeRegisters values) (handleWriteRegisters cb v) := by
  obtain ⟨t, hloop, ht⟩ := writeRegistersLoop_shows h hv hbuf (List.range 32) fun i hi =>
    List.mem_range.mp hi
  have hpc := h.setPc v.stub.connected t (values 32) ht.inv
  rw [ht.view, TargetView.setReg, TargetView.updSelected_updSelected] at hpc
  have hall : ((view v.sim).updSelected fun r j =>
      if j = 32 ∧ 32 ≠ 0 then values 32
      else if j ∈ List.range 32 ∧ j ≠ 0 then values j else r j) =
        (view v.sim).setRegs values := by
    rw [TargetView.setRegs]
    congr 1
    funext r j
    by_cases hj : j = 32
    · rw [if_pos ⟨hj, by decide⟩, if_pos (by omega), hj]
    · rw [if_neg fun hand => hj hand.1]
      exact if_congr (by rw [List.mem_range]; omega) rfl rfl
  rw [hall] at hpc
  refine carriesOut_of_shows (ascii "OK") (ht.trans hpc) ?_ rfl
  have hparse := parse_registersText hbuf le_rfl
  rw [handleWriteRegisters, hloop]
  show (parseHexLe x (cstr v.stub.packetBuffer (1 + 32 * x.regHexChars)) x.regHexChars >>= _) = _
  rw [hparse]
  rfl

theorem carriesOut_readRegister {v : World x σ} (hv : I v.sim) (i : Nat) :
    CarriesOut n I view v (.readRegister i) (perform cb (.readRegister i) v) := by
  have hbytes := regHexBytes_le x
  by_cases hi : i ≤ 32
  · have hread : (if (i : Int) < 32 then v.call fun c t => cb.readReg c t (i : Int).toNat
        else v.call cb.getPc) = ((view v.sim).selected i, v) := by
      by_cases hlt : i < 32
      · rw [if_pos (by omega), World.call, Int.toNat_natCast, h.registers.readReg _ _ _ hlt]
        rfl
      · obtain rfl : i = 32 := by omega
        rw [if_neg (by omega), World.call, h.registers.getPc]
        rfl
    obtain ⟨p, hpush, hdata⟩ := (CharArray.empty 32).pushAll_of_le
      (encodeHex ((view v.sim).selected i) x.regHexBytes) (by
        rw [length_encodeHex]
        simp only [CharArray.empty, List.length_nil]
        omega)
    rw [CharArray.empty, List.nil_append] at hdata
    have hlen : p.data.length < 32 := by
      rw [hdata, length_encodeHex]
      omega
    refine carriesOut_of_eq (encodeHex ((view v.sim).selected i) x.regHexBytes) hv ?_ ?_
    · rw [perform, if_neg (by omega)]
      simp only [hread]
      rw [hpush]
      show (p.terminate >>= fun response => Except.ok (v.send response)) = _
      rw [p.terminate_of_lt hlen, hdata]
      rfl
    · rw [DebugServer.answer, if_pos hi]
      rfl
  · refine carriesOut_of_eq (ascii "E01") hv (if_pos (by omega)) ?_
    rw [DebugServer.answer, if_neg hi]
    rfl

theorem carriesOut_writeRegister {v : World x σ} (hv : I v.sim) (i value : Nat) :
    CarriesOut n I view v (.writeRegister i (BitVec.ofNat x.bits value))
      (perform cb (.writeRegister i value) v) := by
  by_cases hi : i ≤ 32
  · refine carriesOut_of_shows (u := (view v.sim).setReg i (BitVec.ofNat x.bits value))
      (t := if i < 32 then cb.writeReg v.stub.connected v.toTarget i (BitVec.ofNat x.bits value)
        else cb.setPc v.stub.connected v.toTarget (BitVec.ofNat x.bits value))
      (ascii "OK") ?_ ?_ ?_
    · by_cases hlt : i < 32
      · rw [if_pos hlt]
        exact h.writeReg _ _ _ _ hv hlt
      · obtain rfl : i = 32 := by omega
        rw [if_neg hlt]
        exact h.setPc _ _ _ hv
    · rw [perform, if_neg (by omega)]
      simp only [Int.toNat_natCast]
      by_cases hlt : i < 32
      · rw [if_pos hlt, if_pos (by omega)]
        rfl
      · rw [if_neg hlt, if_neg (by omega)]
        rfl
    · rw [DebugServer.answer, if_pos hi, decide_eq_true hi]
      rfl
  · refine carriesOut_of_eq (ascii "E01") hv (if_pos (by omega)) ?_
    rw [DebugServer.answer, if_neg hi, decide_eq_false hi]
    rfl

/-! ### Memory -/

theorem readMemoryLoop_shows (addr : GdbAddr x) {v : World x σ} (hv : I v.sim) (m i : Nat)
    (hA : ∀ k < m, addr + BitVec.ofNat x.bits (i + k) ∈ A) (p : CharArray gdbBufferSize)
    (hroom : p.data.length + 2 * m ≤ gdbBufferSize) :
    ∃ t p', readMemoryLoop cb addr m i v p = .ok (v.withTarget t, p') ∧
      ShowsView I view v.toTarget (view v.sim) t ∧
      p'.data = p.data ++ ((List.range' i m).map fun k =>
        (view v.sim).mem (addr + BitVec.ofNat x.bits k)).flatMap hexByte := by
  induction m generalizing i v p with
  | zero => exact ⟨v.toTarget, p, rfl, ShowsView.refl hv, by simp⟩
  | succ m ih =>
    set r := cb.readMem v.stub.connected v.toTarget (addr + BitVec.ofNat x.bits i) 1 with hr
    obtain ⟨hbyte, hshows⟩ := h.readMem v.stub.connected v.toTarget _ hv (hA 0 (Nat.succ_pos m))
    rw [Nat.add_zero, ← hr] at hbyte hshows
    obtain ⟨p₁, hpush, hdata⟩ := p.pushAll_of_le (hexByte (r.1.setWidth 8)) (by
      rw [length_hexByte]
      omega)
    have hlen : p₁.data.length = p.data.length + 2 := by
      rw [hdata, List.length_append, length_hexByte]
    obtain ⟨t, p', hloop, ht, hdata'⟩ := ih (i := i + 1) (v := v.withTarget r.2) hshows.inv
      (fun k hk => by
        have hmem := hA (k + 1) (by omega)
        rwa [← Nat.add_assoc, Nat.add_right_comm] at hmem) p₁ (by omega)
    rw [World.toTarget_withTarget, hshows.view] at ht hdata'
    refine ⟨t, p', ?_, hshows.trans ht, ?_⟩
    · rw [readMemoryLoop]
      show (p.pushAll (hexByte (r.1.setWidth 8)) >>= fun p =>
        readMemoryLoop cb addr m (i + 1) (v.withTarget r.2) p) = _
      rw [hpush]
      exact hloop
    · rw [hdata', hdata, hbyte, List.range'_succ, List.map_cons, List.flatMap_cons,
        List.append_assoc]

theorem carriesOut_readMemory {v : World x σ} (hv : I v.sim) {addr len : Nat}
    (hA : (Command.readMemory (BitVec.ofNat x.bits addr) len).Within A) :
    CarriesOut n I view v (.readMemory (BitVec.ofNat x.bits addr) len)
      (perform cb (.readMemory addr len) v) := by
  rcases hA with hlarge | ⟨hsmall, hA⟩
  · refine carriesOut_of_eq (ascii "E02") hv (if_pos hlarge) ?_
    rw [DebugServer.answer, if_pos hlarge]
  · obtain ⟨t, p, hloop, ht, hdata⟩ := readMemoryLoop_shows h (BitVec.ofNat x.bits addr) hv
      len 0 (by simpa using hA) (CharArray.empty gdbBufferSize) (by
        simp only [CharArray.empty, List.length_nil, gdbBufferSize]
        omega)
    rw [CharArray.empty, List.nil_append, ← List.range_eq_range'] at hdata
    have hlen : p.data.length < gdbBufferSize := by
      rw [hdata, length_flatMap_hexByte, List.length_map, List.length_range, gdbBufferSize]
      omega
    refine carriesOut_of_shows p.data ht ?_ ?_
    · rw [perform, if_neg (by simp only [gdbBufferSize]; omega), hloop]
      show (p.terminate >>= fun response => Except.ok ((v.withTarget t).send response)) = _
      rw [p.terminate_of_lt hlen]
      rfl
    · rw [DebugServer.answer, if_neg (by omega), hdata]
      rfl

theorem writeBytes_shows {addr : GdbAddr x} (c : Bool) {t : Target x σ} (ht : I t.sim) (i : Nat)
    (d : List Byte) (hA : ∀ k < d.length, addr + BitVec.ofNat x.bits (i + k) ∈ A) :
    ShowsView I view t { view t.sim with mem := ByteMemory.storeAll (view t.sim).mem addr i d }
      (writeBytes cb c addr i d t) := by
  induction d generalizing i t with
  | nil => exact ShowsView.refl ht
  | cons b d ih =>
    have hone := h.writeMem c t _ b ht (hA 0 (by simp))
    rw [Nat.add_zero] at hone
    have hrest := ih hone.inv (i + 1) fun k hk => by
      have hmem := hA (k + 1) (by simpa using hk)
      rwa [← Nat.add_assoc, Nat.add_right_comm] at hmem
    rw [hone.view] at hrest
    exact hone.trans hrest

/-- Both write commands write the same. -/
theorem carriesOut_writeBytes {v : World x σ} (hv : I v.sim) {addr : GdbAddr x} {d : List Byte}
    (hA : (Command.writeMemory addr d).Within A) {r : Result (World x σ)}
    (hr : r = .ok ((v.withTarget (writeBytes cb v.stub.connected addr 0 d v.toTarget)).send
      (ascii "OK"))) : CarriesOut n I view v (.writeMemory addr d) r :=
  carriesOut_of_shows (ascii "OK") (writeBytes_shows h _ hv 0 d fun k hk => by
    rw [Nat.zero_add]
    exact hA k hk) hr rfl

theorem carriesOut_writeMemory {v : World x σ} (hv : I v.sim) {addr len data : Nat}
    {digits : List Byte}
    (hA : (Command.writeMemory (BitVec.ofNat x.bits addr) (hexPairs digits)).Within A)
    (hlen : digits.length = 2 * len) (hbuf : 0 < len → HasBytes v.stub.packetBuffer data digits) :
    CarriesOut n I view v (.writeMemory (BitVec.ofNat x.bits addr) (hexPairs digits))
      (perform cb (.writeMemory addr len data) v) := by
  refine carriesOut_writeBytes h hv hA ?_
  rw [perform]
  cases len with
  | zero =>
    obtain rfl := List.length_eq_zero_iff.mp hlen
    rfl
  | succ len =>
    rw [writeMemoryLoop_of_hasBytes cb _ data (i := 0) (hbuf (Nat.succ_pos len)) hlen]
    rfl

theorem carriesOut_writeMemoryBinary {v : World x σ} (hv : I v.sim) {addr : Nat} {d : List Byte}
    (hA : (Command.writeMemory (BitVec.ofNat x.bits addr) d).Within A) (hne : d ≠ [])
    (hlen : d.length ≤ gdbBufferSize) :
    CarriesOut n I view v (.writeMemory (BitVec.ofNat x.bits addr) d)
      (perform cb (.writeMemoryBinary addr d.length (encodeBinary d)) v) := by
  have hpos := List.length_pos_iff.mpr hne
  obtain ⟨dst, hdecode, hdst⟩ := decodeRspBinary_of_length_eq hlen
  refine carriesOut_writeBytes h hv hA ?_
  rw [perform, if_neg (by omega), hdecode, ← hdst]
  rfl

end Target

/-! ### Breakpoints and watchpoints -/

theorem map_points_setPoint {κ : Type} {cap : Nat} [DecidableEq κ] (t : SlotTable κ cap)
    (insert : Bool) (k : κ) :
    (if insert then t.insert k else t.remove k).map SlotTable.points =
      DebugServer.setPoint t.points insert k := by
  cases insert
  · exact t.points_remove k
  · exact t.points_insert k

/-- A handler that changes a table, or leaves it as it is. -/
theorem carriesOut_of_outcome {n : Nat} {I : σ → Prop} {view : σ → TargetView x} {v : World x σ}
    {c : Command x} {r : Bool × DebugState x} {s : DebugServer x} (hv : I v.sim)
    (hc : (v.server view).answer n c = (s, DebugServer.replyText r.1))
    (hs : (v.updDbg fun _ => r.2).server view = s) :
    CarriesOut n I view v c
      (.ok ((v.updDbg fun _ => r.2).send (if r.1 then ascii "OK" else ascii "E01"))) := by
  refine ⟨v.updDbg fun _ => r.2, ?_, by rw [hs, hc], hv, ⟨rfl, rfl, rfl, rfl⟩⟩
  rw [hc]
  rfl

theorem carriesOut_breakpoint {cb : GdbCallbacks x σ} {n : Nat} {I : σ → Prop}
    {view : σ → TargetView x} {v : World x σ} (hv : I v.sim) (insert : Bool) {type : Nat}
    (htype : type < 2) (addr len : Nat) :
    CarriesOut n I view v (.breakpoint insert (BitVec.ofNat x.bits addr))
      (perform cb (.breakpoint insert type addr len) v) := by
  set a : GdbAddr x := BitVec.ofNat x.bits addr
  have hpoints := map_points_setPoint v.dbg.breakpoints insert a
  have hrequest : breakpointRequest v.dbg insert type a (BitVec.ofNat x.bits len) =
      some (outcome v.dbg ((if insert then v.dbg.breakpoints.insert a
        else v.dbg.breakpoints.remove a).map fun t => { v.dbg with breakpoints := t })) := by
    rw [breakpointRequest, if_pos (by omega)]
    cases insert <;> rfl
  rw [perform, hrequest]
  refine carriesOut_of_outcome (s := { v.server view with
    breakpoints := (DebugServer.setPoint v.dbg.breakpoints.points insert a).getD
      v.dbg.breakpoints.points }) hv ?_ ?_
  · have haccepted : (DebugServer.setPoint v.dbg.breakpoints.points insert a).isSome =
        (if insert then v.dbg.breakpoints.insert a else v.dbg.breakpoints.remove a).isSome := by
      rw [← hpoints, Option.isSome_map]
    rw [outcome, Option.isSome_map, ← haccepted]
    rfl
  · rw [← hpoints]
    cases (if insert then v.dbg.breakpoints.insert a else v.dbg.breakpoints.remove a) <;> rfl

theorem carriesOut_watchpoint {cb : GdbCallbacks x σ} {n : Nat} {I : σ → Prop}
    {view : σ → TargetView x} {v : World x σ} (hv : I v.sim) (insert : Bool) {type : Nat}
    (htwo : 2 ≤ type) (hfour : type ≤ 4) (addr len : Nat) :
    CarriesOut n I view v (.watchpoint insert (addedKey (BitVec.ofNat x.bits addr)
        (BitVec.ofNat x.bits len) (watchpointType type)))
      (perform cb (.breakpoint insert type addr len) v) := by
  set key := addedKey (BitVec.ofNat x.bits addr) (BitVec.ofNat x.bits len)
    (watchpointType type) with hkey
  have hpoints := map_points_setPoint v.dbg.watchpoints insert key
  have hrequest : breakpointRequest v.dbg insert type (BitVec.ofNat x.bits addr)
      (BitVec.ofNat x.bits len) =
      some (outcome v.dbg ((if insert then v.dbg.watchpoints.insert key
        else v.dbg.watchpoints.remove key).map fun t => { v.dbg with watchpoints := t })) := by
    have hagain := addedKey_addedKey (BitVec.ofNat x.bits addr) (BitVec.ofNat x.bits len)
      (watchpointType type)
    rw [breakpointRequest, if_neg (by omega), if_pos (by omega)]
    cases insert
    · rfl
    · rw [if_pos rfl, if_pos rfl, gdbStubAddWatchpoint, hkey, ← hagain]
      rfl
  rw [perform, hrequest]
  refine carriesOut_of_outcome (s := { v.server view with
    watchpoints := (DebugServer.setPoint v.dbg.watchpoints.points insert key).getD
      v.dbg.watchpoints.points }) hv ?_ ?_
  · have haccepted : (DebugServer.setPoint v.dbg.watchpoints.points insert key).isSome =
        (if insert then v.dbg.watchpoints.insert key else v.dbg.watchpoints.remove key).isSome := by
      rw [← hpoints, Option.isSome_map]
    rw [outcome, Option.isSome_map, ← haccepted]
    rfl
  · rw [← hpoints]
    cases (if insert then v.dbg.watchpoints.insert key else v.dbg.watchpoints.remove key) <;> rfl

/-! ### Threads and modes -/

theorem dispatch_setThread (fuel : Nat) (cb : GdbCallbacks x σ) {w : World x σ}
    (h : byteAt w.stub.packetBuffer 0 = chr 'H') :
    dispatch fuel cb w = andReturnZero (.ok (handleSetThread cb w)) := by
  unfold dispatch
  simp only [h]
  rfl

theorem dispatch_threadAlive (fuel : Nat) (cb : GdbCallbacks x σ) {w : World x σ}
    (h : byteAt w.stub.packetBuffer 0 = chr 'T') :
    dispatch fuel cb w = andReturnZero (.ok (handleThreadAlive cb w)) := by
  unfold dispatch
  simp only [h]
  rfl

theorem dispatch_generalSet (fuel : Nat) (cb : GdbCallbacks x σ) {w : World x σ}
    (h : byteAt w.stub.packetBuffer 0 = chr 'Q') :
    dispatch fuel cb w = andReturnZero (.ok (handleGeneralSet w)) := by
  unfold dispatch
  simp only [h]
  rfl

theorem nul_notMem_idText (t : IdText) : 0#8 ∉ t.text := by
  cases t with
  | all => decide
  | number digits _ hdigits => exact fun hmem => (ne_of_isxdigit (hdigits _ hmem)).2.2.2 rfl

theorem nul_notMem_threadSpec (t : ThreadSpec) : 0#8 ∉ t.text := by
  have hp : 0#8 ≠ chr 'p' := by decide
  have hdot : 0#8 ≠ chr '.' := by decide
  cases t <;> simp [ThreadSpec.text, nul_notMem_idText, hp, hdot]

section Threads

variable {cb : GdbCallbacks x σ} {n : Nat} {A : Set (GdbAddr x)} {I : σ → Prop}
  {view : σ → TargetView x} (h : IsDebugTarget cb n A I view)

include h

theorem carriesOut_selectThread {v : World x σ} (hv : I v.sim) {t : ThreadSpec} (hfits : t.Fits)
    (hpid : threadPidValid t.ids.1) (hpos : 0 < t.ids.2)
    (hbuf : HasBytes v.stub.packetBuffer 0 (ascii "Hg" ++ t.text ++ [0#8])) :
    CarriesOut n I view v (.selectThread t.ids.2) (.ok (handleSetThread cb v)) := by
  have hop : byteAt v.stub.packetBuffer 1 = chr 'g' := hbuf.tail.head
  have htext : HasBytes v.stub.packetBuffer 2 (t.text ++ [0#8]) := hbuf.tail.tail
  have hspec : parseThreadSpec (cstr v.stub.packetBuffer 2) = (t.ids.1, t.ids.2) := by
    rw [cstr_of_hasBytes htext (nul_notMem_threadSpec t), parseThreadSpec_of_fits hfits]
  have hselect : selectedThread cb v t.ids.2 = (t.ids.2, v) := if_neg (not_le.mpr hpos)
  have hvalid : (!threadPidValid t.ids.1) = false := by rw [hpid]; rfl
  have hhandle : handleSetThread cb v =
      if t.ids.2 < 1 ∨ t.ids.2 > n then v.send (ascii "E01")
      else ((v.updDbg fun d => { d with currentThread := t.ids.2 }).actOpt
        (cb.setFocusHart.map fun f c u => f c u (t.ids.2 - 1))).send (ascii "OK") := by
    unfold handleSetThread
    simp only [h.getNumHarts v hv, hop, hspec, hselect, hvalid]
    rfl
  rw [hhandle]
  by_cases hrange : 1 ≤ t.ids.2 ∧ t.ids.2 ≤ n
  · obtain ⟨k, hk⟩ := Int.eq_ofNat_of_zero_le (show 0 ≤ t.ids.2 - 1 by omega)
    set w := v.updDbg fun d => { d with currentThread := t.ids.2 } with hw
    obtain ⟨u, hact, hu⟩ := h.setFocusHart w k hv (by omega)
    rw [if_neg (by omega), hk, hact]
    refine ⟨w.withTarget u, ?_, ?_, hu.inv, ⟨rfl, rfl, rfl, rfl⟩⟩
    · rw [DebugServer.answer, decide_eq_true hrange]
      rfl
    · have hnat : (t.ids.2 - 1).toNat = k := by rw [hk, Int.toNat_natCast]
      rw [DebugServer.answer, if_pos hrange, hnat, World.server, World.toTarget_withTarget, hu.view,
        hu.breakpoints, hu.watchpoints, hu.continueThread]
      rfl
  · rw [if_pos (by omega)]
    refine carriesOut_of_eq (ascii "E01") hv rfl ?_
    rw [DebugServer.answer, if_neg hrange, decide_eq_false hrange]
    rfl

theorem carriesOut_continueThread {v : World x σ} (hv : I v.sim) {t : ThreadSpec} (hfits : t.Fits)
    (hpid : threadPidValid t.ids.1)
    (hbuf : HasBytes v.stub.packetBuffer 0 (ascii "Hc" ++ t.text ++ [0#8])) :
    CarriesOut n I view v (.continueThread t.ids.2) (.ok (handleSetThread cb v)) := by
  have hop : byteAt v.stub.packetBuffer 1 = chr 'c' := hbuf.tail.head
  have htext : HasBytes v.stub.packetBuffer 2 (t.text ++ [0#8]) := hbuf.tail.tail
  have hspec : parseThreadSpec (cstr v.stub.packetBuffer 2) = (t.ids.1, t.ids.2) := by
    rw [cstr_of_hasBytes htext (nul_notMem_threadSpec t), parseThreadSpec_of_fits hfits]
  have hvalid : (!threadPidValid t.ids.1) = false := by rw [hpid]; rfl
  set ct := resolveContinueThread t.ids.1 t.ids.2
  have hct : ct = if t.ids.2 ≤ 0 then -1 else t.ids.2 := if_neg (by rw [hvalid]; decide)
  have haccepted : ct ≠ -2 := by
    rw [hct]
    split_ifs <;> omega
  have hhandle : handleSetThread cb v =
      (v.updDbg fun d => { d with continueThread := ct }).send (ascii "OK") := by
    unfold handleSetThread
    simp only [h.getNumHarts v hv, hop, hspec, hvalid]
    exact if_neg haccepted
  refine ⟨v.updDbg fun d => { d with continueThread := ct }, by rw [hhandle]; rfl, ?_, hv,
    ⟨rfl, rfl, rfl, rfl⟩⟩
  -- a thread is continued if it is named by a positive number
  have hcontinued : (if 1 ≤ ct then some ct else none) =
      if 1 ≤ t.ids.2 then some t.ids.2 else none := by
    by_cases hpos : 1 ≤ t.ids.2
    · rw [hct.trans (if_neg (by omega))]
    · rw [hct.trans (if_pos (by omega)), if_neg hpos]
      rfl
  show ({ v.server view with continued := if 1 ≤ ct then some ct else none } : DebugServer x) = _
  rw [hcontinued]
  rfl

theorem carriesOut_threadAlive {v : World x σ} (hv : I v.sim) {t : ThreadSpec} (hfits : t.Fits)
    (hpid : threadPidValid t.ids.1)
    (hbuf : HasBytes v.stub.packetBuffer 0 (chr 'T' :: t.text ++ [0#8])) :
    CarriesOut n I view v (.threadAlive t.ids.2) (.ok (handleThreadAlive cb v)) := by
  have hspec : parseThreadSpec (cstr v.stub.packetBuffer 1) = (t.ids.1, t.ids.2) := by
    rw [cstr_of_hasBytes hbuf.tail (nul_notMem_threadSpec t), parseThreadSpec_of_fits hfits]
  have hvalid : (!threadPidValid t.ids.1) = false := by rw [hpid]; rfl
  have hhandle : handleThreadAlive cb v =
      if 1 ≤ t.ids.2 ∧ t.ids.2 ≤ n then v.send (ascii "OK") else v.send (ascii "E01") := by
    unfold handleThreadAlive
    simp only [h.getNumHarts v hv, hspec, hvalid]
    rfl
  refine carriesOut_of_eq (DebugServer.replyText (1 ≤ t.ids.2 ∧ t.ids.2 ≤ n)) hv ?_ rfl
  rw [hhandle]
  by_cases hrange : 1 ≤ t.ids.2 ∧ t.ids.2 ≤ n
  · rw [if_pos hrange, decide_eq_true hrange]
    rfl
  · rw [if_neg hrange, decide_eq_false hrange]
    rfl

end Threads

theorem carriesOut_startNoAckMode {n : Nat} {I : σ → Prop} {view : σ → TargetView x}
    {v : World x σ} (hv : I v.sim)
    (hbuf : HasBytes v.stub.packetBuffer 0 (ascii "QStartNoAckMode" ++ [0#8])) :
    CarriesOut n I view v .startNoAckMode (.ok (handleGeneralSet v)) := by
  have htext : v.packetText = ascii "QStartNoAckMode" := cstr_of_hasBytes hbuf (by decide)
  refine ⟨{ v with stub := { v.stub with noAckMode := true } }, ?_, rfl, hv, ⟨rfl, rfl, rfl, rfl⟩⟩
  rw [handleGeneralSet, htext]
  rfl

/-! ### One packet -/

theorem length_answer_le (n : Nat) (s : DebugServer x) {A : Set (GdbAddr x)} {c : Command x}
    (hc : c.Within A) : (s.answer n c).2.length ≤ 4091 := by
  have hreply : ∀ b : Bool, (DebugServer.replyText b).length ≤ 4091 := by decide
  have hbytes := regHexBytes_le x
  cases c with
  | readRegisters =>
    show (registersText _).length ≤ 4091
    rw [length_registersText]
    omega
  | readRegister i =>
    show (if i ≤ 32 then _ else DebugServer.replyText false).length ≤ 4091
    split_ifs
    · rw [length_encodeHex]
      omega
    · exact hreply false
  | readMemory addr len =>
    show (if 2048 < len then ascii "E02" else _).length ≤ 4091
    split_ifs with hlarge
    · decide
    · rw [length_flatMap_hexByte, List.length_map, List.length_range]
      have hsmall := (hc.resolve_left hlarge).1
      omega
  | writeRegisters | writeMemory | continueThread | startNoAckMode => exact hreply true
  | writeRegister | breakpoint | watchpoint | selectThread | threadAlive => exact hreply _

section Target

variable {cb : GdbCallbacks x σ} {n : Nat} {A : Set (GdbAddr x)} {I : σ → Prop}
  {view : σ → TargetView x} (h : IsDebugTarget cb n A I view)

/-- The step of the service, from what the handler of a received packet does. -/
theorem implements_of_carriesOut {fuel : Nat} {w v : World x σ} {c : Command x} {p rest : List Byte}
    {s' : GdbStub} {r : Result (World x σ)} (hw : Ready w.stub)
    (hrecv : Received w.stub p rest s') (htarget : v.toTarget = w.toTarget)
    (hstub : KeepsConnection s' v.stub) (hack : v.stub.noAckMode = s'.noAckMode)
    (hproc : gdbStubProcess fuel cb w = andReturnZero r) (hwithin : c.Within A)
    (hc : CarriesOut n I view v c r) :
    ∃ w', (stubProgram fuel cb).call w w' ∧ (Ready w'.stub ∧ I w'.sim) ∧ w'.stub.input = rest ∧
      w'.stub.output = w.stub.output ++ ((debugService x n).step (w.server view) c).2 ∧
      w'.server view = ((debugService x n).step (w.server view) c).1 := by
  obtain ⟨u, rfl, hserver, hu, hkept⟩ := hc
  have hsame : v.server view = w.server view := by
    have hmode : v.stub.noAckMode = w.stub.noAckMode := by
      rw [hack, hrecv.eq]
    rw [World.server, World.server, htarget, hmode]
  have hreceived : s'.connected = w.stub.connected ∧ s'.consecutiveFailures = 0 ∧
      s'.input = rest ∧ s'.output = w.stub.output ++ w.stub.ack := by
    rw [hrecv.eq]
    exact ⟨rfl, rfl, rfl, rfl⟩
  obtain ⟨hconn, hfail, hinput, houtput⟩ := hreceived
  have hlen := length_answer_le n (v.server view) hwithin
  refine ⟨u.send ((v.server view).answer n c).2, hproc, ⟨⟨?_, ?_⟩, ?_⟩, ?_, ?_, ?_⟩
  · rw [World.send, sendPacket_of_le hlen]
    exact (hkept.connected.trans (hstub.connected.trans hconn)).trans hw.connected
  · rw [World.send, sendPacket_of_le hlen]
    show u.stub.consecutiveFailures < 50
    rw [hkept.consecutiveFailures, hstub.consecutiveFailures, hfail]
    decide
  · rw [World.toTarget_send]
    exact hu
  · rw [World.send, sendPacket_of_le hlen]
    exact hkept.input.trans (hstub.input.trans hinput)
  · rw [output_send_of_le _ hlen, hkept.output, hstub.output, houtput, List.append_assoc, hsame]
    rfl
  · have hsend : (u.send ((v.server view).answer n c).2).server view = u.server view := by
      rw [World.server, World.toTarget_send, World.send, sendPacket_of_le hlen]
      rfl
    rw [hsend, hserver, hsame]
    rfl

/-- A packet without numeric fields, or `G`. -/
theorem implements_of_dispatch {fuel : Nat} {w : World x σ} {c : Command x} {p rest : List Byte}
    (hw : Ready w.stub) (hin : Framed p rest w.stub.input) (hlen : p.length < gdbBufferSize)
    (hwithin : c.Within A)
    (hdispatch : ∀ v : World x σ, v.toTarget = w.toTarget →
      HasBytes v.stub.packetBuffer 0 (p ++ [0#8]) →
      ∃ r, dispatch fuel cb v = andReturnZero r ∧ CarriesOut n I view v c r) :
    ∃ w', (stubProgram fuel cb).call w w' ∧ (Ready w'.stub ∧ I w'.sim) ∧ w'.stub.input = rest ∧
      w'.stub.output = w.stub.output ++ ((debugService x n).step (w.server view) c).2 ∧
      w'.server view = ((debugService x n).step (w.server view) c).1 := by
  obtain ⟨s', hrecv, hproc⟩ := gdbStubProcess_framed fuel cb hw.connected hw.consecutiveFailures
    hin hlen
  obtain ⟨r, hr, hc⟩ := hdispatch { w with stub := s' } rfl hrecv.bytes
  exact implements_of_carriesOut (v := { w with stub := s' }) hw hrecv rfl ⟨rfl, rfl, rfl, rfl⟩ rfl
    (hproc.trans hr) hwithin hc

/-- A packet whose fields are numbers. -/
theorem implements_of_asks {fuel : Nat} {w : World x σ} {c : Command x} {k : NumericPacket}
    {t rest : List Byte} {q : Request} (hw : Ready w.stub)
    (hin : Framed (k.command :: t) rest w.stub.input)
    (hlen : (k.command :: t).length < gdbBufferSize) (hask : Asks x k t q) (hwithin : c.Within A)
    (hperform : ∀ v : World x σ, v.toTarget = w.toTarget → q.DataIn v.stub.packetBuffer
      (k.command :: t) → CarriesOut n I view v c (perform cb q v)) :
    ∃ w', (stubProgram fuel cb).call w w' ∧ (Ready w'.stub ∧ I w'.sim) ∧ w'.stub.input = rest ∧
      w'.stub.output = w.stub.output ++ ((debugService x n).step (w.server view) c).2 ∧
      w'.server view = ((debugService x n).step (w.server view) c).1 := by
  obtain ⟨s', buf, hrecv, hproc, hdata⟩ := gdbStubProcess_eq_answer fuel cb hw.connected
    hw.consecutiveFailures hin hlen
  have hread := readRequest_of_asks hask
  rw [hread] at hproc
  exact implements_of_carriesOut (v := ({ w with stub := s' } : World x σ).setBuffer buf) hw hrecv
    rfl ⟨rfl, rfl, rfl, rfl⟩ rfl hproc hwithin (hperform _ rfl (hdata q hread))

include h

/-- A call of `gdb_stub_process` on the packet of a command does what the server does. -/
theorem implements_debugService (fuel : Nat) :
    (stubProgram fuel cb).Implements (debugService x n) (World.server view)
      (fun w => Ready w.stub ∧ I w.sim) (Command.Sent A) := by
  rintro w c text rest ⟨hw, hI⟩ ⟨hwithin, p, hspells, hlen, hframed⟩ hinput
  have hin : Framed p rest w.stub.input := by
    rw [show w.stub.input = text ++ rest from hinput]
    exact hframed rest
  -- the packet is read from the socket, which the target does not see
  have hsim : ∀ {v : World x σ}, v.toTarget = w.toTarget → I v.sim := fun hv => by
    rw [hv]
    exact hI
  cases hspells with
  | readRegisters =>
    refine implements_of_dispatch hw hin hlen hwithin fun v hv hbuf =>
      ⟨_, dispatch_g fuel cb hbuf.head, ?_⟩
    exact carriesOut_of_eq _ (hsim hv) (handleReadRegisters_regs h.registers v) rfl
  | writeRegisters values =>
    refine implements_of_dispatch hw hin hlen hwithin fun v hv hbuf =>
      ⟨_, dispatch_G fuel cb hbuf.head, ?_⟩
    exact carriesOut_writeRegisters h (hsim hv) hbuf.tail
  | readRegister hn =>
    exact implements_of_asks (k := .p) hw hin hlen (.p hn) hwithin fun v hv _ =>
      carriesOut_readRegister h (hsim hv) _
  | writeRegister hn hdigits hhex =>
    exact implements_of_asks (k := .P) hw hin hlen (.P hn hdigits hhex) hwithin fun v hv _ =>
      carriesOut_writeRegister h (hsim hv) _ _
  | readMemory ha hl =>
    exact implements_of_asks (k := .m) hw hin hlen (.m ha hl) hwithin fun v hv _ =>
      carriesOut_readMemory h (hsim hv) hwithin
  | writeMemory ha hl hdigits hhex =>
    refine implements_of_asks (k := .M) hw hin hlen (.M ha hl) hwithin fun v hv hdata =>
      carriesOut_writeMemory h (hsim hv) hwithin hdigits fun hpos => ?_
    rename_i a l d addr len
    -- the data begin after the two fields and their separators
    have hdrop : (NumericPacket.command .M :: (a ++ chr ',' :: (l ++ chr ':' :: d))).drop
        (a.length + l.length + 3) = d := by
      rw [show NumericPacket.command .M :: (a ++ chr ',' :: (l ++ chr ':' :: d)) =
        (chr 'M' :: a ++ chr ',' :: l ++ [chr ':']) ++ d by simp [NumericPacket.command]]
      refine List.drop_left' ?_
      simp only [List.length_append, List.length_cons, List.length_nil]
      omega
    have hbytes := (hasBytes_append.mp (hdata hpos)).1
    rwa [hdrop] at hbytes
  | writeMemoryBinary ha hl hne hnul =>
    rename_i a l d addr
    -- the data hold no NUL and the escapes add none, so the handler sees them all
    have hself : (encodeBinary d).takeWhile (· ≠ 0#8) = encodeBinary d :=
      List.takeWhile_eq_self_iff.mpr fun c hc =>
        decide_eq_true fun he => zero_not_mem_encodeBinary hnul (he ▸ hc)
    have hsize : d.length ≤ gdbBufferSize := by
      have hencode := length_le_encodeBinary d
      simp only [List.length_cons, List.length_append] at hlen
      omega
    refine implements_of_asks (k := .X) hw hin hlen (.X ha hl) hwithin fun v hv _ => ?_
    rw [hself]
    exact carriesOut_writeMemoryBinary h (hsim hv) hwithin hne hsize
  | breakpoint insert ht htype ha hl =>
    cases insert with
    | false =>
      exact implements_of_asks (k := .z) hw hin hlen (.z ht ha hl) hwithin fun v hv _ =>
        carriesOut_breakpoint (hsim hv) false htype _ _
    | true =>
      exact implements_of_asks (k := .Z) hw hin hlen (.Z ht ha hl) hwithin fun v hv _ =>
        carriesOut_breakpoint (hsim hv) true htype _ _
  | watchpoint insert ht htwo hfour ha hl =>
    cases insert with
    | false =>
      exact implements_of_asks (k := .z) hw hin hlen (.z ht ha hl) hwithin fun v hv _ =>
        carriesOut_watchpoint (hsim hv) false htwo hfour _ _
    | true =>
      exact implements_of_asks (k := .Z) hw hin hlen (.Z ht ha hl) hwithin fun v hv _ =>
        carriesOut_watchpoint (hsim hv) true htwo hfour _ _
  | selectThread hfits hpid hpos =>
    refine implements_of_dispatch hw hin hlen hwithin fun v hv hbuf =>
      ⟨_, dispatch_setThread fuel cb hbuf.head, ?_⟩
    exact carriesOut_selectThread h (hsim hv) hfits hpid hpos hbuf
  | continueThread hfits hpid =>
    refine implements_of_dispatch hw hin hlen hwithin fun v hv hbuf =>
      ⟨_, dispatch_setThread fuel cb hbuf.head, ?_⟩
    exact carriesOut_continueThread h (hsim hv) hfits hpid hbuf
  | threadAlive hfits hpid =>
    refine implements_of_dispatch hw hin hlen hwithin fun v hv hbuf =>
      ⟨_, dispatch_threadAlive fuel cb hbuf.head, ?_⟩
    exact carriesOut_threadAlive h (hsim hv) hfits hpid hbuf
  | startNoAckMode =>
    refine implements_of_dispatch hw hin hlen hwithin fun v hv hbuf =>
      ⟨_, dispatch_generalSet fuel cb hbuf.head, ?_⟩
    exact carriesOut_startNoAckMode (hsim hv) hbuf

end Target

/-! ### The emulator -/

/-- What the debugger sees of the emulator; the memory is the RAM of hart `0`. -/
def emuView (s : Emu) : TargetView .x32 where
  regs h i :=
    if i < 32 then rv32CpuReadReg (s.sys.harts h) i else if i = 32 then (s.sys.harts h).pc else 0
  focus := s.sys.focusHart
  mem a := if InRam a then s.sys.ram 0 (ramOffset a) else 0

theorem mem_emuView_of_inRam (m : Machine) {a : Word} (ha : InRam a) :
    (emuView m.sim).mem a = m.sys.ram 0 (ramOffset a) := if_pos ha

theorem mem_emuView_of_not_inRam (m : Machine) {a : Word} (ha : ¬InRam a) :
    (emuView m.sim).mem a = 0 := if_neg ha

/-- A change of the registers of a hart. -/
theorem emuView_updHart (m : Machine) {f : Rv32Cpu → Rv32Cpu}
    (hmemory : ∀ c, (f c).memory = c.memory ∧ (f c).sharedRam = c.sharedRam) {i : Nat} {v : Word}
    (hregs : ∀ j, gdbReadReg (m.updHart m.sys.focusHart f) j =
      if j = i ∧ i ≠ 0 then v else gdbReadReg m j) :
    emuView (m.updHart m.sys.focusHart f).sim = (emuView m.sim).setReg i v := by
  have hhart := m.hart_updHart m.sys.focusHart f
  have hram : ∀ k off, (m.updHart m.sys.focusHart f).sys.ram k off = m.sys.ram k off := by
    have hsame : ∀ k, ((m.updHart m.sys.focusHart f).hart k).memory = (m.hart k).memory ∧
        ((m.updHart m.sys.focusHart f).hart k).sharedRam = (m.hart k).sharedRam := by
      intro k
      rw [hhart]
      split_ifs with hk
      · rw [hk]
        exact hmemory _
      · exact ⟨rfl, rfl⟩
    intro k off
    have howner : (m.updHart m.sys.focusHart f).sys.ramOwner k = m.sys.ramOwner k :=
      congrArg (·.getD k) (hsame k).2
    rw [Rv32System.ram, Rv32System.ram, howner]
    exact congrFun (hsame _).1 off
  refine TargetView.ext ?_ rfl ?_
  · funext h j
    show (if j < 32 then rv32CpuReadReg ((m.updHart m.sys.focusHart f).hart h) j
      else if j = 32 then ((m.updHart m.sys.focusHart f).hart h).pc else 0) =
        Function.update (emuView m.sim).regs m.sys.focusHart _ h j
    by_cases hh : h = m.sys.focusHart
    · subst hh
      rw [Function.update_self]
      exact hregs j
    · rw [Function.update_of_ne hh, hhart, if_neg hh]
      rfl
  · funext a
    show (if InRam a then (m.updHart m.sys.focusHart f).sys.ram 0 (ramOffset a) else 0) = _
    rw [hram]
    rfl

theorem memory_rv32CpuWriteReg (c : Rv32Cpu) (i : Nat) (v : Word) :
    (rv32CpuWriteReg c i v).memory = c.memory ∧
      (rv32CpuWriteReg c i v).sharedRam = c.sharedRam := by
  unfold rv32CpuWriteReg
  split_ifs <;> exact ⟨rfl, rfl⟩

/-- Accesses of the debugger, as it sees them. -/
theorem emuView_accessed {h : Nat} {hit : Option Word} {written : List Word} {m m' : Machine}
    (mem : Word → Byte) (hacc : Accessed h hit written m m')
    (hmem : ∀ a, InRam a → m'.sys.ram 0 (ramOffset a) = mem a)
    (hzero : ∀ a, ¬InRam a → mem a = 0) :
    emuView m'.sim = { emuView m.sim with mem := mem } := by
  refine TargetView.ext ?_ hacc.focusHart ?_
  · funext k i
    show (if i < 32 then rv32CpuReadReg (m'.hart k) i
      else if i = 32 then (m'.hart k).pc else 0) = _
    rw [hacc.hart k]
    rfl
  · funext a
    show (if InRam a then m'.sys.ram 0 (ramOffset a) else 0) = mem a
    split_ifs with ha
    · exact hmem a ha
    · exact (hzero a ha).symm

/-- A read of the debugger shows the byte and changes nothing that it sees. -/
theorem shows_sysReadMem {n : Nat} {m : Machine} (hs : SystemInv n m.sys) (c : Bool) {a : Word}
    (ha : InRam a) : (sysReadMem c m a 1).1.setWidth 8 = (emuView m.sim).mem a ∧
      ShowsView (fun s => SystemInv n s.sys) emuView m (emuView m.sim) (sysReadMem c m a 1).2 := by
  have hacc := accessed_sysReadMem c m a
  have hview : emuView (sysReadMem c m a 1).2.sim = emuView m.sim :=
    emuView_accessed (emuView m.sim).mem hacc
      (fun b hb => by rw [ram_sysReadMem, mem_emuView_of_inRam m hb])
      fun b hb => mem_emuView_of_not_inRam m hb
  have hbyte : (sysReadMem c m a 1).1.setWidth 8 = debugByte true m a :=
    congrArg (BitVec.setWidth 8) (fst_sysReadMem_congr (fun _ => rfl) true c a 1)
  refine ⟨?_, hview, hs.sysReadMem c a 1, ?_, ?_, ?_⟩
  · rw [hbyte, debugByte_of_inRam m ha, mem_emuView_of_inRam m ha]
  · rw [hacc.dbg]
  · rw [hacc.dbg]
  · rw [hacc.dbg]

/-- A write of the debugger changes the byte. -/
theorem shows_sysWriteMem {n : Nat} {m : Machine} (hs : SystemInv n m.sys) (c : Bool) {a : Word}
    (ha : InRam a) (b : Byte) :
    ShowsView (fun s => SystemInv n s.sys) emuView m
      { emuView m.sim with mem := Function.update (emuView m.sim).mem a b }
      (sysWriteMem c m m.sys.focusHart a (b.setWidth 32) 1) := by
  have hpos : 0 < n := Nat.zero_lt_of_lt hs.focusHart_lt
  have hacc := accessed_sysWriteMem c m m.sys.focusHart a (b.setWidth 32)
  have hwrites := Writes.sysWriteMem hs c hs.focusHart_lt a b
  refine ⟨emuView_accessed _ hacc (fun d hd => ?_) (fun d hd => ?_),
    hs.sysWriteMem c hs.focusHart_lt _ _ _, ?_, ?_, ?_⟩
  · rw [hwrites 0 hpos d hd, ByteMemory.lastAt_singleton, Function.update_apply]
    by_cases had : a = d
    · rw [if_pos had, if_pos had.symm]
      rfl
    · rw [if_neg had, if_neg (Ne.symm had), mem_emuView_of_inRam m hd]
      rfl
  · have hne : d ≠ a := by
      rintro rfl
      exact hd ha
    rw [Function.update_of_ne hne, mem_emuView_of_not_inRam m hd]
  · rw [hacc.dbg]
  · rw [hacc.dbg]
  · rw [hacc.dbg]

/-- Selecting a hart. -/
theorem shows_gdbSetFocusHart {n : Nat} {m : Machine} (hs : SystemInv n m.sys) {k : Nat}
    (hk : k < n) :
    ShowsView (fun s => SystemInv n s.sys) emuView m { emuView m.sim with focus := k }
      (gdbSetFocusHart m k) := by
  have hrange : 0 ≤ (k : Int) ∧ (k : Int) < m.sys.numHarts := by
    rw [hs.numHarts]
    omega
  have hsys : gdbSetFocusHart m k = m.updSys fun s => { s with focusHart := k } := by
    have hset : (if 0 ≤ (k : Int) ∧ (k : Int) < m.sys.numHarts then
        { m.sys with focusHart := (k : Int).toNat } else m.sys) =
        { m.sys with focusHart := k } := by
      rw [if_pos hrange, Int.toNat_natCast]
    exact congrArg (fun s => m.updSys fun _ => s) hset
  refine ⟨?_, hs.gdbSetFocusHart k, rfl, rfl, rfl⟩
  rw [hsys]
  rfl

/-- The callbacks of the emulator are a debug target, for the addresses of the RAM. -/
theorem isDebugTarget_emuCallbacks (n : Nat) :
    IsDebugTarget emuCallbacks n {a | InRam a} (fun s => SystemInv n s.sys) emuView where
  registers := isRegisterFile_emuCallbacks
  writeReg c t i v hs hi := by
    refine ⟨emuView_updHart t (fun c => ?_) fun j =>
      isRegisterFile_emuCallbacks.regs_writeReg c t i v j hi, SystemInv.gdbWriteReg hs i v, rfl,
      rfl, rfl⟩
    rw [if_pos hi]
    exact memory_rv32CpuWriteReg c i v
  setPc c t v hs := by
    refine ⟨emuView_updHart t (f := fun cpu => { cpu with pc := v }) (fun _ => ⟨rfl, rfl⟩)
      fun j => ?_, SystemInv.updHart hs _ fun _ hc => hc.setPc v, rfl, rfl, rfl⟩
    exact (isRegisterFile_emuCallbacks.regs_setPc c t v j).trans (if_congr (by simp) rfl rfl)
  readMem c t a hs ha := shows_sysReadMem hs c ha
  writeMem c t a b hs ha := shows_sysWriteMem hs c ha b
  getNumHarts w hs := congrArg (fun k : Nat => ((k : Int), w)) hs.numHarts
  setFocusHart w k hs hk := ⟨gdbSetFocusHart w.toTarget k, rfl, shows_gdbSetFocusHart hs hk⟩

/-! ### Conversations -/

/-- Over any callbacks that are a debug target, the commands that a client sends in a row are
answered as the debug server answers them. -/
theorem conversation {cb : GdbCallbacks x σ} {n : Nat} {A : Set (GdbAddr x)} {I : σ → Prop}
    {view : σ → TargetView x} (h : IsDebugTarget cb n A I view) (fuel : Nat) {w : World x σ}
    (hconn : w.stub.connected) (hfail : w.stub.consecutiveFailures < 50) (hI : I w.sim)
    (requests : List (Command x × List Byte)) (rest : List Byte)
    (hsent : ∀ r ∈ requests, r.1.Sent A r.2)
    (hin : w.stub.input = requests.flatMap Prod.snd ++ rest) :
    ∃ w', (stubProgram fuel cb).calls requests.length w w' ∧ I w'.sim ∧ w'.stub.input = rest ∧
      w'.stub.output = w.stub.output ++
        (debugService x n).sends (w.server view) (requests.map Prod.fst) ∧
      w'.server view = (debugService x n).after (w.server view) (requests.map Prod.fst) := by
  obtain ⟨w', hcalls, ⟨-, hI'⟩, hinput, houtput, hserver⟩ :=
    (implements_debugService h fuel).calls ⟨⟨hconn, hfail⟩, hI⟩ requests rest hsent hin
  exact ⟨w', hcalls, hI', hinput, houtput, hserver⟩

/-- Selecting the second hart of the emulator to look at and to continue, and writing and reading two
bytes. -/
theorem conversation_two :
    let w := (initSession 2 (frame (ascii "Hg2") ++ frame (ascii "Hc2") ++
      frame (ascii "M80001000,2:4142") ++ frame (ascii "m80001000,2"))).world
    ∃ w', (stubProgram 0 emuCallbacks).calls 4 w w' ∧ (w'.server emuView).continued = some 2 ∧
      w'.stub.output = [[chr '+'], frame (ascii "OK"), [chr '+'], frame (ascii "OK"), [chr '+'],
        frame (ascii "OK"), [chr '+'], frame (ascii "4142")] := by
  intro w
  have hfield : ∀ bits, 31 ≤ bits → IsField bits (ascii "2") 2 := fun bits hbits =>
    ⟨by decide, by decide, by decide, lt_of_lt_of_le (by decide : 2 < 2 ^ 31)
      (Nat.pow_le_pow_right (by decide) hbits)⟩
  have haddr : IsField Xlen.x32.bits (ascii "80001000") 0x80001000 :=
    ⟨by decide, by decide, by decide, by decide⟩
  have hram : ∀ k < 2, (0x80001000 : Word) + BitVec.ofNat 32 k ∈ {a | InRam a} := by
    intro k hk
    show InRam ((0x80001000 : Word) + BitVec.ofNat 32 k)
    have hcases : k = 0 ∨ k = 1 := by omega
    rcases hcases with rfl | rfl <;> decide
  have hfits : ThreadSpec.Fits (.thread (.number (ascii "2") (by decide) (by decide))) :=
    show (hexValue (ascii "2") : Int) < 2 ^ 31 by decide
  obtain ⟨w', hcalls, -, -, hout, hserver⟩ := conversation (isDebugTarget_emuCallbacks 2) 0 (w := w)
    rfl (by decide) (systemInv_initSystem (by decide))
    [(.selectThread 2, frame (ascii "Hg2")), (.continueThread 2, frame (ascii "Hc2")),
      (.writeMemory 0x80001000 [0x41, 0x42], frame (ascii "M80001000,2:4142")),
      (.readMemory 0x80001000 2, frame (ascii "m80001000,2"))] [] (by
        intro r hr
        simp only [List.mem_cons, List.not_mem_nil, or_false] at hr
        rcases hr with rfl | rfl | rfl | rfl
        · exact ⟨trivial, _, Spells.selectThread hfits (by decide) (by decide), by decide,
            framed_frame (by decide)⟩
        · exact ⟨trivial, _, Spells.continueThread hfits (by decide), by decide,
            framed_frame (by decide)⟩
        · exact ⟨hram, _, Spells.writeMemory (d := ascii "4142") haddr (hfield _ (by decide))
            (by decide) (by decide), by decide, framed_frame (by decide)⟩
        · exact ⟨Or.inr ⟨by decide, hram⟩, _, Spells.readMemory haddr (hfield _ (by decide)),
            by decide, framed_frame (by decide)⟩) (by decide +kernel)
  refine ⟨w', hcalls, ?_, hout.trans ?_⟩
  · rw [hserver]
    decide +kernel
  · decide +kernel

/-! ### Reading back -/

/-- The command writes to none of the addresses in `B`. -/
def Command.Spares (B : Set (GdbAddr x)) : Command x → Prop
  | .writeMemory addr data => ∀ k < data.length, addr + BitVec.ofNat x.bits k ∉ B
  | _ => True

/-- A command changes memory only where it writes. -/
theorem DebugServer.mem_answer (n : Nat) (s : DebugServer x) {c : Command x} {B : Set (GdbAddr x)}
    (hc : c.Spares B) {a : GdbAddr x} (ha : a ∈ B) : (s.answer n c).1.mem a = s.mem a := by
  cases c with
  | writeMemory addr data =>
    refine ByteMemory.storeAll_of_ne s.mem addr 0 data a fun k hk he => hc k hk ?_
    rw [Nat.zero_add] at he
    exact he ▸ ha
  | writeRegister i value =>
    show (if i ≤ 32 then { s with toTargetView := s.setReg i value } else s).mem a = s.mem a
    split_ifs <;> rfl
  | selectThread tid =>
    show (if 1 ≤ tid ∧ tid ≤ (n : Int) then { s with focus := (tid - 1).toNat } else s).mem a =
      s.mem a
    split_ifs <;> rfl
  | _ => rfl

/-- The addresses of `len` bytes. -/
def addressRange (addr : GdbAddr x) (len : Nat) : Set (GdbAddr x) :=
  {a | ∃ k < len, a = addr + BitVec.ofNat x.bits k}

/-- What has been written is still there after commands that write elsewhere. -/
theorem mem_after_write (n : Nat) (s : DebugServer x) {addr : GdbAddr x} {data : List Byte}
    (between : List (Command x)) (hlen : data.length ≤ 2045)
    (hspares : ∀ c ∈ between, c.Spares (addressRange addr data.length)) :
    (List.range data.length).map (fun k =>
      ((debugService x n).after s (.writeMemory addr data :: between)).mem
        (addr + BitVec.ofNat x.bits k)) = data := by
  have hbits : data.length ≤ 2 ^ x.bits := hlen.trans (by cases x <;> decide)
  have hstored := (ByteMemory.stores_storeAll s.mem addr data hbits).stored
  have hkept : ∀ k, (hk : k < data.length) →
      ((debugService x n).after s (.writeMemory addr data :: between)).mem
        (addr + BitVec.ofNat x.bits k) = data[k] := fun k hk =>
    (debugService x n).after_induction
      (P := fun t => t.mem (addr + BitVec.ofNat x.bits k) = data[k])
      (fun c hc t ht => (t.mem_answer n (hspares c hc) ⟨k, hk, rfl⟩).trans ht) (hstored k hk)
  refine List.ext_getElem (by simp) fun k h₁ h₂ => ?_
  rw [List.getElem_map, List.getElem_range]
  exact hkept k h₂

/-- **A debugger reads what it has written.**  Bytes that are written at `addr` are in the reply to
a later `m` packet, whatever commands come before the write, and whatever commands that do not write
there come between the two. -/
theorem conversation_readsBack {cb : GdbCallbacks x σ} {n : Nat} {A : Set (GdbAddr x)}
    {I : σ → Prop} {view : σ → TargetView x} (h : IsDebugTarget cb n A I view) (fuel : Nat)
    {w : World x σ} (hconn : w.stub.connected) (hfail : w.stub.consecutiveFailures < 50)
    (hI : I w.sim) (before between : List (Command x × List Byte)) (addr : GdbAddr x)
    (data rest : List Byte) {write read : List Byte} (hlen : data.length ≤ 2045)
    (hwrite : (Command.writeMemory addr data).Sent A write)
    (hread : (Command.readMemory addr data.length).Sent A read)
    (hsent : ∀ r ∈ before ++ between, r.1.Sent A r.2)
    (hspares : ∀ r ∈ between, r.1.Spares (addressRange addr data.length))
    (hin : w.stub.input = before.flatMap Prod.snd ++
      (write ++ (between.flatMap Prod.snd ++ (read ++ rest)))) :
    ∃ w', (stubProgram fuel cb).calls (before.length + between.length + 2) w w' ∧
      w'.stub.input = rest ∧
      w'.stub.output.getLast? = some (frame (data.flatMap hexByte)) := by
  set requests := before ++ (.writeMemory addr data, write) :: between ++
    [(.readMemory addr data.length, read)] with hrequests
  have hall : ∀ r ∈ requests, r.1.Sent A r.2 := by
    intro r hr
    simp only [hrequests, List.mem_append, List.mem_cons, List.not_mem_nil, or_false] at hr hsent
    rcases hr with (hr | rfl | hr) | rfl
    · exact hsent r (Or.inl hr)
    · exact hwrite
    · exact hsent r (Or.inr hr)
    · exact hread
  obtain ⟨w', hcalls, -, hinput, houtput, -⟩ :=
    (implements_debugService h fuel).calls ⟨⟨hconn, hfail⟩, hI⟩ requests rest hall (by
      show w.stub.input = _
      rw [hin, hrequests]
      simp)
  have hcount : requests.length = before.length + between.length + 2 := by
    simp [hrequests]
    omega
  have hmap : requests.map Prod.fst = before.map Prod.fst ++
      (.writeMemory addr data :: between.map Prod.fst) ++ [.readMemory addr data.length] := by
    simp [hrequests]
  refine ⟨w', hcount ▸ hcalls, hinput, ?_⟩
  -- the server before the write, and before the read
  set s := (debugService x n).after (w.server view) (before.map Prod.fst) with hs
  set t := (debugService x n).after s (.writeMemory addr data :: between.map Prod.fst) with ht
  have hbytes := mem_after_write n s (between.map Prod.fst) hlen (by
    intro c hc
    obtain ⟨r, hr, rfl⟩ := List.mem_map.mp hc
    exact hspares r hr)
  have hanswer : (t.answer n (.readMemory addr data.length)).2 = data.flatMap hexByte := by
    rw [DebugServer.answer, if_neg (by omega), hbytes]
  have hlast : (debugService x n).sends t [.readMemory addr data.length] =
      (if t.noAck then [] else [[chr '+']]) ++ [frame (data.flatMap hexByte)] := by
    rw [← hanswer]
    exact List.append_nil _
  have hout : w'.stub.output = w.stub.output ++
      (debugService x n).sends (w.server view) (requests.map Prod.fst) := houtput
  rw [hout, hmap, Service.sends_append, Service.after_append, ← hs, ← ht, hlast]
  simp only [← List.append_assoc, List.getLast?_append, List.getLast?_singleton, Option.some_or]

/-- Two bytes are read back after the second hart has been selected. -/
theorem conversation_readsBack_two :
    let w := (initSession 2 (frame (ascii "M80001000,2:4142") ++ frame (ascii "Hg2") ++
      frame (ascii "m80001000,2"))).world
    ∃ w', (stubProgram 0 emuCallbacks).calls 3 w w' ∧ w'.stub.input = [] ∧
      w'.stub.output.getLast? = some (frame (ascii "4142")) := by
  intro w
  have hfield : IsField Xlen.x32.bits (ascii "2") 2 := ⟨by decide, by decide, by decide, by decide⟩
  have haddr : IsField Xlen.x32.bits (ascii "80001000") 0x80001000 :=
    ⟨by decide, by decide, by decide, by decide⟩
  have hram : ∀ k < 2, (0x80001000 : Word) + BitVec.ofNat 32 k ∈ {a | InRam a} := by
    intro k hk
    show InRam ((0x80001000 : Word) + BitVec.ofNat 32 k)
    have hcases : k = 0 ∨ k = 1 := by omega
    rcases hcases with rfl | rfl <;> decide
  exact conversation_readsBack (isDebugTarget_emuCallbacks 2) 0 (w := w) rfl (by decide)
    (systemInv_initSystem (by decide)) [] [(.selectThread 2, frame (ascii "Hg2"))] 0x80001000
    [0x41, 0x42] [] (by decide)
    ⟨hram, _, Spells.writeMemory (d := ascii "4142") haddr hfield (by decide) (by decide),
      by decide, framed_frame (by decide)⟩
    ⟨Or.inr ⟨by decide, hram⟩, _, Spells.readMemory haddr hfield, by decide,
      framed_frame (by decide)⟩
    (by
      intro r hr
      obtain rfl := List.mem_singleton.mp hr
      exact ⟨trivial, _, Spells.selectThread
        (t := .thread (.number (ascii "2") (by decide) (by decide)))
        (show (hexValue (ascii "2") : Int) < 2 ^ 31 by decide) (by decide) (by decide),
        by decide, framed_frame (by decide)⟩)
    (by
      intro r hr
      obtain rfl := List.mem_singleton.mp hr
      trivial) (by decide +kernel)

end Rv32Gdb
