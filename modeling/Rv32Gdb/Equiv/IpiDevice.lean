import Rv32Gdb.Equiv.MemoryWrite
import Rv32Gdb.Equiv.Reachable
import Rv32Gdb.Equiv.WorkerJobs

/-!
# The IPI device

A word that is written to the IPI device does not get there: the debugger writes it byte by byte, and
the store of a hart does not leave the CPU.  So no work item is delivered, whoever writes:
`not_delivered_of_writesIpi`.
-/

namespace Rv32Gdb

open Rv32i

/-! ### What a write is for -/

/-- The hart that the word `v` names, or the worker that is selected when it names hart `0`. -/
def ipiTarget (n : Nat) (v : Word) : Nat :=
  let target := ((v >>> 16) &&& 0xff).toNat
  if target = 0 then selectedWorker n (v &&& 0xffff) else target

/-- All workers of a system with `n` harts wait for work, and the target of `v` is a hart. -/
structure IpiReady (n : Nat) (v : Word) (m : Machine) : Prop where
  validHartCount : n = 2 ∨ n = 4 ∨ n = 8
  sys : SystemInv n m.sys
  waits : ∀ h, 0 < h → h < n → WaitsForWork h (m.hart h) ∧ ramRead32 m.sys (ipiPending h) = 0
  code : CodeIntact m.sys
  lock : ramRead32 m.sys (smpSyncBase + smpOffLock) = 0
  target : ((v >>> 16) &&& 0xff).toNat < n

/-- From `m` to `m'` the target of `v` has done the work item in it. -/
structure Delivered (n : Nat) (v : Word) (m m' : Machine) : Prop where
  done : ramRead32 m'.sys (smpSyncBase + smpOffSharedDone) =
    ramRead32 m.sys (smpSyncBase + smpOffSharedDone) + 1
  item : (m'.hart (ipiTarget n v)).regs 9 = v &&& 0xffff

/-- The bytes of a word in memory. -/
def wordBytes (v : Word) : List Byte :=
  [v.setWidth 8, (v >>> 8).setWidth 8, (v >>> 16).setWidth 8, (v >>> 24).setWidth 8]

/-- The next instruction of hart `0` stores the word `v` to the device. -/
def StoresToIpi (v : Word) (m : Machine) : Prop :=
  (m.hart 0).running ∧ ∃ rs1 rs2 imm,
    (archState m 0).fetch = some (Instr.store .sw rs1 rs2 imm).encode ∧
    (archState m 0).reg rs1 + imm.signExtend 32 = smpIpiMmio ∧ (archState m 0).reg rs2 = v

/-- From `m` to `m'` the word `v` is written to the device: with an `M` packet, or by an instruction
of hart `0`.  At the loop store the emulator posts the counter after the instruction, whatever that
has stored, so there the instruction alone is looked at. -/
inductive WritesIpi (v : Word) : Machine → Machine → Prop
  | gdb {fuel : Nat} {w w' : EmuWorld} {addr len payload rest : List Byte}
    (hconn : w.stub.connected) (hfail : w.stub.consecutiveFailures < 50)
    (haddr : ∀ c ∈ addr, isxdigit c) (hlen : ∀ c ∈ len, isxdigit c)
    (hbound : (writePacket 'M' addr len payload).length < gdbBufferSize)
    (hin : Framed (writePacket 'M' addr len payload) rest w.stub.input)
    (hmmio : BitVec.ofNat 32 (hexValue addr) = smpIpiMmio) (hfour : hexValue len = 4)
    (hpayload : payload.length = 8) (hbytes : hexPairs payload = wordBytes v)
    (hproc : gdbStubProcess fuel emuCallbacks w = .ok (0, w')) :
    WritesIpi v w.toTarget w'.toTarget
  | cpu {connected : Bool} {m : Machine} (hstores : StoresToIpi v m) :
    WritesIpi v m (rv32CpuStep connected m 0)
  | step {connected : Bool} {m : Machine} (hstores : StoresToIpi v m)
    (hpc : (m.hart 0).pc ≠ loopStore) : WritesIpi v m (sysCpuStep connected m 0)

/-! ### Nothing arrives -/

/-- A byte that is written to the device goes nowhere. -/
theorem sysWriteMem_ipi (connected : Bool) (m : Machine) (src : Nat) {i : Nat} (hi : i < 4)
    (b : Word) : sysWriteMem connected m src (smpIpiMmio + BitVec.ofNat 32 i) b 1 =
      checkAccess .store connected m src (smpIpiMmio + BitVec.ofNat 32 i) 1 := by
  have hregion : ∀ i < 4, ¬(smpSyncBase ≤ smpIpiMmio + BitVec.ofNat 32 i ∧
      smpIpiMmio + BitVec.ofNat 32 i < smpSyncBase + 0x40) := by decide
  have hram : ∀ i < 4, ¬inRam (smpIpiMmio + BitVec.ofNat 32 i) 1 := by decide
  rw [sysWriteMem, smpSyncHandleMmio, if_pos (Or.inr (by decide))]
  simp only
  rw [if_neg (hregion i hi), rv32CpuWriteMem, if_neg (hram i hi)]

theorem ramRead32_checkAccess (kind : AccessKind) (connected : Bool) (m : Machine) (h : Nat)
    (addr : Word) (size : Nat) (a : Word) :
    ramRead32 (checkAccess kind connected m h addr size).sys a = ramRead32 m.sys a := by
  unfold ramRead32
  rw [ramLoad_checkAccess]

theorem ramRead32_writeBytes (connected : Bool) (m : Machine) {i : Nat} {bytes : List Byte}
    (hlen : i + bytes.length ≤ 4) (a : Word) :
    ramRead32 (writeBytes emuCallbacks connected smpIpiMmio i bytes m).sys a =
      ramRead32 m.sys a := by
  induction bytes generalizing i m with
  | nil => rfl
  | cons b bytes ih =>
    rw [List.length_cons] at hlen
    rw [writeBytes, ih _ (by omega)]
    show ramRead32 (sysWriteMem connected m m.sys.focusHart _ _ 1).sys a = _
    rw [sysWriteMem_ipi connected m _ (by omega), ramRead32_checkAccess]

/-- The store of a hart has no effect outside the RAM. -/
theorem ramRead32_rv32CpuStep_of_storesToIpi (connected : Bool) {v : Word} {m : Machine}
    (hstores : StoresToIpi v m) {k : Nat} (hk : k < 12) :
    ramRead32 (rv32CpuStep connected m 0).sys (syncWord k) = ramRead32 m.sys (syncWord k) := by
  obtain ⟨hrun, rs1, rs2, imm, hfetch, haddr, -⟩ := hstores
  have hstep : archState (rv32CpuStep connected m 0) 0 = _ := (rv32CpuStep_encode hrun hfetch).1
  have hout : ¬inRam smpIpiMmio 4 := by decide
  have hmem : (archState (rv32CpuStep connected m 0) 0).mem = (archState m 0).mem := by
    rw [hstep, Instr.exec, haddr, State.mem_next, StoreOp.size,
      store_archState m 0 _ _ (Or.inr (Or.inr rfl)), if_neg hout]
  rw [ramRead32_syncWord _ hk, ramRead32_syncWord m hk]
  exact State.load_congr fun a _ => by rw [hmem]

/-- Whoever writes to the device, the jobs done are as before. -/
theorem ramRead32_of_writesIpi {v : Word} {m m' : Machine} (hwrites : WritesIpi v m m') :
    ramRead32 m'.sys (smpSyncBase + smpOffSharedDone) =
      ramRead32 m.sys (smpSyncBase + smpOffSharedDone) := by
  cases hwrites with
  | @gdb fuel w w' addr len payload rest hconn hfail haddr hlen hbound hin hmmio hfour hpayload
      hbytes hproc =>
    have hn : payload.length = 2 * hexValue len := by rw [hpayload, hfour]
    obtain ⟨w₁, hr, htarget, -⟩ := writesExactly_writeMemory fuel emuCallbacks hconn hfail haddr
      hlen hbound hin hn
    obtain rfl : w' = w₁ := congrArg Prod.snd (Except.ok.inj (hproc.symm.trans hr))
    have hlength : (hexPairs payload).length = 4 := (length_hexPairs hn).trans hfour
    rw [htarget]
    show ramRead32 (writeBytes emuCallbacks true (BitVec.ofNat 32 (hexValue addr)) 0
      (hexPairs payload) w.toTarget).sys _ = _
    rw [hmmio, ramRead32_writeBytes true _ (by omega)]
  | cpu hstores => exact ramRead32_rv32CpuStep_of_storesToIpi _ hstores (k := 3) (by decide)
  | @step connected m hstores hpc =>
    have hpost : sysCpuStep connected m 0 = rv32CpuStep connected m 0 := by
      rw [sysCpuStep, sysPostStep]
      split_ifs with hone hstore
      · rfl
      · exact absurd hstore.2 hpc
      · rfl
    rw [hpost]
    exact ramRead32_rv32CpuStep_of_storesToIpi _ hstores (k := 3) (by decide)

theorem not_delivered_of_ramRead32 {n : Nat} {v : Word} {m m' : Machine}
    (hsame : ramRead32 m'.sys (smpSyncBase + smpOffSharedDone) =
      ramRead32 m.sys (smpSyncBase + smpOffSharedDone)) : ¬Delivered n v m m' := by
  intro hdel
  have hone := hdel.done
  rw [hsame] at hone
  bv_omega

/-- Whoever writes to the device, no work item is delivered. -/
theorem not_delivered_of_writesIpi {n : Nat} {v : Word} {m m' : Machine}
    (hwrites : WritesIpi v m m') : ¬Delivered n v m m' :=
  not_delivered_of_ramRead32 (ramRead32_of_writesIpi hwrites)

/-- A system whose hart `0` is about to store `0x10007` to the device. -/
def storeMachine : Machine :=
  (loadedSession 2 []).world.toTarget.updHart 0 fun c =>
    { c with
      regs := Function.update (Function.update c.regs regS0 smpIpiMmio) regT1 0x10007
      memory := memcpyWords c.memory 0 [(Instr.store .sw regS0 regT1 0).encode] }

theorem not_delivered_storeMachine :
    ¬Delivered 2 0x10007 storeMachine (sysCpuStep true storeMachine 0) :=
  not_delivered_of_writesIpi (.step ⟨by decide +kernel, regS0, regT1, 0, by decide +kernel,
    by decide +kernel, by decide +kernel⟩ (by decide +kernel))

/-- The packet that writes `0x10007` to the device. -/
def ipiPacket : List Byte := writePacket 'M' (ascii "10000004") (ascii "4") (ascii "07000100")

/-- The first packet of the debugger is written to the device, and hart `1` gets no work. -/
theorem not_delivered_ipiPacket : ∃ w', let w := (loadedSession 2 (frame ipiPacket)).world
    gdbStubProcess 0 emuCallbacks w = .ok (0, w') ∧ IpiReady 2 0x10007 w.toTarget ∧
      WritesIpi 0x10007 w.toTarget w'.toTarget ∧ ¬Delivered 2 0x10007 w.toTarget w'.toTarget := by
  set w := (loadedSession 2 (frame ipiPacket)).world
  have hin : Framed (writePacket 'M' (ascii "10000004") (ascii "4") (ascii "07000100")) []
      w.stub.input := framed_frame_nil (by decide)
  obtain ⟨w', hproc, -⟩ := writesExactly_writeMemory 0 emuCallbacks rfl (by decide) (by decide)
    (by decide) (by decide) hin (by decide)
  have hwrites : WritesIpi 0x10007 w.toTarget w'.toTarget :=
    .gdb rfl (by decide) (by decide) (by decide) (by decide) hin (by decide) (by decide) (by decide)
      (by decide) hproc
  refine ⟨w', hproc, ⟨Or.inl rfl, ?_, ?_, ?_, ?_, by decide⟩, hwrites,
    not_delivered_of_ramRead32 (ramRead32_of_writesIpi hwrites)⟩
  · have hinit := systemInv_initSystem (n := 2) (by decide)
    rwa [initSystem_eq] at hinit
  · intro h hpos hlt
    obtain rfl : h = 1 := by omega
    exact ⟨⟨by decide +kernel, by decide +kernel, Or.inl (by decide +kernel), by decide +kernel,
      by decide +kernel⟩, by decide +kernel⟩
  · unfold CodeIntact
    decide +kernel
  · decide +kernel

end Rv32Gdb
