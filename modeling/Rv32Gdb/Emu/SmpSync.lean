import Rv32Gdb.Emu.Cpu

/-!
# Worker jobs

`smp_sync.c` and `smp_program.h`: the sync words in the RAM of hart 0, the delivery of a job to a
worker hart, and the loop that steps the worker until it parks again.  `sync->num_harts`, which is
written but never read, is left out.
-/

namespace Rv32Gdb

/-! ### Addresses -/

/-- `SMP_SYNC_BASE`. -/
def smpSyncBase : Word := 0x80002000

/-- `SMP_IPI_MMIO`. -/
def smpIpiMmio : Word := 0x10000004

/-- `SMP_OFF_LOCK` and the offsets of the other sync words. -/
def smpOffLock : Word := 0x00
def smpOffWorkItem : Word := 0x04
def smpOffWorkReady : Word := 0x08
def smpOffSharedDone : Word := 0x0c
def smpOffIpiPending : Word := 0x10
def smpOffNumHarts : Word := 0x30

/-- `SMP_WORKER_WAIT` and the other labels of the worker code. -/
def smpWorkerWait : Word := 0x80000030
def smpWorkerPoll : Word := 0x80000034
def smpWorkerSpin : Word := 0x80000050
def smpWorkerHandle : Word := 0x80000054
def smpWorkerEnd : Word := 0x80000090

/-- `RV32_MAX_HARTS`. -/
def rv32MaxHarts : Nat := 8

/-- `smp_worker_code`. -/
def smpWorkerCode : List Word :=
  [0x80002437, 0x01040293, 0x00221e13, 0x01c282b3, 0x0002a303, 0x00030663, 0x0002a023, 0x008000ef,
    0xfe5ff06f, 0x00042283, 0xfe029ee3, 0x00120293, 0x00542023, 0x00842383, 0x02038063, 0x00442303,
    0x00042423, 0x00030493, 0x00c42383, 0x00138393, 0x00742623, 0x00038913, 0x00042023, 0xfa9ff06f]

/-! ### Sync words -/

/-- The bounds check of `ram_read32` and `ram_write32`. -/
def inRam32 (addr : Word) : Bool := !(addr < ramBase || ramBase + ramSize < addr + 4)

/-- `ram_read32`. -/
def ramRead32 (s : Rv32System) (addr : Word) : Word :=
  if inRam32 addr then s.ramLoad 0 (ramOffset addr) 4 else 0

/-- `ram_write32`. -/
def ramWrite32 (s : Rv32System) (addr value : Word) : Rv32System :=
  if inRam32 addr then s.ramStore 0 (ramOffset addr) value 4 else s

/-- The address of the doorbell of a hart. -/
def ipiPending (hart : Nat) : Word := smpSyncBase + smpOffIpiPending + BitVec.ofNat 32 hart * 4

/-- `smp_worker_target`. -/
def smpWorkerTarget (s : Rv32System) (workItem : Word) : Int :=
  if s.numHarts ≤ 1 then -1 else (workItem.toNat % (s.numHarts - 1) : Nat) + 1

/-- `smp_deliver_ipi`. -/
def smpDeliverIpi (s : Rv32System) (targetHart : Int) (workItem : Word) : Rv32System :=
  if targetHart ≤ 0 ∨ targetHart ≥ s.numHarts then s
  else
    let s := ramWrite32 s (smpSyncBase + smpOffWorkItem) workItem
    let s := ramWrite32 s (smpSyncBase + smpOffWorkReady) 1
    ramWrite32 s (ipiPending targetHart.toNat) 1

/-- `smp_sync_ram_init`. -/
def smpSyncRamInit (s : Rv32System) : Rv32System :=
  let n := s.numHarts
  let s := ramWrite32 s (smpSyncBase + smpOffLock) 0
  let s := ramWrite32 s (smpSyncBase + smpOffWorkItem) 0
  let s := ramWrite32 s (smpSyncBase + smpOffWorkReady) 0
  let s := ramWrite32 s (smpSyncBase + smpOffSharedDone) 0
  let s := ramWrite32 s (smpSyncBase + smpOffNumHarts) (BitVec.ofNat 32 n)
  (List.range rv32MaxHarts).foldl (fun s h => ramWrite32 s (ipiPending h) 0) s

/-- `smp_sync_init_worker_hart`. -/
def smpSyncInitWorkerHart (c : Rv32Cpu) : Rv32Cpu :=
  { c with regs := Function.update c.regs regS0 smpSyncBase, pc := smpWorkerPoll }

/-! ### Jobs -/

/-- `smp_sync_worker_should_run`. -/
def smpSyncWorkerShouldRun (s : Rv32System) (hartId : Int) : Bool :=
  if hartId ≤ 0 ∨ hartId ≥ s.numHarts then false
  else
    let pc := (s.harts hartId.toNat).pc
    -- in the middle of a job, or its doorbell rung
    if smpWorkerHandle ≤ pc ∧ pc < smpWorkerEnd then true
    else ramRead32 s (ipiPending hartId.toNat) ≠ 0

/-- Whether a worker that has just executed an instruction is parked: at `worker_poll` or
`worker_spin` without a pending IPI. -/
def workerParked (s : Rv32System) (h : Nat) : Bool :=
  let pc := (s.harts h).pc
  (pc = smpWorkerPoll || pc = smpWorkerSpin) && ramRead32 s (ipiPending h) = 0

/-- The loop of `smp_sync_run_worker_jobs`, with at most `guard` instructions to go. -/
def workerJobLoop (connected : Bool) (h : Nat) : Nat → Machine → Machine
  | 0, m => m
  | guard + 1, m =>
    if (m.hart h).running && !(m.hart h).halted then
      let m := rv32CpuStep connected (m.log (.turn h (m.hart h).pc)) h
      if workerParked m.sys h then m else workerJobLoop connected h guard m
    else m

/-- `smp_sync_run_worker_jobs`. -/
def smpSyncRunWorkerJobs (connected : Bool) (m : Machine) (hartId : Int) : Machine :=
  if hartId ≤ 0 ∨ hartId ≥ m.sys.numHarts then m
  else if !smpSyncWorkerShouldRun m.sys hartId then m
  else workerJobLoop connected hartId.toNat 128 m

/-- `smp_sync_on_counter_store`. -/
def smpSyncOnCounterStore (connected : Bool) (m : Machine) (srcHart : Nat) (counter : Word) :
    Machine :=
  if m.sys.numHarts ≤ 1 ∨ srcHart ≠ 0 then m
  else
    let target := smpWorkerTarget m.sys counter
    if target < 0 then m
    else smpSyncRunWorkerJobs connected (m.updSys fun s => smpDeliverIpi s target counter) target

/-! ### Debugger access -/

/-- `smp_sync_handle_mmio`; `none` is the return value `false`. -/
def smpSyncHandleMmio (connected : Bool) (m : Machine) (addr value : Word) (size : Nat) :
    Option Machine :=
  if addr ≠ smpIpiMmio ∨ size ≠ 4 then none
  else
    let target : Int := ((value >>> 16) &&& 0xff).toNat
    let workItem := value &&& 0xffff
    -- without a target the work item chooses a worker
    let target := if target ≤ 0 then smpWorkerTarget m.sys workItem else target
    some (smpSyncRunWorkerJobs connected (m.updSys fun s => smpDeliverIpi s target workItem)
      target)

/-- The bounds check of the sync region. -/
def inSyncRegion (addr : Word) (size : Nat) : Bool :=
  !(addr < smpSyncBase || smpSyncBase + 0x40 < addr + BitVec.ofNat 32 size)

/-- `smp_sync_write_ram`. -/
def smpSyncWriteRam (s : Rv32System) (addr value : Word) (size : Nat) : Rv32System :=
  if inSyncRegion addr size then s.ramStore 0 (ramOffset addr) value size else s

/-- `smp_sync_read_ram`. -/
def smpSyncReadRam (s : Rv32System) (addr : Word) (size : Nat) : Word :=
  if inSyncRegion addr size then s.ramLoad 0 (ramOffset addr) size else 0

/-- `smp_sync_read_mmio`. -/
def smpSyncReadMmio (s : Rv32System) (addr : Word) : Word :=
  if addr = smpIpiMmio then ramRead32 s (smpSyncBase + smpOffSharedDone) else 0

end Rv32Gdb
