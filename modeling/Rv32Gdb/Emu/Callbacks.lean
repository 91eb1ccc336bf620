import Rv32Gdb.Emu.SmpSync

/-!
# The simulator side of the stub

The system functions and the callbacks of `main.c`, and `emuCallbacks`, the callback table that
`main` passes to the stub.
-/

namespace Rv32Gdb

/-! ### The system -/

/-- `sys_thread_id`. -/
def sysThreadId (hart : Nat) : Int := hart + 1

/-- `sys_any_running`. -/
def sysAnyRunning (s : Rv32System) : Bool :=
  (List.range s.numHarts).any fun h => (s.harts h).running && !(s.harts h).halted

/-- Changing the harts below `numHarts` one after the other. -/
def Rv32System.forHarts (s : Rv32System) (f : Nat → Rv32Cpu → Rv32Cpu) : Rv32System :=
  (List.range s.numHarts).foldl (fun s h => s.updHart h (f h)) s

/-- `sys_halt_all`. -/
def sysHaltAll (s : Rv32System) : Rv32System := s.forHarts fun _ => Rv32Cpu.halt

/-- `sys_resume_runnable`. -/
def sysResumeRunnable (m : Machine) : Machine :=
  m.updSys fun s => s.forHarts fun h c =>
    if !gdbStubShouldRunThread m.dbg (sysThreadId h) then c else { c with halted := false }

/-- `sys_read_mem`. -/
def sysReadMem (connected : Bool) (m : Machine) (addr : Word) (size : Nat) : Word × Machine :=
  -- the sync region and the IPI device are read without a watchpoint check
  if smpSyncBase ≤ addr ∧ addr < smpSyncBase + 0x40 then (smpSyncReadRam m.sys addr size, m)
  else if addr = smpIpiMmio then (smpSyncReadMmio m.sys addr, m)
  else rv32CpuReadMem connected m 0 addr size

/-- `sys_write_mem`, on behalf of hart `src`. -/
def sysWriteMem (connected : Bool) (m : Machine) (src : Nat) (addr value : Word) (size : Nat) :
    Machine :=
  match smpSyncHandleMmio connected m addr value size with
  | some m => m
  | none =>
    if smpSyncBase ≤ addr ∧ addr < smpSyncBase + 0x40 then
      m.updSys fun s => smpSyncWriteRam s addr value size
    else rv32CpuWriteMem connected m src addr value size

/-- The address of the loop store of the demo program. -/
def loopStore : Word := 0x80000014

/-- `sys_post_step`. -/
def sysPostStep (connected : Bool) (m : Machine) (h : Nat) (prevPc : Word) : Machine :=
  if m.sys.numHarts ≤ 1 then m
  -- hart 0 has stored the counter of the demo program
  else if (m.hart h).hartId = 0 ∧ prevPc = loopStore then
    smpSyncOnCounterStore connected m 0 ((m.hart h).regs regT1)
  else m

/-- `sys_cpu_step`. -/
def sysCpuStep (connected : Bool) (m : Machine) (h : Nat) : Machine :=
  sysPostStep connected (rv32CpuStep connected m h) h (m.hart h).pc

/-! ### The callbacks -/

/-- `gdb_read_reg`. -/
def gdbReadReg (m : Machine) (regNum : Nat) : Word :=
  let cpu := m.hart m.sys.focusHart
  if regNum < 32 then rv32CpuReadReg cpu regNum else if regNum = 32 then cpu.pc else 0

/-- `gdb_write_reg`. -/
def gdbWriteReg (m : Machine) (regNum : Nat) (value : Word) : Machine :=
  m.updHart m.sys.focusHart fun cpu =>
    if regNum < 32 then rv32CpuWriteReg cpu regNum value
    else if regNum = 32 then { cpu with pc := value } else cpu

/-- `gdb_get_pc`. -/
def gdbGetPc (m : Machine) : Word := (m.hart m.sys.focusHart).pc

/-- `gdb_set_pc`. -/
def gdbSetPc (m : Machine) (pc : Word) : Machine :=
  m.updHart m.sys.focusHart fun cpu => { cpu with pc := pc }

/-- `gdb_reset`: what it does to hart `h`. -/
def resetHart (h : Nat) (c : Rv32Cpu) : Rv32Cpu :=
  let c := rv32CpuReset c
  let c := { c with regs := Function.update c.regs regTp (BitVec.ofNat 32 h) }
  if h > 0 then smpSyncInitWorkerHart c else c

/-- `gdb_reset`. -/
def gdbReset (m : Machine) : Machine :=
  m.updSys fun s =>
    { smpSyncRamInit (s.forHarts resetHart) with focusHart := 0, stopHart := -1 }

/-- `gdb_set_focus_hart`. -/
def gdbSetFocusHart (m : Machine) (hart : Int) : Machine :=
  m.updSys fun s =>
    if 0 ≤ hart ∧ hart < s.numHarts then { s with focusHart := hart.toNat } else s

/-- `gdb_halt_cpus`. -/
def gdbHaltCpus (m : Machine) : Machine :=
  m.updSys fun s => { sysHaltAll s with stopHart := s.focusHart }

/-- The callback table of `main`. -/
def emuCallbacks : GdbCallbacks .x32 Emu where
  readReg _ m regNum := (gdbReadReg m regNum, m)
  writeReg _ m regNum value := gdbWriteReg m regNum value
  readMem connected m addr size := sysReadMem connected m addr size
  writeMem connected m addr value size := sysWriteMem connected m m.sim.sys.focusHart addr value size
  getPc _ m := (gdbGetPc m, m)
  setPc _ m pc := gdbSetPc m pc
  reset := some fun _ m => gdbReset m
  resume := some fun _ m => sysResumeRunnable m
  getNumHarts := some fun _ m => (m.sim.sys.numHarts, m)
  setFocusHart := some fun _ m hart => gdbSetFocusHart m hart
  getFocusHart := some fun _ m => (m.sim.sys.focusHart, m)
  getStopHart := some fun _ m => (m.sim.sys.stopHart, m)
  haltCpus := some fun _ m => gdbHaltCpus m

end Rv32Gdb
