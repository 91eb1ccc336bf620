import Rv32Gdb.Emu.Callbacks

/-!
# Run loops and the debug session

`main` as a state machine.  A `Session` is in a `Phase`: waiting for the next packet in the main
loop, about to call `step_focus_hart`, at the `while` condition of `continue_all_harts`, at the
turn of a hart in its `for` loop (after the last hart: at its `select`), or past the main loop.
`sessionStep` does what the program does until the next phase; what it does not determine itself
comes from an `Event`: whether a SIGINT is delivered first, whether `select` finds input, and how
many iterations a memory search may take.  `SessionRun` is the history of a session from
`initSession` on, with the packets received so far.

The client's bytes are in the stub's `input`; any of them may have arrived by the time of a
`select`, so that the `ready` flags of the events range over all arrival times.
-/

namespace Rv32Gdb

/-! ### Stopping -/

/-- `notify_stop`. -/
def notifyStop (w : EmuWorld) (signal : Int) (pc : Word) : EmuWorld :=
  let s := w.sim.sys
  let tid := if s.stopHart ≥ 0 then sysThreadId s.stopHart.toNat else sysThreadId s.focusHart
  gdbStubSendStopReason (w.updDbg fun d => gdbStubSetStopThread d tid) signal pc

/-- `handle_hart_stop`. -/
def handleHartStop (w : EmuWorld) (h : Nat) (signal : Int) : EmuWorld :=
  let cpu := w.toTarget.hart h
  let w := w.withTarget (w.toTarget.updSys fun s =>
    { s with stopHart := cpu.hartId, focusHart := cpu.hartId })
  let w := w.updDbg fun d => { d with shouldStop := true }
  notifyStop w signal cpu.pc

/-- `sigint_handler`. -/
def sigintHandler (w : EmuWorld) : EmuWorld :=
  let w := w.withTarget { w.toTarget with sim := { w.sim with interruptReceived := true } }
  if w.stub.connected then
    let w := w.updDbg fun d => { d with shouldStop := true }
    w.withTarget (w.toTarget.updSys fun s => { sysHaltAll s with stopHart := s.focusHart })
  else w

/-! ### Running harts -/

/-- `should_step_hart` in continue mode. -/
def shouldStepHart (w : EmuWorld) (h : Nat) : Bool :=
  if !gdbStubShouldRunThread w.dbg (sysThreadId h) then false
  else if w.sim.sys.numHarts = 1 then true
  else if w.dbg.continueThread < 0 then
    -- all threads continue: hart 0, and the workers that have a job
    if h = 0 then true else smpSyncWorkerShouldRun w.sim.sys h
  else w.dbg.continueThread = sysThreadId h

/-- `sys_cpu_step` on the machine of a world. -/
def World.cpuStep (w : EmuWorld) (h : Nat) : EmuWorld :=
  w.withTarget (sysCpuStep w.stub.connected w.toTarget h)

/-- A turn of a hart in the trace. -/
def World.logTurn (w : EmuWorld) (h : Nat) : EmuWorld :=
  w.withTarget (w.toTarget.log (.turn h (w.toTarget.hart h).pc))

/-- `step_focus_hart`. -/
def stepFocusHart (w : EmuWorld) (debugMode : Bool) : EmuWorld :=
  let h := w.sim.sys.focusHart
  let cpu := w.toTarget.hart h
  if !gdbStubShouldRunThread w.dbg (sysThreadId cpu.hartId) then
    gdbStubSendStopReason (w.updDbg fun d => gdbStubSetStopThread d (sysThreadId cpu.hartId)) 0
      cpu.pc
  else
    -- the debug trace reads the instruction through the watchpoint hook
    let w := if debugMode then
        w.withTarget (rv32CpuReadMem w.stub.connected w.toTarget h cpu.pc 4).2
      else w
    let w := w.logTurn h
    let (hit, d) := gdbStubCheckBreakpoint w.dbg (w.toTarget.hart h).pc
    let w := w.updDbg fun _ => d
    if hit then handleHartStop (w.updDbg fun d => { d with shouldStop := true }) h 5
    else
      let w := w.cpuStep h
      let w := w.updDbg fun d => { d with shouldStop := true, singleStep := false }
      let cpu := w.toTarget.hart h
      if cpu.halted || !cpu.running then
        if cpu.halted then handleHartStop w h 5 else handleHartStop w h 4
      else handleHartStop w h 5

/-- The body of the `for` loop of `continue_all_harts` for hart `h`; the flag is `stop_sent`. -/
def continueTurn (w : EmuWorld) (h : Nat) : Bool × EmuWorld :=
  if !shouldStepHart w h then (false, w)
  else if !(w.toTarget.hart h).running || (w.toTarget.hart h).halted then (false, w)
  else
    let w := w.logTurn h
    let (hit, d) := gdbStubCheckBreakpoint w.dbg (w.toTarget.hart h).pc
    let w := w.updDbg fun _ => d
    if hit then (true, handleHartStop w h 5)
    else
      let w := w.cpuStep h
      if (w.toTarget.hart h).halted then (true, handleHartStop w h 5)
      else if !(w.toTarget.hart h).running then (true, handleHartStop w h 4)
      else (false, w)

/-- The end of `continue_all_harts` when no stop has been sent. -/
def continueExit (w : EmuWorld) : EmuWorld :=
  let pc := (w.toTarget.hart w.sim.sys.focusHart).pc
  -- SIGILL when no hart can run, else SIGINT
  if !sysAnyRunning w.sim.sys then
    notifyStop (w.updDbg fun d => { d with shouldStop := true }) 4 pc
  else if w.sim.interruptReceived then
    let w := w.withTarget { w.toTarget with sim := { w.sim with interruptReceived := false } }
    notifyStop (w.updDbg fun d => { d with shouldStop := true }) 2 pc
  else if w.dbg.shouldStop then notifyStop w 2 pc
  else w

/-! ### The session -/

/-- Where `main` is. -/
inductive Phase
  | waiting
  | stepping
  | loopHead
  | turn (h : Nat)
  | ended
  deriving DecidableEq, Repr

/-- What the environment decides in one step. -/
structure Event where
  sigint : Bool
  ready : Bool
  fuel : Nat

/-- The program at a phase. -/
structure Session where
  phase : Phase
  world : EmuWorld

/-- The main loop after `gdb_stub_process` has returned. -/
def afterProcess (r : Int × EmuWorld) : Session :=
  if r.1 < 0 then ⟨.ended, r.2⟩
  else if r.1 = 1 then
    let w := r.2.withTarget (sysResumeRunnable r.2.toTarget)
    if w.dbg.singleStep then ⟨.stepping, w⟩ else ⟨.loopHead, w⟩
  else ⟨.waiting, r.2⟩

/-- From one phase to the next, without a signal. -/
def phaseStep (debugMode : Bool) (e : Event) (phase : Phase) (w : EmuWorld) : Result Session :=
  match phase with
  | .waiting =>
    if !w.stub.connected then .ok ⟨.ended, w⟩
    else do .ok (afterProcess (← gdbStubProcess e.fuel emuCallbacks w))
  | .stepping => .ok ⟨.waiting, stepFocusHart w debugMode⟩
  | .loopHead =>
    if sysAnyRunning w.sim.sys && !w.dbg.shouldStop && !w.sim.interruptReceived then
      .ok ⟨.turn 0, w⟩
    else .ok ⟨.waiting, continueExit w⟩
  | .turn h =>
    if h < w.sim.sys.numHarts then
      let (stopSent, w) := continueTurn w h
      if stopSent then .ok ⟨.waiting, w⟩ else .ok ⟨.turn (h + 1), w⟩
    -- all harts have had their turn, and `select` looks for input
    else if e.ready then
      .ok ⟨.waiting, continueExit (w.updDbg fun d => { d with shouldStop := true })⟩
    else .ok ⟨.loopHead, w⟩
  | .ended => .ok ⟨.ended, w⟩

/-- The world in which a step starts: a SIGINT is delivered first. -/
def Session.signaled (s : Session) (e : Event) : EmuWorld :=
  if e.sigint then sigintHandler s.world else s.world

/-- One step of a session. -/
def sessionStep (debugMode : Bool) (e : Event) (s : Session) : Result Session :=
  phaseStep debugMode e s.phase (s.signaled e)

/-! ### The initial state -/

/-- The program of `create_test_program`. -/
def testProgram : List Word :=
  [0x800002b7, 0x00000313, 0x00500393, 0x80001437, 0x00040413, 0x00642023, 0x00042e03, 0x00130313,
    0x00731463, 0xff1ff06f, 0x00642223, 0x0000006f]

/-- `memcpy` of words to an offset of the RAM. -/
def memcpyWords (ram : BitVec 16 → Byte) (off : Nat) (words : List Word) : BitVec 16 → Byte :=
  fun o =>
    if off ≤ o.toNat ∧ o.toNat < off + 4 * words.length then
      ((words.getD ((o.toNat - off) / 4) 0) >>> (8 * ((o.toNat - off) % 4))).setWidth 8
    else ram o

/-- A hart of `init_system` before the program is loaded. -/
def initHart (numHarts h : Nat) : Rv32Cpu :=
  if h < numHarts then
    { rv32CpuInit with
      hartId := h
      regs := Function.update rv32CpuInit.regs regTp (BitVec.ofNat 32 h)
      sharedRam := if h > 0 then some 0 else none }
  -- the slots of harts that do not exist
  else { rv32CpuInit with regs := fun _ => 0, pc := 0, running := false }

/-- `create_test_program`. -/
def createTestProgram (s : Rv32System) : Rv32System :=
  let s := s.updHart 0 fun c =>
    { c with memory := memcpyWords (memcpyWords c.memory 0 testProgram) 0x30 smpWorkerCode }
  let s := smpSyncRamInit s
  s.forHarts fun h c => if h > 0 then smpSyncInitWorkerHart c else c

/-- `init_system`. -/
def initSystem (numHarts : Nat) : Rv32System :=
  createTestProgram
    { harts := initHart numHarts, numHarts := numHarts, focusHart := 0, stopHart := -1 }

/-- The program when the client has connected. -/
def initSession (numHarts : Nat) (input : List Byte) : Session where
  phase := .waiting
  world :=
    { dbg := DebugState.init .x32
      sim := { sys := initSystem numHarts, interruptReceived := false, trace := [] }
      stub := gdbStubAccept GdbStub.init input }

/-- `valid_hart_count`. -/
def validHartCount (n : Nat) : Bool := n = 1 || n = 2 || n = 4 || n = 8

/-- The packet that a step from `s` handles, if it handles one. -/
def Session.handled (s : Session) : List (List Byte) :=
  match s.phase with
  | .waiting => s.world.stub.nextPacket.toList
  | _ => []

/-- The sessions that a program with `numHarts` harts can reach, each with the packets handled so
far. -/
inductive SessionRun (debugMode : Bool) (numHarts : Nat) : List (List Byte) → Session → Prop
  | init (input : List Byte) : SessionRun debugMode numHarts [] (initSession numHarts input)
  | step {packets : List (List Byte)} {s s' : Session} (e : Event)
      (hrun : SessionRun debugMode numHarts packets s) (hstep : sessionStep debugMode e s = .ok s') :
      SessionRun debugMode numHarts (packets ++ s.handled) s'

end Rv32Gdb
