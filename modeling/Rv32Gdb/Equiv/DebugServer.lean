import Rv32Gdb.Equiv.NumericFields
import Rv32Gdb.Equiv.ThreadIds
import Rv32Gdb.PointTable
import Rv32Gdb.Service

/-!
# What the stub is for

`DebugServer` is what a debugger can see and change while the target is stopped: the registers of
the selected hart, memory, sets of breakpoints and watchpoints, the thread that is to be continued,
and whether packets are acknowledged.  `debugService` answers commands on it, and `Spells` lists the
packets that a client may write for a command.
-/

namespace Rv32Gdb

variable {x : Xlen} {σ : Type}

/-! ### The server -/

/-- The registers of the harts, of which number `32` is the program counter; the hart that the
register commands are about; and the memory. -/
@[ext]
structure TargetView (x : Xlen) where
  regs : Nat → Nat → GdbReg x
  focus : Nat
  mem : GdbAddr x → Byte

namespace TargetView

/-- The registers of the selected hart. -/
def selected (v : TargetView x) : Nat → GdbReg x := v.regs v.focus

/-- Changing registers of the selected hart. -/
def updSelected (v : TargetView x) (f : (Nat → GdbReg x) → Nat → GdbReg x) : TargetView x :=
  { v with regs := Function.update v.regs v.focus (f v.selected) }

theorem updSelected_updSelected (v : TargetView x) (f g : (Nat → GdbReg x) → Nat → GdbReg x) :
    (v.updSelected f).updSelected g = v.updSelected fun r => g (f r) := by
  unfold updSelected selected
  simp

/-- Writing a register; `x0` cannot be written. -/
def setReg (v : TargetView x) (i : Nat) (value : GdbReg x) : TargetView x :=
  v.updSelected fun r j => if j = i ∧ i ≠ 0 then value else r j

/-- Writing all registers. -/
def setRegs (v : TargetView x) (values : Nat → GdbReg x) : TargetView x :=
  v.updSelected fun r j => if j ≤ 32 ∧ j ≠ 0 then values j else r j

end TargetView

/-- The state that the debugger sees; if no thread is `continued`, all are. -/
structure DebugServer (x : Xlen) extends TargetView x where
  breakpoints : PointTable (GdbAddr x) maxBreakpoints
  watchpoints : PointTable (WatchpointKey x) maxWatchpoints
  continued : Option Int
  noAck : Bool

/-- The commands of a debugger that do not run the target. -/
inductive Command (x : Xlen)
  | readRegisters
  | writeRegisters (values : Nat → GdbReg x)
  | readRegister (n : Nat)
  | writeRegister (n : Nat) (value : GdbReg x)
  | readMemory (addr : GdbAddr x) (len : Nat)
  | writeMemory (addr : GdbAddr x) (data : List Byte)
  | breakpoint (insert : Bool) (addr : GdbAddr x)
  | watchpoint (insert : Bool) (key : WatchpointKey x)
  | selectThread (tid : Int)
  | continueThread (tid : Int)
  | threadAlive (tid : Int)
  | startNoAckMode

namespace DebugServer

/-- Arming or disarming a point. -/
def setPoint {κ : Type} {cap : Nat} [DecidableEq κ] (t : PointTable κ cap) (insert : Bool) (k : κ) :
    Option (PointTable κ cap) :=
  if insert then t.insert k else t.remove k

/-- The reply to a command that may be refused. -/
def replyText (accepted : Bool) : List Byte := if accepted then ascii "OK" else ascii "E01"

/-- The state after a command and the reply, with `n` threads. -/
def answer (n : Nat) (s : DebugServer x) : Command x → DebugServer x × List Byte
  | .readRegisters => (s, registersText s.selected)
  | .writeRegisters values => ({ s with toTargetView := s.setRegs values }, replyText true)
  | .readRegister i =>
    (s, if i ≤ 32 then encodeHex (s.selected i) x.regHexBytes else replyText false)
  | .writeRegister i value =>
    (if i ≤ 32 then { s with toTargetView := s.setReg i value } else s, replyText (i ≤ 32))
  | .readMemory addr len =>
    (s, if 2048 < len then ascii "E02"
      else ((List.range len).map fun k => s.mem (addr + BitVec.ofNat x.bits k)).flatMap hexByte)
  | .writeMemory addr data =>
    ({ s with mem := ByteMemory.storeAll s.mem addr 0 data }, replyText true)
  | .breakpoint insert addr =>
    let t := setPoint s.breakpoints insert addr
    ({ s with breakpoints := t.getD s.breakpoints }, replyText t.isSome)
  | .watchpoint insert key =>
    let t := setPoint s.watchpoints insert key
    ({ s with watchpoints := t.getD s.watchpoints }, replyText t.isSome)
  | .selectThread tid =>
    (if 1 ≤ tid ∧ tid ≤ n then { s with focus := (tid - 1).toNat } else s,
      replyText (1 ≤ tid ∧ tid ≤ n))
  | .continueThread tid =>
    ({ s with continued := if 1 ≤ tid then some tid else none }, replyText true)
  | .threadAlive tid => (s, replyText (1 ≤ tid ∧ tid ≤ n))
  | .startNoAckMode => ({ s with noAck := true }, replyText true)

end DebugServer

/-- The service: a command is acknowledged, unless acknowledgements are off, and answered. -/
def debugService (x : Xlen) (n : Nat) : Service (DebugServer x) (Command x) (List Byte) where
  step s c :=
    ((s.answer n c).1, (if s.noAck then [] else [[chr '+']]) ++ [frame (s.answer n c).2])

/-! ### Packets -/

/-- The packet is one of the texts of the command. -/
inductive Spells : Command x → List Byte → Prop
  | readRegisters : Spells .readRegisters (ascii "g")
  | writeRegisters (values : Nat → GdbReg x) :
      Spells (.writeRegisters values) (writeRegistersPacket values)
  | readRegister {s : List Byte} {n : Nat} : IsField 31 s n →
      Spells (.readRegister n) (chr 'p' :: s)
  | writeRegister {s v : List Byte} {n : Nat} : IsField 31 s n → v.length = x.regHexChars →
      (∀ c ∈ v, isxdigit c) →
      Spells (.writeRegister n (BitVec.ofNat x.bits (littleEndianValue v)))
        (chr 'P' :: (s ++ chr '=' :: v))
  | readMemory {a l : List Byte} {addr len : Nat} : IsField x.bits a addr → IsField x.bits l len →
      Spells (.readMemory (BitVec.ofNat x.bits addr) len) (chr 'm' :: (a ++ chr ',' :: l))
  | writeMemory {a l d : List Byte} {addr len : Nat} : IsField x.bits a addr →
      IsField x.bits l len → d.length = 2 * len → (∀ c ∈ d, isxdigit c) →
      Spells (.writeMemory (BitVec.ofNat x.bits addr) (hexPairs d))
        (chr 'M' :: (a ++ chr ',' :: (l ++ chr ':' :: d)))
  | writeMemoryBinary {a l d : List Byte} {addr : Nat} : IsField x.bits a addr →
      IsField 32 l d.length → d ≠ [] → 0#8 ∉ d →
      Spells (.writeMemory (BitVec.ofNat x.bits addr) d)
        (chr 'X' :: (a ++ chr ',' :: (l ++ chr ':' :: encodeBinary d)))
  | breakpoint (insert : Bool) {t a l : List Byte} {type addr len : Nat} : IsField 31 t type →
      type < 2 → IsField x.bits a addr → IsField x.bits l len →
      Spells (.breakpoint insert (BitVec.ofNat x.bits addr))
        (chr (if insert then 'Z' else 'z') :: (t ++ chr ',' :: (a ++ chr ',' :: l)))
  | watchpoint (insert : Bool) {t a l : List Byte} {type addr len : Nat} : IsField 31 t type →
      2 ≤ type → type ≤ 4 → IsField x.bits a addr → IsField x.bits l len →
      Spells (.watchpoint insert (addedKey (BitVec.ofNat x.bits addr) (BitVec.ofNat x.bits len)
          (watchpointType type)))
        (chr (if insert then 'Z' else 'z') :: (t ++ chr ',' :: (a ++ chr ',' :: l)))
  | selectThread {t : ThreadSpec} : t.Fits → threadPidValid t.ids.1 → 0 < t.ids.2 →
      Spells (.selectThread t.ids.2) (ascii "Hg" ++ t.text)
  | continueThread {t : ThreadSpec} : t.Fits → threadPidValid t.ids.1 →
      Spells (.continueThread t.ids.2) (ascii "Hc" ++ t.text)
  | threadAlive {t : ThreadSpec} : t.Fits → threadPidValid t.ids.1 →
      Spells (.threadAlive t.ids.2) (chr 'T' :: t.text)
  | startNoAckMode : Spells .startNoAckMode (ascii "QStartNoAckMode")

/-- The bytes that a command names are in `A`, and what it reads fits a reply. -/
def Command.Within (A : Set (GdbAddr x)) : Command x → Prop
  | .readMemory addr len =>
    2048 < len ∨ (len ≤ 2045 ∧ ∀ k < len, addr + BitVec.ofNat x.bits k ∈ A)
  | .writeMemory addr data => ∀ k < data.length, addr + BitVec.ofNat x.bits k ∈ A
  | _ => True

/-- The bytes that a client may send for a command. -/
def Command.Sent (A : Set (GdbAddr x)) (c : Command x) (bytes : List Byte) : Prop :=
  c.Within A ∧ ∃ p, Spells c p ∧ p.length < gdbBufferSize ∧ ∀ rest, Framed p rest (bytes ++ rest)

/-! ### Targets -/

/-- The state of the target after a callback shows `v`; the tables of the stub and the thread that is
to be continued are as before. -/
structure ShowsView (I : σ → Prop) (view : σ → TargetView x) (t : Target x σ) (v : TargetView x)
    (t' : Target x σ) : Prop where
  view : view t'.sim = v
  inv : I t'.sim
  breakpoints : t'.dbg.breakpoints = t.dbg.breakpoints
  watchpoints : t'.dbg.watchpoints = t.dbg.watchpoints
  continueThread : t'.dbg.continueThread = t.dbg.continueThread

/-- What the stub expects of its callbacks: they read and write what `view` shows of `n` harts and
of the memory at the addresses in `A`, as long as `I` holds. -/
structure IsDebugTarget (cb : GdbCallbacks x σ) (n : Nat) (A : Set (GdbAddr x)) (I : σ → Prop)
    (view : σ → TargetView x) : Prop where
  registers : IsRegisterFile cb fun t => (view t.sim).selected
  writeReg : ∀ c t i value, I t.sim → i < 32 →
    ShowsView I view t ((view t.sim).setReg i value) (cb.writeReg c t i value)
  setPc : ∀ c t value, I t.sim →
    ShowsView I view t ((view t.sim).setReg 32 value) (cb.setPc c t value)
  readMem : ∀ c t a, I t.sim → a ∈ A → (cb.readMem c t a 1).1.setWidth 8 = (view t.sim).mem a ∧
    ShowsView I view t (view t.sim) (cb.readMem c t a 1).2
  writeMem : ∀ c t a b, I t.sim → a ∈ A →
    ShowsView I view t { view t.sim with mem := Function.update (view t.sim).mem a b }
      (cb.writeMem c t a (b.setWidth x.bits) 1)
  getNumHarts : ∀ w : World x σ, I w.sim → w.callOpt cb.getNumHarts 1 = ((n : Int), w)
  setFocusHart : ∀ (w : World x σ) (k : Nat), I w.sim → k < n → ∃ t,
    w.actOpt (cb.setFocusHart.map fun f c t => f c t k) = w.withTarget t ∧
      ShowsView I view w.toTarget { view w.sim with focus := k } t

/-- What the debugger sees of a world. -/
def World.server (view : σ → TargetView x) (w : World x σ) : DebugServer x where
  toTargetView := view w.sim
  breakpoints := w.dbg.breakpoints.points
  watchpoints := w.dbg.watchpoints.points
  continued := if 1 ≤ w.dbg.continueThread then some w.dbg.continueThread else none
  noAck := w.stub.noAckMode

/-- `gdb_stub_process`, as far as it returns `0`. -/
def stubProgram (fuel : Nat) (cb : GdbCallbacks x σ) :
    StreamProgram (World x σ) Byte (List Byte) where
  input w := w.stub.input
  output w := w.stub.output
  call w w' := gdbStubProcess fuel cb w = .ok (0, w')

end Rv32Gdb
