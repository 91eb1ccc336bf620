import Rv32Gdb.Numerals
import Rv32Gdb.Rv32i

/-!
# RV32I assembly text

`readAsm` reads a line of assembly: a mnemonic, a blank and the operands, which are registers or
numbers with commas between them; `Asm.exec` is what the line does.  The lines are those of the
operations on registers, of `lui`, `auipc` and `jal`, and of `ecall` and `ebreak`.  The operand of
`jal` is the address of the target.

`readAsm_line`: a line is read operand by operand, and an operand may be written as a register
(`readOperand_reg`), in decimal (`readOperand_dec`) or in hexadecimal (`readOperand_hex`).
-/

namespace Rv32Gdb

namespace Rv32i

/-! ### Instructions -/

/-- A line of assembly. -/
inductive Asm
  | instr (i : Instr)
  | jal (rd : Reg) (target : BitVec 32)
  | ebreak
  deriving DecidableEq, Repr

/-- What a line does to the state; `ebreak` besides halts the hart. -/
def Asm.exec (s : State) : Asm → State
  | .instr i => i.exec s
  | .jal rd target => (s.setReg rd (s.pc + 4)).jump target
  | .ebreak => s.next

/-- `ebreak` halts the hart. -/
def Asm.halts : Asm → Bool
  | .ebreak => true
  | _ => false

def ImmOp.mnemonic : ImmOp → List Byte
  | .addi => ascii "addi"
  | .slti => ascii "slti"
  | .sltiu => ascii "sltiu"
  | .xori => ascii "xori"
  | .ori => ascii "ori"
  | .andi => ascii "andi"

def RegOp.mnemonic : RegOp → List Byte
  | .add => ascii "add"
  | .sub => ascii "sub"
  | .sll => ascii "sll"
  | .slt => ascii "slt"
  | .sltu => ascii "sltu"
  | .xor => ascii "xor"
  | .srl => ascii "srl"
  | .sra => ascii "sra"
  | .or => ascii "or"
  | .and => ascii "and"

/-! ### Operands -/

inductive Operand
  | reg (r : Reg)
  | num (n : Int)
  deriving DecidableEq, Repr

/-- A numeral in base `b`. -/
def readDigits (b : Nat) (s : List Byte) : Option Nat :=
  if s ≠ [] ∧ ∀ c ∈ s, isDigit b c then some (numeralValue b s) else none

/-- A number without a sign, in decimal or with `0x` in hexadecimal. -/
def readNat (s : List Byte) : Option Nat :=
  if (ascii "0x").isPrefixOf s then readDigits 16 (s.drop 2) else readDigits 10 s

/-- A number. -/
def readInt (s : List Byte) : Option Int :=
  if s.head? = some (chr '-') then (readNat s.tail).map fun n : Nat => -(n : Int)
  else (readNat s).map Int.ofNat

/-- A register `x0` to `x31`, or a number. -/
def readOperand (s : List Byte) : Option Operand :=
  if s.head? = some (chr 'x') then
    (readDigits 10 s.tail).bind fun n => if n < 32 then some (.reg (BitVec.ofNat 5 n)) else none
  else (readInt s).map .num

/-! ### Lines -/

/-- The mnemonic and the operands. -/
def readLine (s : List Byte) : Option (List Byte × List Operand) :=
  let mnemonic := s.takeWhile (· ≠ chr ' ')
  let rest := s.dropWhile (· ≠ chr ' ')
  if rest = [] then some (mnemonic, [])
  else ((rest.splitOn (chr ',')).mapM fun t => readOperand (t.dropWhile (· = chr ' '))).map
    fun os => (mnemonic, os)

/-- A line from its mnemonic and its operands; an immediate has to fit its field. -/
def Asm.ofLine (mnemonic : List Byte) : List Operand → Option Asm
  | [] =>
    if mnemonic = ascii "ecall" then some (.instr .ecall)
    else if mnemonic = ascii "ebreak" then some .ebreak
    else none
  | [.reg rd, .num n] =>
    if mnemonic = ascii "jal" then
      if 0 ≤ n ∧ n < 2 ^ 32 then some (.jal rd (BitVec.ofInt 32 n)) else none
    else if 0 ≤ n ∧ n < 2 ^ 20 then
      if mnemonic = ascii "lui" then some (.instr (.lui rd (BitVec.ofInt 20 n)))
      else if mnemonic = ascii "auipc" then some (.instr (.auipc rd (BitVec.ofInt 20 n)))
      else none
    else none
  | [.reg rd, .reg rs1, .num n] =>
    if -2 ^ 11 ≤ n ∧ n < 2 ^ 11 then
      ([.addi, .slti, .sltiu, .xori, .ori, .andi].find? fun op => mnemonic = ImmOp.mnemonic op).map
        fun op => .instr (.opImm op rd rs1 (BitVec.ofInt 12 n))
    else none
  | [.reg rd, .reg rs1, .reg rs2] =>
    ([.add, .sub, .sll, .slt, .sltu, .xor, .srl, .sra, .or, .and].find? fun op =>
      mnemonic = RegOp.mnemonic op).map fun op => .instr (.opReg op rd rs1 rs2)
  | _ => none

/-- A line of assembly. -/
def readAsm (s : List Byte) : Option Asm := (readLine s).bind fun l => Asm.ofLine l.1 l.2

/-- A line as it is written: the operands are separated by a comma and a blank. -/
def line (mnemonic : List Byte) (operands : List (List Byte)) : List Byte :=
  mnemonic ++ [chr ','].intercalate (operands.map (chr ' ' :: ·))

/-! ### Reading operands -/

theorem readDigits_numeral {b : Nat} (hb : 1 < b) (hb' : b ≤ 16) (n : Nat) :
    readDigits b (numeral b n) = some n := by
  rw [readDigits, if_pos ⟨numeral_ne_nil b n, fun c hc => isDigit_numeral hb hb' hc⟩,
    numeralValue_numeral hb hb']

theorem mem_of_readDigits {b n : Nat} {s : List Byte} (h : readDigits b s = some n) :
    ∀ c ∈ s, isxdigit c := by
  unfold readDigits at h
  split_ifs at h with hs
  exact fun c hc => isxdigit_of_isDigit (hs.2 c hc)

/-- A decimal numeral has no `x` in it. -/
theorem readNat_numeral (n : Nat) : readNat (numeral 10 n) = some n := by
  have hno : ¬(ascii "0x").isPrefixOf (numeral 10 n) := by
    rw [List.isPrefixOf_iff_prefix]
    rintro ⟨s, hs⟩
    have hmem : chr 'x' ∈ numeral 10 n := by
      rw [← hs]
      exact List.mem_append_left _ (by decide)
    have hdigit := isDigit_numeral (by decide) (by decide) hmem
    revert hdigit
    decide
  rw [readNat, if_neg hno, readDigits_numeral (by decide) (by decide)]

theorem head_numeral_ne {c : Byte} (hc : ¬isxdigit c) (n : Nat) :
    (numeral 10 n).head? ≠ some c := fun h =>
  hc (isxdigit_of_isDigit (isDigit_numeral (by decide) (by decide) (List.mem_of_head? h)))

theorem readOperand_reg (r : Reg) : readOperand (chr 'x' :: numeral 10 r.toNat) = some (.reg r) := by
  rw [readOperand, List.head?_cons, if_pos rfl, List.tail_cons,
    readDigits_numeral (by decide) (by decide), Option.bind_some, if_pos r.isLt,
    BitVec.ofNat_toNat, BitVec.setWidth_eq]

theorem readOperand_dec (n : Int) : readOperand (decText n) = some (.num n) := by
  rw [decText]
  split_ifs with hneg
  · rw [readOperand, List.head?_cons, if_neg (by decide), readInt, List.head?_cons, if_pos rfl,
      List.tail_cons, readNat_numeral]
    show some (Operand.num (-(n.natAbs : Int))) = _
    rw [Int.ofNat_natAbs_of_nonpos (by omega), Int.neg_neg]
  · rw [readOperand, if_neg (head_numeral_ne (by decide) _), readInt,
      if_neg (head_numeral_ne (by decide) _), readNat_numeral]
    show some (Operand.num (n.natAbs : Int)) = _
    rw [Int.natAbs_of_nonneg (not_lt.mp hneg)]

theorem readOperand_hex (k n : Nat) : readOperand (ascii "0x" ++ hexPad k n) = some (.num n) := by
  have hdigits : readDigits 16 (hexPad k n) = some n := by
    have hval : numeralValue 16 (hexPad k n) = n :=
      (numeralValue_zeros_append 16 _ _).trans (numeralValue_numeral (by decide) (by decide) n)
    have hall : ∀ c ∈ hexPad k n, isDigit 16 c := by
      intro c hc
      rcases List.mem_append.mp hc with hc | hc
      · rw [List.eq_of_mem_replicate hc]
        decide
      · exact isDigit_numeral (by decide) (by decide) hc
    rw [readDigits, if_pos ⟨List.append_ne_nil_of_right_ne_nil _ (numeral_ne_nil 16 n), hall⟩, hval]
  have hx : ascii "0x" ++ hexPad k n = chr '0' :: chr 'x' :: hexPad k n := rfl
  rw [readOperand, hx, List.head?_cons, if_neg (by decide), readInt, List.head?_cons,
    if_neg (by decide), readNat, if_pos (by simp [ascii, List.isPrefixOf])]
  show ((readDigits 16 (hexPad k n)).map Int.ofNat).map Operand.num = _
  rw [hdigits]
  rfl

/-! ### Reading lines -/

theorem mem_of_readNat {n : Nat} {s : List Byte} (h : readNat s = some n) :
    ∀ c ∈ s, isxdigit c ∨ c = chr 'x' := by
  unfold readNat at h
  split_ifs at h with hfront
  · obtain ⟨t, rfl⟩ := List.isPrefixOf_iff_prefix.mp hfront
    intro c hc
    rcases List.mem_append.mp hc with hc | hc
    · have hmem : c ∈ [chr '0', chr 'x'] := hc
      simp only [List.mem_cons, List.not_mem_nil, or_false] at hmem
      rcases hmem with rfl | rfl
      · exact Or.inl (by decide)
      · exact Or.inr rfl
    · exact Or.inl (mem_of_readDigits h c hc)
  · exact fun c hc => Or.inl (mem_of_readDigits h c hc)

theorem mem_of_readInt {n : Int} {s : List Byte} (h : readInt s = some n) :
    ∀ c ∈ s, isxdigit c ∨ c = chr 'x' ∨ c = chr '-' := by
  unfold readInt at h
  split_ifs at h with hminus
  · obtain ⟨n, hn, -⟩ := Option.map_eq_some_iff.mp h
    obtain ⟨t, rfl⟩ := List.head?_eq_some_iff.mp hminus
    intro c hc
    rcases List.mem_cons.mp hc with rfl | hc
    · exact Or.inr (Or.inr rfl)
    · exact (mem_of_readNat hn c hc).imp_right Or.inl
  · obtain ⟨n, hn, -⟩ := Option.map_eq_some_iff.mp h
    exact fun c hc => (mem_of_readNat hn c hc).imp_right Or.inl

/-- The text of an operand has no comma and no blank. -/
theorem ne_of_mem_operand {t : List Byte} {o : Operand} (h : readOperand t = some o) {c : Byte}
    (hc : c ∈ t) : c ≠ chr ',' ∧ c ≠ chr ' ' := by
  have hchar : isxdigit c ∨ c = chr 'x' ∨ c = chr '-' := by
    unfold readOperand at h
    split_ifs at h with hx
    · obtain ⟨n, hn, -⟩ := Option.bind_eq_some_iff.mp h
      obtain ⟨t, rfl⟩ := List.head?_eq_some_iff.mp hx
      rcases List.mem_cons.mp hc with rfl | hc
      · exact Or.inr (Or.inl rfl)
      · exact Or.inl (mem_of_readDigits hn c hc)
    · obtain ⟨n, hn, -⟩ := Option.map_eq_some_iff.mp h
      exact mem_of_readInt hn c hc
  constructor
  · rintro rfl
    revert hchar
    decide
  · rintro rfl
    revert hchar
    decide

/-! ### Reading lines -/

theorem mapM_readOperand {ts : List (List Byte)} {os : List Operand}
    (h : List.Forall₂ (fun t o => readOperand t = some o) ts os) :
    ((ts.map (chr ' ' :: ·)).mapM fun t => readOperand (t.dropWhile (· = chr ' '))) = some os := by
  induction h with
  | nil => rfl
  | @cons t o ts os ht h ih =>
    have hdrop : (chr ' ' :: t).dropWhile (· = chr ' ') = t := by
      rw [List.dropWhile_cons_of_pos (by simp)]
      cases t with
      | nil => rfl
      | cons c t =>
        have hblank := (ne_of_mem_operand ht List.mem_cons_self).2
        exact List.dropWhile_cons_of_neg (by simpa using hblank)
    rw [List.map_cons, List.mapM_cons, hdrop, ht, ih]
    rfl

theorem exists_operand {ts : List (List Byte)} {os : List Operand}
    (h : List.Forall₂ (fun t o => readOperand t = some o) ts os) {t : List Byte} (ht : t ∈ ts) :
    ∃ o ∈ os, readOperand t = some o := by
  induction h with
  | nil => exact absurd ht List.not_mem_nil
  | @cons u o ts os hu h ih =>
    rcases List.mem_cons.mp ht with rfl | ht
    · exact ⟨o, List.mem_cons_self, hu⟩
    · obtain ⟨o', ho', hread⟩ := ih ht
      exact ⟨o', List.mem_cons_of_mem _ ho', hread⟩

/-- A line is read operand by operand. -/
theorem readAsm_line {mnemonic : List Byte} {ts : List (List Byte)} {os : List Operand}
    (hm : chr ' ' ∉ mnemonic) (h : List.Forall₂ (fun t o => readOperand t = some o) ts os) :
    readAsm (line mnemonic ts) = Asm.ofLine mnemonic os := by
  have hword : ∀ c ∈ mnemonic, decide (c ≠ chr ' ') := fun c hc =>
    decide_eq_true fun he => hm (he ▸ hc)
  have hline : readLine (line mnemonic ts) = some (mnemonic, os) := by
    rw [readLine, line, List.takeWhile_append_of_pos hword, List.dropWhile_append_of_pos hword]
    cases ts with
    | nil =>
      cases h
      simp
    | cons t ts =>
      -- the operands, each with the blank in front of it
      have hpiece : ∀ l ∈ (t :: ts).map (chr ' ' :: ·), chr ',' ∉ l := by
        intro l hl hc
        obtain ⟨u, hu, rfl⟩ := List.mem_map.mp hl
        obtain ⟨o, -, ho⟩ := exists_operand h hu
        rcases List.mem_cons.mp hc with hc | hc
        · exact absurd hc (by decide)
        · exact (ne_of_mem_operand ho hc).1 rfl
      have hsplit := List.splitOn_intercalate (chr ',') hpiece (List.cons_ne_nil _ _)
      have hblank : ∃ rest, [chr ','].intercalate ((t :: ts).map (chr ' ' :: ·)) =
          chr ' ' :: rest := by
        cases ts with
        | nil => exact ⟨t, by simp⟩
        | cons u us =>
          rw [List.map_cons, List.map_cons, List.intercalate_cons_cons]
          exact ⟨_, rfl⟩
      obtain ⟨rest, hrest⟩ := hblank
      have hmap := mapM_readOperand h
      rw [← hsplit, hrest] at hmap
      rw [hrest, List.takeWhile_cons_of_neg (by decide), List.append_nil,
        List.dropWhile_cons_of_neg (by decide), if_neg (List.cons_ne_nil _ _), hmap]
      rfl
  rw [readAsm, hline]
  rfl

end Rv32i

end Rv32Gdb
