import Mathlib.Data.Nat.Digits.Defs
import Mathlib.Tactic.Common

/-!
# Bytes, C strings and the C library on lists

A C string is the list of its characters without the terminating NUL.  `strncmpEq`, `strstr`,
`strtol16`, `snprintf` and the `%x` conversions are the C library calls of the stub on such
lists; `CharArray cap` is a local `char` array of `cap` bytes that is filled from the front, with
the bound as a field, so that a store past its end is an error (`Stuck.outOfBoundsWrite`) and not
a value.
-/

namespace Rv32Gdb

/-- A `char` or `uint8_t`. -/
abbrev Byte := BitVec 8

instance : LawfulBEq Byte := inferInstance

/-- The byte of an ASCII character literal. -/
def chr (c : Char) : Byte := BitVec.ofNat 8 c.toNat

/-- The characters of a string literal. -/
def ascii (s : String) : List Byte := s.toList.map chr

/-- Where an execution gets stuck: undefined behavior of the C code, or a loop that has not ended
after the given number of iterations. -/
inductive Stuck
  | outOfBoundsRead
  | outOfBoundsWrite
  | shiftOverflow
  | outOfFuel
  deriving DecidableEq, Repr

/-- The result of a piece of C code. -/
abbrev Result := Except Stuck

/-! ### Character classes and numbers -/

/-- `isxdigit`. -/
def isxdigit (c : Byte) : Bool :=
  (chr '0' ≤ c && c ≤ chr '9') || (chr 'a' ≤ c && c ≤ chr 'f') || (chr 'A' ≤ c && c ≤ chr 'F')

/-- `isspace` in the C locale. -/
def isspace (c : Byte) : Bool := c = 32#8 || (9#8 ≤ c && c ≤ 13#8)

/-- The value of a hexadecimal digit, `0` for any other character. -/
def hexToInt (c : Byte) : Byte :=
  if chr '0' ≤ c ∧ c ≤ chr '9' then c - chr '0'
  else if chr 'a' ≤ c ∧ c ≤ chr 'f' then c - chr 'a' + 10
  else if chr 'A' ≤ c ∧ c ≤ chr 'F' then c - chr 'A' + 10
  else 0

/-- The lower-case digit of a value below `16`. -/
def intToHex (val : Byte) : Byte := if val < 10 then chr '0' + val else chr 'a' + (val - 10)

/-- The number that a string of hexadecimal digits denotes, most significant digit first. -/
def hexValue (s : List Byte) : Nat := s.foldl (fun v c => v * 16 + (hexToInt c).toNat) 0

/-- `%x` of a non-negative number. -/
def hexText (n : Nat) : List Byte :=
  if n = 0 then [chr '0'] else (Nat.digits 16 n).reverse.map fun d => intToHex (BitVec.ofNat 8 d)

/-- `%x` of an `int`: the two's complement bits as an `unsigned`. -/
def hexTextInt (n : Int) : List Byte := hexText (n % 2 ^ 32).toNat

/-- `%0kx`. -/
def hexPad (k n : Nat) : List Byte :=
  List.replicate (k - (hexText n).length) (chr '0') ++ hexText n

/-- Conversion of an integer to `int`. -/
def toInt32 (n : Int) : Int := n.bmod (2 ^ 32)

/-- The digits `strtol` reads in base 16 after the sign: an optional `0x`, then hex digits. -/
def strtolDigits : List Byte → List Byte
  | z :: x :: d :: rest =>
    if z = chr '0' ∧ (x = chr 'x' ∨ x = chr 'X') ∧ isxdigit d then (d :: rest).takeWhile isxdigit
    else (z :: x :: d :: rest).takeWhile isxdigit
  | s => s.takeWhile isxdigit

/-- `strtol(s, NULL, 16)` with a 64-bit `long`. -/
def strtol16 (s : List Byte) : Int :=
  match s.dropWhile isspace with
  | [] => 0
  | c :: rest =>
    if c = chr '-' then max (-(hexValue (strtolDigits rest) : Int)) (-(2 ^ 63))
    else if c = chr '+' then min (hexValue (strtolDigits rest)) (2 ^ 63 - 1)
    else min (hexValue (strtolDigits (c :: rest))) (2 ^ 63 - 1)

/-- `strncmp(s, p, strlen(p)) == 0`. -/
def strncmpEq (s p : List Byte) : Bool := p.isPrefixOf s

/-- `strstr(s, p) != NULL`. -/
def strstr (s p : List Byte) : Bool := s.tails.any fun t => p.isPrefixOf t

/-- The string that `snprintf` leaves in a buffer of `size` bytes. -/
def snprintf (size : Nat) (text : List Byte) : List Byte := text.take (size - 1)

/-! ### Local arrays -/

/-- A local array of `cap` bytes, of which the first `data.length` have been written. -/
structure CharArray (cap : Nat) where
  data : List Byte
  bound : data.length ≤ cap

namespace CharArray

variable {cap : Nat}

/-- An array that has just been declared. -/
def empty (cap : Nat) : CharArray cap := ⟨[], Nat.zero_le _⟩

/-- `*p++ = c`, with `p` at the end of what has been written. -/
def push (a : CharArray cap) (c : Byte) : Result (CharArray cap) :=
  if h : a.data.length < cap then .ok ⟨a.data ++ [c], by simpa using Nat.succ_le_of_lt h⟩
  else .error .outOfBoundsWrite

/-- `*p = '\0'` at the end of what has been written; the result is the string. -/
def terminate (a : CharArray cap) : Result (List Byte) :=
  if a.data.length < cap then .ok a.data else .error .outOfBoundsWrite

/-- Storing a whole string, character by character. -/
def pushAll (a : CharArray cap) : List Byte → Result (CharArray cap)
  | [] => .ok a
  | c :: cs => do (← a.push c).pushAll cs

/-- `snprintf(a + pos, size, …)`, with `pos` at the end of what has been written: the text is cut
to `size - 1` characters, and the terminating NUL (overwritten by the next call) follows it. -/
def snprintfAt (a : CharArray cap) (size : Nat) (text : List Byte) : Result (CharArray cap) := do
  if size = 0 then .ok a
  else
    let a ← a.pushAll (text.take (size - 1))
    let _ ← a.terminate
    .ok a

end CharArray

end Rv32Gdb
