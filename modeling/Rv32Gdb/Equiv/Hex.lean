import Rv32Gdb.Numerals
import Rv32Gdb.Stub.Packet

/-!
# Correctness of the hex helpers

`hexPair_hexByte`: the two digits of a byte read back as the byte.  `hexValue_hexText`: `%x` of a
number denotes the number.  `parseHex_eq`: a parsed field is the number it denotes, modulo
`2^XLEN`.
-/

namespace Rv32Gdb

/-! ### Digits -/

theorem toNat_high_lt (b : Byte) : (b >>> 4).toNat < 16 := by
  have := b.isLt
  rw [BitVec.toNat_ushiftRight, Nat.shiftRight_eq_div_pow]
  omega

theorem toNat_low_lt (b : Byte) : (b &&& 0xF).toNat < 16 := by
  rw [BitVec.toNat_and]
  exact lt_of_le_of_lt Nat.and_le_right (by decide)

theorem hexPair_hexByte (b : Byte) : hexPair (intToHex (b >>> 4)) (intToHex (b &&& 0xF)) = b := by
  rw [hexPair, hexToInt_intToHex (toNat_high_lt b), hexToInt_intToHex (toNat_low_lt b)]
  exact forall_byte (P := fun b => (b >>> 4) <<< 4 ||| (b &&& 0xF) = b) (by decide +kernel) b

/-- A hex digit is no separator and no terminator. -/
theorem ne_of_isxdigit {c : Byte} (h : isxdigit c) :
    c ≠ chr ',' ∧ c ≠ chr ':' ∧ c ≠ chr '#' ∧ c ≠ 0#8 :=
  forall_byte (P := fun c => isxdigit c → c ≠ chr ',' ∧ c ≠ chr ':' ∧ c ≠ chr '#' ∧ c ≠ 0#8)
    (by decide +kernel) c h

theorem isxdigit_hexByte (b : Byte) : ∀ c ∈ hexByte b, isxdigit c := by
  intro c hc
  rw [hexByte, List.mem_cons, List.mem_singleton] at hc
  rcases hc with rfl | rfl
  · exact isxdigit_intToHex (toNat_high_lt b)
  · exact isxdigit_intToHex (toNat_low_lt b)

theorem length_hexByte (b : Byte) : (hexByte b).length = 2 := rfl

/-! ### Fields -/

theorem hexValue_hexText (n : Nat) : hexValue (hexText n) = n :=
  numeralValue_numeral (by decide) (by decide) n

theorem isxdigit_hexText {n : Nat} {c : Byte} (hc : c ∈ hexText n) : isxdigit c :=
  isxdigit_of_isDigit (isDigit_numeral (b := 16) (by decide) (by decide) hc)

theorem hexText_ne_nil (n : Nat) : hexText n ≠ [] := numeral_ne_nil 16 n

theorem hexValue_hexPad (k n : Nat) : hexValue (hexPad k n) = n :=
  (numeralValue_zeros_append 16 _ _).trans (hexValue_hexText n)

theorem hexText_inj {m n : Nat} (h : hexText m = hexText n) : m = n := by
  rw [← hexValue_hexText m, h, hexValue_hexText]

theorem length_hexText_le {n k : Nat} (hk : 0 < k) (hn : n < 16 ^ k) :
    (hexText n).length ≤ k :=
  length_numeral_le (b := 16) (by decide) hk hn

/-- Shifting a digit in is multiplying by `16` and adding. -/
theorem shiftLeft_or_digit {n : Nat} (v : BitVec n) (d : Byte) (hd : d.toNat < 16) :
    (v <<< 4) ||| d.setWidth n = v * 16 + d.setWidth n := by
  have hdisj : (v <<< 4) &&& d.setWidth n = 0 := by
    ext i hi
    simp only [BitVec.getElem_and, BitVec.getElem_shiftLeft, BitVec.getElem_setWidth]
    by_cases hi4 : i < 4
    · simp [hi4]
    · have hbit : d.getLsbD i = false := by
        refine Nat.testBit_lt_two_pow (lt_of_lt_of_le hd ?_)
        calc 16 = 2 ^ 4 := rfl
          _ ≤ 2 ^ i := Nat.pow_le_pow_right (by omega) (by omega)
      simp [hbit]
  rw [← BitVec.add_eq_or_of_and_eq_zero _ _ hdisj, BitVec.shiftLeft_eq_mul_twoPow]
  congr 2
  apply BitVec.eq_of_toNat_eq
  simp

theorem parseHex_fold (x : Xlen) (s : List Byte) (v : Nat) :
    s.foldl (fun (value : GdbAddr x) c => (value <<< 4) ||| (hexToInt c).setWidth x.bits)
        (BitVec.ofNat x.bits v) =
      BitVec.ofNat x.bits (s.foldl (fun v c => v * 16 + (hexToInt c).toNat) v) := by
  induction s generalizing v with
  | nil => rfl
  | cons c s ih =>
    rw [List.foldl_cons, List.foldl_cons, ← ih]
    congr 1
    rw [shiftLeft_or_digit _ _ (toNat_hexToInt_lt c), BitVec.ofNat_add, BitVec.ofNat_mul]
    congr 1
    exact BitVec.eq_of_toNat_eq (by simp)

theorem parseHex_eq (x : Xlen) (s : List Byte) (len : Nat) :
    parseHex x s len = BitVec.ofNat x.bits (hexValue (s.take len)) := parseHex_fold x _ 0

end Rv32Gdb
