import Rv32Gdb.Bytes
import Mathlib.Data.Nat.Digits.Lemmas

/-!
# Numerals

`numeral b n` is a number as `printf` writes it in base `b`, and `numeralValue b` reads a numeral
with any digits, of either case.  `numeralValue_numeral`: a number that is written is read again, in
every base from `2` to `16`.
-/

namespace Rv32Gdb

/-! ### Digits -/

/-- A property of all bytes, checked one by one. -/
theorem forall_byte {P : Byte → Prop} (h : ∀ n < 256, P (BitVec.ofNat 8 n)) (c : Byte) : P c := by
  have := h c.toNat c.isLt
  rwa [BitVec.ofNat_toNat, BitVec.setWidth_eq] at this

theorem toNat_hexToInt_lt (c : Byte) : (hexToInt c).toNat < 16 :=
  forall_byte (P := fun c => (hexToInt c).toNat < 16) (by decide +kernel) c

theorem hexToInt_intToHex {v : Byte} (hv : v.toNat < 16) : hexToInt (intToHex v) = v := by
  have h : ∀ n < 16, hexToInt (intToHex (BitVec.ofNat 8 n)) = BitVec.ofNat 8 n := by decide +kernel
  have := h v.toNat hv
  rwa [BitVec.ofNat_toNat, BitVec.setWidth_eq] at this

theorem isxdigit_intToHex {v : Byte} (hv : v.toNat < 16) : isxdigit (intToHex v) := by
  have h : ∀ n < 16, isxdigit (intToHex (BitVec.ofNat 8 n)) := by decide +kernel
  have := h v.toNat hv
  rwa [BitVec.ofNat_toNat, BitVec.setWidth_eq] at this

/-- A digit of base `b`. -/
def isDigit (b : Nat) (c : Byte) : Bool := isxdigit c && decide ((hexToInt c).toNat < b)

theorem isxdigit_of_isDigit {b : Nat} {c : Byte} (h : isDigit b c) : isxdigit c := by
  rw [isDigit, Bool.and_eq_true] at h
  exact h.1

theorem isDigit_intToHex {b d : Nat} (hb : b ≤ 16) (hd : d < b) :
    isDigit b (intToHex (BitVec.ofNat 8 d)) := by
  have hval : (BitVec.ofNat 8 d).toNat = d := by
    rw [BitVec.toNat_ofNat]
    omega
  have hlt : (BitVec.ofNat 8 d).toNat < 16 := by omega
  rw [isDigit, hexToInt_intToHex hlt, isxdigit_intToHex hlt, hval, decide_eq_true hd]
  rfl

/-! ### Numbers -/

/-- A number in base `b`. -/
def numeral (b n : Nat) : List Byte :=
  if n = 0 then [chr '0'] else (Nat.digits b n).reverse.map fun d => intToHex (BitVec.ofNat 8 d)

/-- `%d`. -/
def decText (n : Int) : List Byte :=
  if n < 0 then chr '-' :: numeral 10 n.natAbs else numeral 10 n.natAbs

/-- The number that some digits denote in base `b`, most significant digit first. -/
def numeralValue (b : Nat) (s : List Byte) : Nat :=
  s.foldl (fun v c => v * b + (hexToInt c).toNat) 0

theorem numeralValue_append_singleton (b : Nat) (s : List Byte) (c : Byte) :
    numeralValue b (s ++ [c]) = numeralValue b s * b + (hexToInt c).toNat := by
  simp [numeralValue]

theorem numeralValue_map_reverse {b : Nat} (hb : b ≤ 16) {l : List Nat} (h : ∀ d ∈ l, d < b) :
    numeralValue b (l.reverse.map fun d => intToHex (BitVec.ofNat 8 d)) = Nat.ofDigits b l := by
  induction l with
  | nil => rfl
  | cons d l ih =>
    have hd := h d List.mem_cons_self
    have hval : (BitVec.ofNat 8 d).toNat = d := by
      rw [BitVec.toNat_ofNat]
      omega
    have hlt : (BitVec.ofNat 8 d).toNat < 16 := by omega
    rw [List.reverse_cons, List.map_append, List.map_singleton, numeralValue_append_singleton,
      ih fun e he => h e (List.mem_cons_of_mem d he), hexToInt_intToHex hlt, hval,
      Nat.ofDigits_cons, Nat.mul_comm, Nat.add_comm]

/-- Zeros in front do not change the number. -/
theorem numeralValue_zeros_append (b k : Nat) (s : List Byte) :
    numeralValue b (List.replicate k (chr '0') ++ s) = numeralValue b s := by
  induction k with
  | zero => rfl
  | succ k ih =>
    have hzero : numeralValue b (chr '0' :: (List.replicate k (chr '0') ++ s)) =
        numeralValue b (List.replicate k (chr '0') ++ s) := by
      show List.foldl _ (0 * b + 0) _ = _
      rw [Nat.zero_mul]
      rfl
    rw [List.replicate_succ, List.cons_append, hzero, ih]

section Base

variable {b : Nat}

theorem numeralValue_numeral (hb : 1 < b) (hb' : b ≤ 16) (n : Nat) :
    numeralValue b (numeral b n) = n := by
  unfold numeral
  split_ifs with hn
  · rw [hn]
    show 0 * b + 0 = 0
    omega
  · rw [numeralValue_map_reverse hb' fun d hd => Nat.digits_lt_base hb hd, Nat.ofDigits_digits]

theorem isDigit_numeral (hb : 1 < b) (hb' : b ≤ 16) {n : Nat} {c : Byte} (hc : c ∈ numeral b n) :
    isDigit b c := by
  unfold numeral at hc
  split_ifs at hc
  · rw [List.mem_singleton.mp hc]
    exact decide_eq_true (show 0 < b by omega)
  · obtain ⟨d, hd, rfl⟩ := List.mem_map.mp hc
    exact isDigit_intToHex hb' (Nat.digits_lt_base hb (List.mem_reverse.mp hd))

theorem numeral_ne_nil (b n : Nat) : numeral b n ≠ [] := by
  unfold numeral
  split_ifs with hn
  · exact List.cons_ne_nil _ _
  · intro h
    exact hn (Nat.digits_eq_nil_iff_eq_zero.mp
      (List.reverse_eq_nil_iff.mp (List.map_eq_nil_iff.mp h)))

theorem length_numeral_le (hb : 1 < b) {n k : Nat} (hk : 0 < k) (hn : n < b ^ k) :
    (numeral b n).length ≤ k := by
  unfold numeral
  split_ifs
  · exact hk
  · rw [List.length_map, List.length_reverse]
    exact (Nat.digits_length_le_iff hb _).mpr hn

end Base

end Rv32Gdb
