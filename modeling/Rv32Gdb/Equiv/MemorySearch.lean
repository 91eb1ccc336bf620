import Rv32Gdb.Equiv.Replies
import Rv32Gdb.Equiv.Stops

/-!
# Searching memory

`PureMemory cb connected mem P` says what the results assume of the target: reading a byte returns
what `mem` holds, and keeps what `P` says of the target.

* `gdbStubProcess_searchMemory`: the reply to `qSearch:memory` is the first match, or `0`.
* `gdbStubProcess_endsWithin_iff`: the address loop ends in time unless its last address is the
  highest of all and nothing is found on the way there.
-/

namespace Rv32Gdb

variable {x : Xlen} {σ : Type}

/-- The memory of a target is `mem`, as long as the target is as `P` says, which reading keeps. -/
structure PureMemory (cb : GdbCallbacks x σ) (connected : Bool) (mem : GdbAddr x → Byte)
    (P : Target x σ → Prop) : Prop where
  value : ∀ t a, P t → (cb.readMem connected t a 1).1.setWidth 8 = mem a
  keep : ∀ t a, P t → P (cb.readMem connected t a 1).2

/-- The pattern stands at the address. -/
def HoldsAt (mem : GdbAddr x → Byte) (pattern : List Byte) (addr : GdbAddr x) : Prop :=
  ∀ i (h : i < pattern.length), mem (addr + BitVec.ofNat x.bits i) = pattern[i]

instance (mem : GdbAddr x → Byte) (pattern : List Byte) (addr : GdbAddr x) :
    Decidable (HoldsAt mem pattern addr) :=
  inferInstanceAs (Decidable (∀ i (h : i < pattern.length), _ = pattern[i]))

theorem length_hexPairs_eq (s : List Byte) : (hexPairs s).length = s.length / 2 := by
  induction s using List.twoStepInduction with
  | nil => rfl
  | singleton c => exact (Nat.div_eq_of_lt (by decide : 1 < 2)).symm
  | cons_cons hi lo rest ih _ =>
    rw [hexPairs, List.length_cons, ih, List.length_cons, List.length_cons]
    omega

section Loop

variable {cb : GdbCallbacks x σ} {mem : GdbAddr x → Byte} {P : Target x σ → Prop}

/-! ### One address -/

/-- The comparison at one address. -/
theorem matchPattern_iff {w : World x σ} (hmem : PureMemory cb w.stub.connected mem P)
    (hP : P w.toTarget) (addr : GdbAddr x) (i : Nat) (pattern : List Byte) :
    ((matchPattern cb addr i pattern w).1 ↔
        ∀ j (h : j < (hexPairs pattern).length),
          mem (addr + BitVec.ofNat x.bits (i + j)) = (hexPairs pattern)[j]) ∧
      P (matchPattern cb addr i pattern w).2.toTarget := by
  induction pattern using List.twoStepInduction generalizing i w with
  | nil => exact ⟨iff_of_true rfl fun j h => absurd h (Nat.not_lt_zero j), hP⟩
  | singleton c => exact ⟨iff_of_true rfl fun j h => absurd h (Nat.not_lt_zero j), hP⟩
  | cons_cons hi lo rest ih _ =>
    have hkeep := hmem.keep w.toTarget (addr + BitVec.ofNat x.bits i) hP
    have hvalue := hmem.value w.toTarget (addr + BitVec.ofNat x.bits i) hP
    have hbody : matchPattern cb addr i (hi :: lo :: rest) w =
        if hexPair hi lo ≠ mem (addr + BitVec.ofNat x.bits i) then
          (false, w.withTarget (cb.readMem w.stub.connected w.toTarget
            (addr + BitVec.ofNat x.bits i) 1).2)
        else matchPattern cb addr (i + 1) rest (w.withTarget (cb.readMem w.stub.connected
          w.toTarget (addr + BitVec.ofNat x.bits i) 1).2) := by
      rw [← hvalue, matchPattern]
      rfl
    rw [hbody]
    split_ifs with hne
    · refine ⟨⟨False.elim, fun hall => absurd ?_ hne⟩, hkeep⟩
      exact (hall 0 (Nat.succ_pos _)).symm
    · obtain ⟨hmatch, hP'⟩ := ih (w := w.withTarget (cb.readMem w.stub.connected w.toTarget
        (addr + BitVec.ofNat x.bits i) 1).2) hmem hkeep (i + 1)
      refine ⟨hmatch.trans ⟨fun hall j hj => ?_, fun hall j hj => ?_⟩, hP'⟩
      · cases j with
        | zero => exact (not_not.mp hne).symm
        | succ j =>
          have hrest := hall j (Nat.lt_of_succ_lt_succ hj)
          rwa [Nat.add_right_comm] at hrest
      · have hrest := hall (j + 1) (Nat.succ_lt_succ hj)
        rwa [← Nat.add_assoc, Nat.add_right_comm] at hrest

/-- The comparison that an iteration of the loop makes. -/
theorem matchPattern_zero_iff {w : World x σ} (hmem : PureMemory cb w.stub.connected mem P)
    (hP : P w.toTarget) (addr : GdbAddr x) (pattern : List Byte) :
    (matchPattern cb addr 0 pattern w).1 ↔ HoldsAt mem (hexPairs pattern) addr := by
  rw [(matchPattern_iff hmem hP addr 0 pattern).1]
  simp only [Nat.zero_add, HoldsAt]

/-! ### The loop -/

/-- The number of iterations of the address loop, if it ends when its condition has been tested at
most `fuel` times. -/
def searchIterations (cb : GdbCallbacks x σ) (last : GdbAddr x) (pattern : List Byte) :
    Nat → GdbAddr x → World x σ → Option Nat
  | 0, _, _ => none
  | fuel + 1, addr, w =>
    if addr ≤ last then
      let (found, w) := matchPattern cb addr 0 pattern w
      if found then some 1 else (searchIterations cb last pattern fuel (addr + 1) w).map (· + 1)
    else some 0

/-- The address loop ends after at most `k` iterations. -/
def EndsWithin (cb : GdbCallbacks x σ) (last : GdbAddr x) (pattern : List Byte) (addr : GdbAddr x)
    (w : World x σ) (k : Nat) : Prop :=
  ∃ fuel n, searchIterations cb last pattern fuel addr w = some n ∧ n ≤ k

/-- The loop returns when its iterations end. -/
theorem isOk_searchLoop_iff (last : GdbAddr x) (pattern : List Byte) (fuel : Nat)
    (addr : GdbAddr x) (w : World x σ) : (searchLoop cb last pattern fuel addr w).isOk ↔
      (searchIterations cb last pattern fuel addr w).isSome := by
  induction fuel generalizing addr w with
  | zero => exact iff_of_false Bool.false_ne_true Bool.false_ne_true
  | succ fuel ih =>
    rw [searchLoop, searchIterations]
    simp only
    split_ifs
    · exact iff_of_true rfl rfl
    · rw [Option.isSome_map]
      exact ih _ _
    · exact iff_of_true rfl rfl

/-- The first `d` addresses are below the last one, and the pattern does not stand there. -/
def Misses (mem : GdbAddr x → Byte) (pattern : List Byte) (last addr : GdbAddr x) (d : Nat) :
    Prop :=
  ∀ i < d, addr + BitVec.ofNat x.bits i ≤ last ∧
    ¬HoldsAt mem (hexPairs pattern) (addr + BitVec.ofNat x.bits i)

theorem add_one_add_ofNat (addr : GdbAddr x) (i : Nat) :
    addr + 1 + BitVec.ofNat x.bits i = addr + BitVec.ofNat x.bits (i + 1) := by
  rw [Nat.add_comm i 1, BitVec.ofNat_add, ← BitVec.add_assoc]
  rfl

theorem Misses.tail {pattern : List Byte} {last addr : GdbAddr x} {d : Nat}
    (h : Misses mem pattern last addr (d + 1)) : Misses mem pattern last (addr + 1) d := by
  intro i hi
  rw [add_one_add_ofNat]
  exact h (i + 1) (Nat.succ_lt_succ hi)

theorem Misses.head {pattern : List Byte} {last addr : GdbAddr x} {d : Nat}
    (h : Misses mem pattern last addr (d + 1)) :
    addr ≤ last ∧ ¬HoldsAt mem (hexPairs pattern) addr := by
  have hzero := h 0 (Nat.succ_pos _)
  rwa [show BitVec.ofNat x.bits 0 = 0#x.bits from rfl, BitVec.add_zero] at hzero

/-- The loop goes past addresses at which it finds nothing. -/
theorem exists_of_misses {w : World x σ} (hmem : PureMemory cb w.stub.connected mem P)
    (hP : P w.toTarget) {pattern : List Byte} {last addr : GdbAddr x} {d : Nat}
    (h : Misses mem pattern last addr d) : ∃ w', w'.stub = w.stub ∧ P w'.toTarget ∧
      ∀ fuel, searchLoop cb last pattern (fuel + d) addr w =
          searchLoop cb last pattern fuel (addr + BitVec.ofNat x.bits d) w' ∧
        searchIterations cb last pattern (fuel + d) addr w =
          (searchIterations cb last pattern fuel (addr + BitVec.ofNat x.bits d) w').map (· + d) := by
  induction d generalizing addr w with
  | zero =>
    refine ⟨w, rfl, hP, fun fuel => ?_⟩
    rw [show BitVec.ofNat x.bits 0 = 0#x.bits from rfl, BitVec.add_zero]
    exact ⟨rfl, Option.map_id'.symm⟩
  | succ d ih =>
    obtain ⟨hle, hnot⟩ := h.head
    have hfound := mt (matchPattern_zero_iff hmem hP addr pattern).mp hnot
    have hstub := stub_matchPattern cb addr 0 pattern w
    obtain ⟨w', hstub', hP', hloop⟩ := ih (w := (matchPattern cb addr 0 pattern w).2)
      (hstub ▸ hmem) (matchPattern_iff hmem hP addr 0 pattern).2 h.tail
    refine ⟨w', hstub'.trans hstub, hP', fun fuel => ?_⟩
    obtain ⟨hsearch, hcount⟩ := hloop fuel
    rw [add_one_add_ofNat] at hsearch hcount
    rw [← Nat.add_assoc, searchLoop, searchIterations]
    simp only
    rw [if_pos hle, if_neg hfound, if_pos hle, if_neg hfound, hsearch, hcount, Option.map_map]
    exact ⟨rfl, rfl⟩

/-- As long as the loop finds nothing it goes on. -/
theorem searchIterations_of_misses {w : World x σ}
    (hmem : PureMemory cb w.stub.connected mem P) (hP : P w.toTarget) {pattern : List Byte}
    {last addr : GdbAddr x} {fuel : Nat} (h : Misses mem pattern last addr fuel) :
    searchIterations cb last pattern fuel addr w = none := by
  obtain ⟨w', -, -, hloop⟩ := exists_of_misses hmem hP h
  have hcount := (hloop 0).2
  rwa [Nat.zero_add] at hcount

/-- A loop without an iteration starts above the last address. -/
theorem lt_of_searchIterations {last addr : GdbAddr x} {pattern : List Byte} {fuel : Nat}
    {w : World x σ} (h : searchIterations cb last pattern fuel addr w = some 0) :
    ¬addr ≤ last := by
  intro hle
  cases fuel with
  | zero => cases h
  | succ fuel =>
    rw [searchIterations] at h
    simp only at h
    rw [if_pos hle] at h
    split_ifs at h
    · cases h
    · obtain ⟨n, -, hn⟩ := Option.map_eq_some_iff.mp h
      exact Nat.succ_ne_zero n hn

/-- The end of the loop at an address above the last one. -/
theorem search_of_misses {w : World x σ} (hmem : PureMemory cb w.stub.connected mem P)
    (hP : P w.toTarget) {pattern : List Byte} {last addr : GdbAddr x} {d : Nat}
    (h : Misses mem pattern last addr d) (hlt : ¬addr + BitVec.ofNat x.bits d ≤ last)
    {fuel : Nat} (hfuel : d < fuel) :
    (∃ w' : World x σ, w'.stub = w.stub ∧
        searchLoop cb last pattern fuel addr w = .ok (w'.send (ascii "0"))) ∧
      searchIterations cb last pattern fuel addr w = some d := by
  obtain ⟨k, rfl⟩ : ∃ k, fuel = k + 1 + d := ⟨fuel - d - 1, by omega⟩
  obtain ⟨w', hstub, -, hloop⟩ := exists_of_misses hmem hP h
  obtain ⟨hsearch, hcount⟩ := hloop (k + 1)
  refine ⟨⟨w', hstub, ?_⟩, ?_⟩
  · rw [hsearch, searchLoop, if_neg hlt]
  · rw [hcount, searchIterations, if_neg hlt, Option.map_some, Nat.zero_add]

/-- The end of the loop at the first match. -/
theorem search_of_holdsAt {w : World x σ} (hmem : PureMemory cb w.stub.connected mem P)
    (hP : P w.toTarget) {pattern : List Byte} {last addr : GdbAddr x} {d : Nat}
    (h : Misses mem pattern last addr d) (hle : addr + BitVec.ofNat x.bits d ≤ last)
    (hhold : HoldsAt mem (hexPairs pattern) (addr + BitVec.ofNat x.bits d))
    {fuel : Nat} (hfuel : d < fuel) :
    (∃ w' : World x σ, w'.stub = w.stub ∧ searchLoop cb last pattern fuel addr w =
        .ok (w'.send (ascii "1," ++ addrText (addr + BitVec.ofNat x.bits d)))) ∧
      searchIterations cb last pattern fuel addr w = some (d + 1) := by
  obtain ⟨k, rfl⟩ : ∃ k, fuel = k + 1 + d := ⟨fuel - d - 1, by omega⟩
  obtain ⟨w', hstub, hP', hloop⟩ := exists_of_misses hmem hP h
  obtain ⟨hsearch, hcount⟩ := hloop (k + 1)
  have hfound := (matchPattern_zero_iff (hstub ▸ hmem) hP' _ pattern).mpr hhold
  have hlen := length_addrText_le (addr + BitVec.ofNat x.bits d)
  have htext : snprintf 48 (ascii "1," ++ addrText (addr + BitVec.ofNat x.bits d)) =
      ascii "1," ++ addrText (addr + BitVec.ofNat x.bits d) := by
    refine List.take_of_length_le ?_
    rw [List.length_append]
    exact (Nat.add_le_add_left hlen _).trans (by decide)
  refine ⟨⟨_, (stub_matchPattern cb (addr + BitVec.ofNat x.bits d) 0 pattern w').trans hstub, ?_⟩,
    ?_⟩
  · rw [hsearch, searchLoop]
    simp only
    rw [if_pos hle, if_pos hfound, htext]
  · rw [hcount, searchIterations]
    simp only
    rw [if_pos hle, if_pos hfound, Option.map_some, Nat.add_comm]

/-! ### The addresses of the search -/

theorem toNat_add_ofNat {addr : GdbAddr x} {i : Nat} (h : addr.toNat + i < 2 ^ x.bits) :
    (addr + BitVec.ofNat x.bits i).toNat = addr.toNat + i := by
  rw [BitVec.toNat_add, BitVec.toNat_ofNat, Nat.add_mod_mod, Nat.mod_eq_of_lt h]

theorem eq_allOnes_iff {addr : GdbAddr x} :
    addr = BitVec.allOnes x.bits ↔ addr.toNat + 1 = 2 ^ x.bits := by
  have hpos := Nat.two_pow_pos x.bits
  rw [← BitVec.toNat_inj, BitVec.toNat_allOnes]
  exact ⟨fun h => by rw [h, Nat.sub_add_cancel hpos], fun h => by rw [← h, Nat.add_sub_cancel]⟩

theorem le_allOnes (addr : GdbAddr x) : addr ≤ BitVec.allOnes x.bits := by
  have hlt := addr.isLt
  have htop := eq_allOnes_iff.mp (rfl : BitVec.allOnes x.bits = _)
  rw [BitVec.le_def]
  omega

/-- The last address of a search, which wraps. -/
theorem toNat_last (start len : GdbAddr x) {p : Nat} (h : p ≤ len.toNat) :
    (start + len - BitVec.ofNat x.bits p).toNat = (start.toNat + (len.toNat - p)) % 2 ^ x.bits := by
  obtain ⟨k, hk⟩ : ∃ k, len.toNat = k + p := ⟨len.toNat - p, by omega⟩
  have hlen : len = BitVec.ofNat x.bits k + BitVec.ofNat x.bits p := by
    rw [← BitVec.ofNat_add, ← hk, BitVec.ofNat_toNat, BitVec.setWidth_eq]
  rw [hlen, ← BitVec.add_assoc, BitVec.add_sub_cancel, ← hlen, hk, Nat.add_sub_cancel,
    BitVec.toNat_add, BitVec.toNat_ofNat, Nat.add_mod_mod]

/-- The first match up to the last address, or none. -/
theorem exists_first_or_misses (pattern : List Byte) {last start : GdbAddr x} {n : Nat}
    (hlast : last.toNat = start.toNat + n) :
    (∃ d ≤ n, Misses mem pattern last start d ∧ start + BitVec.ofNat x.bits d ≤ last ∧
        HoldsAt mem (hexPairs pattern) (start + BitVec.ofNat x.bits d)) ∨
      Misses mem pattern last start (n + 1) := by
  have hbound := last.isLt
  have hle : ∀ i ≤ n, start + BitVec.ofNat x.bits i ≤ last := by
    intro i hi
    rw [BitVec.le_def, toNat_add_ofNat (by omega)]
    omega
  by_cases hex : ∃ d, d ≤ n ∧ HoldsAt mem (hexPairs pattern) (start + BitVec.ofNat x.bits d)
  · left
    obtain ⟨hfirst, hhold⟩ := Nat.find_spec hex
    refine ⟨Nat.find hex, hfirst, fun i hi => ?_, hle _ hfirst, hhold⟩
    have hin : i ≤ n := by omega
    exact ⟨hle i hin, fun hi' => Nat.find_min hex hi ⟨hin, hi'⟩⟩
  · right
    intro i hi
    have hin : i ≤ n := by omega
    exact ⟨hle i hin, fun hi' => hex ⟨i, hin, hi'⟩⟩

theorem not_holdsAt_of_misses {pattern : List Byte} {last start a : GdbAddr x} {d : Nat}
    (h : Misses mem pattern last start d) (hle : start.toNat ≤ a.toNat)
    (hlt : a.toNat < start.toNat + d) : ¬HoldsAt mem (hexPairs pattern) a := by
  have hbound := a.isLt
  have haddr : start + BitVec.ofNat x.bits (a.toNat - start.toNat) = a := by
    apply BitVec.eq_of_toNat_eq
    rw [toNat_add_ofNat (by omega)]
    omega
  rw [← haddr]
  exact (h _ (by omega)).2

/-- A loop whose last address is the last of all goes on when it has found nothing. -/
theorem not_endsWithin_of_misses {w : World x σ}
    (hmem : PureMemory cb w.stub.connected mem P) (hP : P w.toTarget) {pattern : List Byte}
    {last start : GdbAddr x} {d : Nat} (h : Misses mem pattern last start d)
    (htop : last = BitVec.allOnes x.bits) : ¬EndsWithin cb last pattern start w d := by
  rintro ⟨fuel, n, hcount, hn⟩
  by_cases hfuel : fuel ≤ d
  · have hnone := searchIterations_of_misses hmem hP fun i (hi : i < fuel) =>
      h i (Nat.lt_of_lt_of_le hi hfuel)
    rw [hnone] at hcount
    cases hcount
  · obtain ⟨k, rfl⟩ : ∃ k, fuel = k + d := ⟨fuel - d, by omega⟩
    obtain ⟨w', -, -, hloop⟩ := exists_of_misses hmem hP h
    rw [(hloop k).2] at hcount
    obtain ⟨m, hm, hmn⟩ := Option.map_eq_some_iff.mp hcount
    obtain rfl : m = 0 := by omega
    exact lt_of_searchIterations hm (htop ▸ le_allOnes _)

/-- The loop ends in time unless its last address is the last of all and nothing is found on the
way there. -/
theorem endsWithin_iff {w : World x σ} (hmem : PureMemory cb w.stub.connected mem P)
    (hP : P w.toTarget) {pattern : List Byte} {start len : GdbAddr x} {p : Nat}
    (hp : p ≤ len.toNat) :
    let last := start + len - BitVec.ofNat x.bits p
    EndsWithin cb last pattern start w (len.toNat - p + 1) ↔
      ¬(last = BitVec.allOnes x.bits ∧ ∀ a, start ≤ a → ¬HoldsAt mem (hexPairs pattern) a) := by
  intro last
  have hlast : last.toNat = _ := toNat_last start len hp
  by_cases hwrap : start.toNat + (len.toNat - p) < 2 ^ x.bits
  · rw [Nat.mod_eq_of_lt hwrap] at hlast
    rcases @exists_first_or_misses _ mem pattern _ _ _ hlast with
      ⟨d, hd, hmisses, hle, hhold⟩ | hmisses
    · -- a match in time
      refine iff_of_true ⟨d + 1, d + 1, ?_, by omega⟩ fun h => h.2 _ ?_ hhold
      · exact (search_of_holdsAt hmem hP hmisses hle hhold (Nat.lt_succ_self d)).2
      · rw [BitVec.le_def, toNat_add_ofNat (by omega)]
        omega
    · by_cases htop : last = BitVec.allOnes x.bits
      · -- no address is above the last one
        refine iff_of_false ?_ fun h => h ⟨htop, fun a ha => ?_⟩
        · exact not_endsWithin_of_misses hmem hP hmisses htop
        · have hmax := eq_allOnes_iff.mp htop
          have hlt := a.isLt
          exact not_holdsAt_of_misses hmisses (BitVec.le_def.mp ha) (by omega)
      · -- the address after the last one is above it
        refine iff_of_true ⟨len.toNat - p + 1 + 1, len.toNat - p + 1, ?_, le_rfl⟩ fun h => htop h.1
        have hmax := mt eq_allOnes_iff.mpr htop
        have hlt := last.isLt
        refine (search_of_misses hmem hP hmisses ?_ (Nat.lt_succ_self _)).2
        rw [BitVec.le_def, toNat_add_ofNat (by omega)]
        omega
  · -- the last address wraps to below the first one
    have hstart := start.isLt
    have hlen := len.isLt
    have hbelow : last.toNat < start.toNat := by
      rw [hlast, Nat.mod_eq_sub_mod (by omega), Nat.mod_eq_of_lt (by omega)]
      omega
    have hlt : ¬start ≤ last := by
      rw [BitVec.le_def]
      omega
    refine iff_of_true ⟨1, 0, ?_, Nat.zero_le _⟩ fun h => ?_
    · rw [searchIterations, if_neg hlt]
    · rw [h.1, BitVec.toNat_allOnes] at hbelow
      omega

/-- The addresses at which a search of `len` bytes from `start` on may find the bytes. -/
def searchMatches (mem : GdbAddr x → Byte) (bytes : List Byte) (start len : Nat) :
    Set (GdbAddr x) :=
  {a | start ≤ a.toNat ∧ a.toNat + bytes.length ≤ start + len ∧ HoldsAt mem bytes a}

/-- What a search of a stretch of memory that does not wrap replies. -/
theorem searchLoop_eq {w : World x σ} (hmem : PureMemory cb w.stub.connected mem P)
    (hP : P w.toTarget) {pattern : List Byte} {start len : GdbAddr x}
    (hpos : 0 < (hexPairs pattern).length) (hple : (hexPairs pattern).length ≤ len.toNat)
    (hbits : start.toNat + len.toNat < 2 ^ x.bits) {fuel : Nat}
    (hfuel : len.toNat - (hexPairs pattern).length + 1 < fuel) :
    ∃ (w' : World x σ) (reply : List Byte), w'.stub = w.stub ∧
      searchLoop cb (start + len - BitVec.ofNat x.bits (hexPairs pattern).length) pattern fuel
        start w = .ok (w'.send reply) ∧
      ((∃ a, IsLeast (searchMatches mem (hexPairs pattern) start.toNat len.toNat) a ∧
          reply = ascii "1," ++ addrText a) ∨
        searchMatches mem (hexPairs pattern) start.toNat len.toNat = ∅ ∧ reply = ascii "0") := by
  set p := (hexPairs pattern).length with hp
  have hlast := toNat_last start len hple
  rw [Nat.mod_eq_of_lt (by omega)] at hlast
  rcases @exists_first_or_misses _ mem pattern _ _ _ hlast with
    ⟨d, hd, hmisses, hle, hhold⟩ | hmisses
  · have hfound : d < fuel := by omega
    obtain ⟨⟨w', hstub, hsearch⟩, -⟩ := search_of_holdsAt hmem hP hmisses hle hhold hfound
    have haddr : (start + BitVec.ofNat x.bits d).toNat = start.toNat + d :=
      toNat_add_ofNat (by omega)
    refine ⟨w', _, hstub, hsearch, Or.inl ⟨_, ⟨⟨?_, ?_, hhold⟩, fun b hb => ?_⟩, rfl⟩⟩
    · omega
    · omega
    · obtain ⟨hstart, -, hmatch⟩ := hb
      rw [BitVec.le_def]
      by_contra hlt
      exact not_holdsAt_of_misses hmisses hstart (by omega) hmatch
  · have hlt : ¬start + BitVec.ofNat x.bits (len.toNat - p + 1) ≤
        start + len - BitVec.ofNat x.bits p := by
      rw [BitVec.le_def, hlast, toNat_add_ofNat (by omega)]
      omega
    obtain ⟨⟨w', hstub, hsearch⟩, -⟩ := search_of_misses hmem hP hmisses hlt hfuel
    refine ⟨w', _, hstub, hsearch, Or.inr ⟨?_, rfl⟩⟩
    refine Set.eq_empty_iff_forall_notMem.mpr fun b hb => ?_
    obtain ⟨hstart, hend, hmatch⟩ := hb
    exact not_holdsAt_of_misses hmisses hstart (by omega) hmatch

end Loop

/-! ### The packet -/

/-- `qSearch:memory` with the texts of address, length and pattern. -/
def searchPacket (start len pattern : List Byte) : List Byte :=
  ascii "qSearch:memory:" ++ (start ++ chr ':' :: (len ++ chr ':' :: pattern))

theorem takeWhile_searchPacket {start len pattern : List Byte} (hstart : ∀ c ∈ start, isxdigit c)
    (hlen : ∀ c ∈ len, isxdigit c) (hpattern : ∀ c ∈ pattern, isxdigit c) :
    (searchPacket start len pattern).takeWhile (· ≠ 0#8) = searchPacket start len pattern := by
  have hdigits := fun {l : List Byte} (hl : ∀ c ∈ l, isxdigit c) c (hc : c ∈ l) =>
    (ne_of_isxdigit (hl c hc)).2.2.2
  rw [List.takeWhile_eq_self_iff]
  intro c hc
  simp only [searchPacket, List.mem_append, List.mem_cons] at hc
  rw [decide_eq_true_eq]
  rcases hc with hc | hc | rfl | hc | rfl | hc
  · exact (by decide : ∀ c ∈ ascii "qSearch:memory:", c ≠ 0#8) c hc
  · exact hdigits hstart c hc
  · decide
  · exact hdigits hlen c hc
  · decide
  · exact hdigits hpattern c hc

/-- What the handler does after it has cut the packet at its separators. -/
theorem handleSearchMemory_of_packetText (cb : GdbCallbacks x σ) {w : World x σ}
    {start len pattern : List Byte} (htext : w.packetText = searchPacket start len pattern)
    (hstart : chr ':' ∉ start) (hlen : chr ':' ∉ len) :
    ∃ buf, ∀ fuel, handleSearchMemory fuel cb w =
      let a := parseHex x start start.length
      let n := parseHex x len len.length
      let p := pattern.length / 2
      if p = 0 ∨ n.toNat < p then .ok ((w.setBuffer buf).send (ascii "0"))
      else searchLoop cb (a + n - BitVec.ofNat x.bits p) pattern fuel a (w.setBuffer buf) := by
  set buf := w.stub.packetBuffer with hbuf
  have hnul : 0#8 ∉ w.packetText := not_mem_cstr buf 0
  have hfields : cstr buf 15 = start ++ chr ':' :: (len ++ chr ':' :: pattern) := by
    have hbytes : HasBytes buf 0 (cstr buf 0) := hasBytes_cstr (Nat.zero_le _)
    rw [show cstr buf 0 = searchPacket start len pattern from htext, searchPacket] at hbytes
    have hsplit := cstr_append (hasBytes_append.mp hbytes).1 (by decide)
    rw [show cstr buf 0 = searchPacket start len pattern from htext, searchPacket] at hsplit
    exact (List.append_cancel_left hsplit).symm
  obtain ⟨p, hp, hppos, hpstart, hprest⟩ := strchr_cut (by decide) hfields hstart
  have hrest : cstr buf (p + 1) = len ++ chr ':' :: pattern :=
    (cstr_setByte_of_lt 0 (Nat.lt_succ_self _)).symm.trans (hprest 0)
  obtain ⟨q, hq, hqpos, -, -⟩ := strchr_cut p.isLt hrest hlen
  obtain ⟨q', -, hqpos', hqlen, hqrest⟩ := strchr_cut p.isLt (hprest 0) hlen
  obtain rfl : q = q' := Fin.ext (hqpos.trans hqpos'.symm)
  have hcut : cstr (setByte (setByte buf p 0) q 0) 15 = start := by
    rw [cstr_setByte_of_length_lt 0 (by rw [hpstart]; omega), hpstart]
  refine ⟨setByte (setByte buf p 0) q 0, fun fuel => ?_⟩
  have hstartlen : (p : Nat) - 15 = start.length := by omega
  have hlenlen : (q : Nat) - p - 1 = len.length := by omega
  rw [handleSearchMemory]
  simp only [← hbuf, hp, hq, hcut, hqlen, hqrest 0, hstartlen, hlenlen]

/-- What a received search packet leads to. -/
theorem gdbStubProcess_of_searchPacket (cb : GdbCallbacks x σ) {w : World x σ}
    {packet rest start len pattern : List Byte} (hconn : w.stub.connected)
    (hfail : w.stub.consecutiveFailures < 50) (hin : Framed packet rest w.stub.input)
    (hbound : packet.length < gdbBufferSize)
    (htext : packet.takeWhile (· ≠ 0#8) = searchPacket start len pattern)
    (hstart : chr ':' ∉ start) (hlen : chr ':' ∉ len) :
    ∃ w₁ : World x σ, w₁.toTarget = w.toTarget ∧ w₁.stub.connected = w.stub.connected ∧
      w₁.stub.output = w.stub.output ++ w.stub.ack ∧
      ∀ fuel, gdbStubProcess fuel cb w =
        let a := parseHex x start start.length
        let n := parseHex x len len.length
        let p := (hexPairs pattern).length
        if p = 0 ∨ n.toNat < p then .ok (0, w₁.send (ascii "0"))
        else andReturnZero (searchLoop cb (a + n - BitVec.ofNat x.bits p) pattern fuel a w₁) := by
  obtain ⟨s', hrecv, hreceived⟩ := receivePacket_framed hin hbound
  have hproc : ∀ fuel, gdbStubProcess fuel cb w = dispatch fuel cb { w with stub := s' } := by
    intro fuel
    rw [gdbStubProcess, hconn, if_neg (by simp), if_neg (by omega), hrecv]
    rfl
  have hpacket : ({ w with stub := s' } : World x σ).packetText =
      searchPacket start len pattern := by
    rw [packetText_of_received hreceived, htext]
  have hfront : strncmpEq ({ w with stub := s' } : World x σ).packetText
      (ascii "qSearch:memory:") := by
    rw [hpacket]
    exact List.isPrefixOf_iff_prefix.mpr (List.prefix_append _ _)
  obtain ⟨buf, hhandle⟩ := handleSearchMemory_of_packetText cb hpacket hstart hlen
  refine ⟨({ w with stub := s' } : World x σ).setBuffer buf, rfl, ?_, ?_, fun fuel => ?_⟩
  · show s'.connected = _
    rw [hreceived.eq]
  · show s'.output = _
    rw [hreceived.eq]
  · rw [hproc fuel, dispatch_searchMemory fuel cb hfront, hhandle fuel, ← length_hexPairs_eq]
    simp only
    split_ifs
    · rfl
    · rfl

/-- A target that is nothing but a byte memory is read without a change. -/
theorem pureMemory_byteMemoryCallbacks (x : Xlen) (mem : GdbAddr x → Byte) :
    PureMemory (byteMemoryCallbacks x) true mem fun t => t.sim = mem where
  value t a ht := by
    rw [← ht]
    exact BitVec.setWidth_setWidth_of_le _ (by cases x <;> decide)
  keep _ _ ht := ht

/-! ### Main results -/

/-- `qSearch:memory` replies with the first match, or `0` if there is none. -/
theorem gdbStubProcess_searchMemory {fuel : Nat} {cb : GdbCallbacks x σ} {w : World x σ}
    {mem : GdbAddr x → Byte} {P : Target x σ → Prop} {start len pattern rest : List Byte}
    (hconn : w.stub.connected) (hfail : w.stub.consecutiveFailures < 50)
    (hmem : PureMemory cb w.stub.connected mem P) (hP : P w.toTarget)
    (hstart : ∀ c ∈ start, isxdigit c) (hlen : ∀ c ∈ len, isxdigit c)
    (hpattern : ∀ c ∈ pattern, isxdigit c) {p : Nat} (hp : pattern.length = 2 * p) (hpos : 0 < p)
    (hple : p ≤ hexValue len) (hbits : hexValue start + hexValue len < 2 ^ x.bits)
    (hbound : (searchPacket start len pattern).length < gdbBufferSize)
    (hin : Framed (searchPacket start len pattern) rest w.stub.input)
    (hfuel : hexValue len - p + 1 < fuel) :
    ∃ w' reply, gdbStubProcess fuel cb w = .ok (0, w') ∧
      w'.stub.output = w.stub.output ++ w.stub.ack ++ [frame reply] ∧
      ((∃ a, IsLeast (searchMatches mem (hexPairs pattern) (hexValue start) (hexValue len)) a ∧
          reply = ascii "1," ++ addrText a) ∨
        searchMatches mem (hexPairs pattern) (hexValue start) (hexValue len) = ∅ ∧
          reply = ascii "0") := by
  obtain ⟨w₁, htarget, hconn₁, hout, hproc⟩ := gdbStubProcess_of_searchPacket cb hconn hfail hin
    hbound (takeWhile_searchPacket hstart hlen hpattern)
    (fun hm => (ne_of_isxdigit (hstart _ hm)).2.1 rfl) fun hm => (ne_of_isxdigit (hlen _ hm)).2.1 rfl
  have hp' : (hexPairs pattern).length = p := length_hexPairs hp
  have haddr : (parseHex x start start.length).toNat = hexValue start := by
    rw [parseHex_eq, List.take_length, BitVec.toNat_ofNat, Nat.mod_eq_of_lt (by omega)]
  have hcount : (parseHex x len len.length).toNat = hexValue len := by
    rw [parseHex_eq, List.take_length, BitVec.toNat_ofNat, Nat.mod_eq_of_lt (by omega)]
  have hfound : (parseHex x len len.length).toNat - (hexPairs pattern).length + 1 < fuel := by omega
  have hbits : (parseHex x start start.length).toNat + (parseHex x len len.length).toNat <
      2 ^ x.bits := by omega
  have hmem₁ : PureMemory cb w₁.stub.connected mem P := hconn₁ ▸ hmem
  obtain ⟨w', reply, hstub, hloop, hreply⟩ :=
    searchLoop_eq hmem₁ (htarget ▸ hP) (by omega) (by omega) hbits hfound
  rw [haddr, hcount] at hreply
  have hshort : reply.length ≤ 4091 := by
    rcases hreply with ⟨a, -, rfl⟩ | ⟨-, rfl⟩
    · rw [List.length_append]
      exact (Nat.add_le_add_left (length_addrText_le a) _).trans (by decide)
    · decide
  refine ⟨w'.send reply, reply, ?_, ?_, hreply⟩
  · rw [hproc fuel]
    simp only
    rw [if_neg (by omega), hloop]
    rfl
  · rw [output_send_of_le _ hshort, hstub, hout]

theorem gdbStubProcess_searchMemory_zeros :
    let S := searchPacket (ascii "1000") (ascii "4") (ascii "0000")
    ∃ w' reply, gdbStubProcess 4 (byteMemoryCallbacks .x32) (byteMemoryWorld .x32 (frame S)) =
        .ok (0, w') ∧
      w'.stub.output = [[chr '+'], frame reply] ∧
      ((∃ a, IsLeast (searchMatches (x := .x32) (fun _ => 0) [0, 0] 0x1000 4) a ∧
          reply = ascii "1," ++ addrText a) ∨
        searchMatches (x := .x32) (fun _ => 0) [0, 0] 0x1000 4 = ∅ ∧ reply = ascii "0") :=
  @gdbStubProcess_searchMemory _ _ 4 (byteMemoryCallbacks .x32) (byteMemoryWorld .x32 _)
    (fun _ => 0) (fun t => t.sim = fun _ => 0) (ascii "1000") (ascii "4") (ascii "0000") [] rfl
    (by decide) (pureMemory_byteMemoryCallbacks .x32 _) rfl (by decide) (by decide) (by decide) 2
    rfl (by decide) (by decide) (by decide) (by decide) (framed_frame_nil (by decide)) (by decide)

/-- The address loop of a search ends in time unless the last address is the last of all and the
bytes are nowhere from the first address on. -/
theorem gdbStubProcess_endsWithin_iff {cb : GdbCallbacks x σ} {w : World x σ}
    {mem : GdbAddr x → Byte} {P : Target x σ → Prop} {packet rest start len pattern : List Byte}
    (hconn : w.stub.connected) (hfail : w.stub.consecutiveFailures < 50)
    (hmem : PureMemory cb w.stub.connected mem P) (hP : P w.toTarget)
    (hin : Framed packet rest w.stub.input) (hbound : packet.length < gdbBufferSize)
    (htext : packet.takeWhile (· ≠ 0#8) = searchPacket start len pattern)
    (hstart : chr ':' ∉ start) (hlen : chr ':' ∉ len) :
    let a := parseHex x start start.length
    let n := parseHex x len len.length
    let p := (hexPairs pattern).length
    let last := a + n - BitVec.ofNat x.bits p
    ∃ w₁ : World x σ,
      (∀ fuel, gdbStubProcess fuel cb w =
        if p = 0 ∨ n.toNat < p then .ok (0, w₁.send (ascii "0"))
        else andReturnZero (searchLoop cb last pattern fuel a w₁)) ∧
      (¬(p = 0 ∨ n.toNat < p) → (EndsWithin cb last pattern a w₁ (n.toNat - p + 1) ↔
        ¬(last = BitVec.allOnes x.bits ∧ ∀ b, a ≤ b → ¬HoldsAt mem (hexPairs pattern) b))) := by
  obtain ⟨w₁, htarget, hconn₁, -, hproc⟩ := gdbStubProcess_of_searchPacket cb hconn hfail hin
    hbound htext hstart hlen
  refine ⟨w₁, hproc, fun hp => ?_⟩
  exact endsWithin_iff (hconn₁ ▸ hmem) (htarget ▸ hP) (not_lt.mp (not_or.mp hp).2)

theorem gdbStubProcess_endsWithin_zeros :
    let S := searchPacket (ascii "1000") (ascii "4") (ascii "0001")
    let last : GdbAddr .x32 := 0x1000 + 4 - 2
    ∃ w₁ : World .x32 (GdbAddr .x32 → Byte),
      (∀ fuel, gdbStubProcess fuel (byteMemoryCallbacks .x32) (byteMemoryWorld .x32 (frame S)) =
        andReturnZero (searchLoop (byteMemoryCallbacks .x32) last (ascii "0001") fuel 0x1000 w₁)) ∧
      EndsWithin (byteMemoryCallbacks .x32) last (ascii "0001") 0x1000 w₁ 3 := by
  intro S last
  obtain ⟨w₁, hproc, hends⟩ := @gdbStubProcess_endsWithin_iff _ _ (byteMemoryCallbacks .x32)
    (byteMemoryWorld .x32 (frame S)) (fun _ => 0) (fun t => t.sim = fun _ => 0) S [] (ascii "1000")
    (ascii "4") (ascii "0001") rfl (by decide) (pureMemory_byteMemoryCallbacks .x32 _) rfl
    (framed_frame_nil (by decide)) (by decide) (by decide) (by decide) (by decide)
  exact ⟨w₁, hproc, (hends (by decide)).mpr fun h => absurd h.1 (by decide)⟩

/-- A search of the last byte of the address space that finds nothing never ends. -/
theorem gdbStubProcess_searchMemory_forever :
    let S := searchPacket (ascii "ffffffff") (ascii "1") (ascii "01")
    ∀ fuel, gdbStubProcess fuel (byteMemoryCallbacks .x32) (byteMemoryWorld .x32 (frame S)) =
      .error .outOfFuel := by
  intro S fuel
  have hin : Framed S [] (byteMemoryWorld .x32 (frame S)).stub.input := framed_frame_nil (by decide)
  have htext : S.takeWhile (· ≠ 0#8) = searchPacket (ascii "ffffffff") (ascii "1") (ascii "01") := by
    decide
  obtain ⟨w₁, htarget, hconn, -, hproc⟩ := gdbStubProcess_of_searchPacket
    (byteMemoryCallbacks .x32) rfl (by decide) hin (by decide) htext (by decide) (by decide)
  have hmisses : Misses (fun _ => 0) (ascii "01") (BitVec.allOnes 32) (0xffffffff : GdbAddr .x32)
      fuel := by
    refine fun i _ => ⟨le_allOnes _, fun h => ?_⟩
    have hbyte : (0 : Byte) = 1 := h 0 (by decide)
    exact absurd hbyte (by decide)
  have hmem : PureMemory (byteMemoryCallbacks .x32) w₁.stub.connected (fun _ => 0)
      fun t => t.sim = fun _ => 0 := by
    rw [hconn]
    exact pureMemory_byteMemoryCallbacks .x32 _
  have hzero : w₁.toTarget.sim = fun _ => 0 := by rw [htarget]; rfl
  obtain ⟨w', -, -, hloop⟩ := exists_of_misses (w := w₁) hmem hzero hmisses
  have hrun := (hloop 0).1
  rw [Nat.zero_add] at hrun
  rw [hproc fuel]
  exact congrArg andReturnZero hrun

end Rv32Gdb
