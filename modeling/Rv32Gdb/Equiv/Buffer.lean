import Rv32Gdb.Equiv.Hex

/-!
# Strings in the packet buffer

`HasBytes buf i l` says that the buffer holds the bytes of `l` from position `i` on; it splits over
appending (`hasBytes_append`) and survives a store elsewhere (`HasBytes.setByte`).  From it
`cstr` and `strchr` are computed: `cstr_of_hasBytes` when the string is terminated,
`strchr_of_hasBytes` when the character follows.

`pushAll_of_le` and `pushAll_of_lt` say when a text fits a local array.
-/

namespace Rv32Gdb

variable {buf : Fin gdbBufferSize → Byte}

/-! ### Bytes at a position -/

/-- The buffer holds the bytes of `l` from position `i` on. -/
def HasBytes (buf : Fin gdbBufferSize → Byte) (i : Nat) (l : List Byte) : Prop :=
  i + l.length ≤ gdbBufferSize ∧ ∀ k (h : k < l.length), byteAt buf (i + k) = l[k]

theorem hasBytes_append {i : Nat} {a b : List Byte} :
    HasBytes buf i (a ++ b) ↔ HasBytes buf i a ∧ HasBytes buf (i + a.length) b := by
  constructor
  · rintro ⟨hlen, h⟩
    rw [List.length_append] at hlen
    refine ⟨⟨by omega, fun k hk => ?_⟩, ⟨by omega, fun k hk => ?_⟩⟩
    · rw [h k (by rw [List.length_append]; omega), List.getElem_append_left hk]
    · rw [Nat.add_assoc, h (a.length + k) (by rw [List.length_append]; omega),
        List.getElem_append_right (by omega)]
      simp
  · rintro ⟨⟨ha, h1⟩, ⟨hb, h2⟩⟩
    refine ⟨by rw [List.length_append]; omega, fun k hk => ?_⟩
    rw [List.length_append] at hk
    by_cases hka : k < a.length
    · rw [h1 k hka, List.getElem_append_left hka]
    · have := h2 (k - a.length) (by omega)
      rw [List.getElem_append_right (by omega), ← this]
      congr 1
      omega

theorem hasBytes_singleton {i : Nat} {c : Byte} (hi : i < gdbBufferSize) :
    HasBytes buf i [c] ↔ byteAt buf i = c := by
  constructor
  · exact fun h => h.2 0 (by simp)
  · intro h
    refine ⟨by simpa using Nat.succ_le_of_lt hi, fun k hk => ?_⟩
    obtain rfl : k = 0 := by simpa using hk
    exact h

theorem hasBytes_nil {i : Nat} (hi : i ≤ gdbBufferSize) : HasBytes buf i [] :=
  ⟨by simpa using hi, fun k hk => absurd hk (by simp)⟩

theorem HasBytes.head {i : Nat} {c : Byte} {l : List Byte} (h : HasBytes buf i (c :: l)) :
    byteAt buf i = c := h.2 0 (by simp)

theorem HasBytes.tail {i : Nat} {c : Byte} {l : List Byte} (h : HasBytes buf i (c :: l)) :
    HasBytes buf (i + 1) l := by
  have := hasBytes_append.mp (show HasBytes buf i ([c] ++ l) from h)
  exact this.2

/-- A store outside the bytes leaves them. -/
theorem HasBytes.setByte {i : Nat} {l : List Byte} (h : HasBytes buf i l)
    (p : Fin gdbBufferSize) (b : Byte) (hp : p.val < i ∨ i + l.length ≤ p.val) :
    HasBytes (setByte buf p b) i l := by
  refine ⟨h.1, fun k hk => ?_⟩
  rw [byteAt_setByte, if_neg (by omega), h.2 k hk]

/-! ### C strings -/

/-- The bound on the length of a string does not cut it short. -/
theorem cstrFrom_eq_cstrFrom (n m i : Nat) (hn : gdbBufferSize ≤ i + n)
    (hm : gdbBufferSize ≤ i + m) : cstrFrom buf n i = cstrFrom buf m i := by
  induction n generalizing m i with
  | zero =>
    have hz : byteAt buf i = 0#8 := dif_neg (by omega)
    cases m with
    | zero => rfl
    | succ m => rw [cstrFrom, cstrFrom, if_pos hz]
  | succ n ih =>
    cases m with
    | zero =>
      have hz : byteAt buf i = 0#8 := dif_neg (by omega)
      rw [cstrFrom, cstrFrom, if_pos hz]
    | succ m =>
      rw [cstrFrom, cstrFrom, ih m (i + 1) (by omega) (by omega)]

theorem cstr_eq (buf : Fin gdbBufferSize → Byte) (i : Nat) :
    cstr buf i = if byteAt buf i = 0#8 then [] else byteAt buf i :: cstr buf (i + 1) := by
  rw [cstr, cstrFrom_eq_cstrFrom _ (gdbBufferSize + 1) i (by omega) (by omega), cstrFrom]
  rfl

/-- The first character of a string, and the string after it. -/
theorem cstr_eq_cons {buf : Fin gdbBufferSize → Byte} {i : Nat} {c : Byte} {l : List Byte}
    (h : cstr buf i = c :: l) : byteAt buf i = c ∧ cstr buf (i + 1) = l := by
  rw [cstr_eq] at h
  split_ifs at h
  exact List.cons.inj h

/-- Bytes other than NUL are the beginning of a string. -/
theorem cstr_append {i : Nat} {l : List Byte} (h : HasBytes buf i l) (hl : 0#8 ∉ l) :
    cstr buf i = l ++ cstr buf (i + l.length) := by
  induction l generalizing i with
  | nil => simp
  | cons c l ih =>
    rw [List.mem_cons, not_or] at hl
    rw [cstr_eq, h.head, if_neg (Ne.symm hl.1), ih h.tail hl.2, List.length_cons,
      List.cons_append]
    congr 3
    omega

theorem cstr_of_hasBytes {i : Nat} {l : List Byte} (h : HasBytes buf i (l ++ [0#8])) (hl : 0#8 ∉ l) :
    cstr buf i = l := by
  obtain ⟨h1, h2⟩ := hasBytes_append.mp h
  rw [cstr_append h1 hl, cstr_eq, h2.head, if_pos rfl, List.append_nil]

theorem not_mem_cstr (buf : Fin gdbBufferSize → Byte) (i : Nat) : 0#8 ∉ cstr buf i := by
  rw [cstr]
  generalize gdbBufferSize = n
  induction n generalizing i with
  | zero => simp [cstrFrom]
  | succ n ih =>
    unfold cstrFrom
    split_ifs with h
    · simp
    · rw [List.mem_cons, not_or]
      exact ⟨Ne.symm h, ih (i + 1)⟩

/-- `strchr` finds the first occurrence. -/
theorem strchr_of_hasBytes {i : Nat} {l : List Byte} {c : Byte} (h : HasBytes buf i (l ++ [c]))
    (hl : 0#8 ∉ l) (hcl : c ∉ l) (hc : c ≠ 0#8) :
    ∃ p : Fin gdbBufferSize, strchr buf i c = some p ∧ p.val = i + l.length := by
  have hstr : cstr buf i = l ++ c :: cstr buf (i + l.length + 1) := by
    rw [cstr_append h (by simp [hl, Ne.symm hc]), List.append_assoc]
    simp [Nat.add_assoc]
  have hmem : c ∈ cstr buf i := by simp [hstr]
  refine ⟨_, dif_pos hmem, ?_⟩
  simp only [hstr]
  rw [List.idxOf_append_of_notMem hcl, List.idxOf_cons_self, Nat.add_zero]

theorem byteAt_cstr {i k : Nat} (h : k < (cstr buf i).length) :
    byteAt buf (i + k) = (cstr buf i)[k] := by
  induction k generalizing i with
  | zero =>
    by_cases hz : byteAt buf i = 0#8
    · simp [cstr_eq buf i, hz] at h
    · simp [cstr_eq buf i, hz]
  | succ k ih =>
    by_cases hz : byteAt buf i = 0#8
    · simp [cstr_eq buf i, hz] at h
    · have htail : k < (cstr buf (i + 1)).length := by
        simpa [cstr_eq buf i, hz] using h
      have := ih htail
      rw [Nat.add_right_comm] at this
      simp [cstr_eq buf i, hz, ← this, Nat.add_assoc]

theorem hasBytes_cstr {i : Nat} (hi : i ≤ gdbBufferSize) : HasBytes buf i (cstr buf i) :=
  ⟨by have := length_cstr_le buf i; omega, fun _ hk => byteAt_cstr hk⟩

/-- A store in front of a string leaves it. -/
theorem cstr_setByte_of_lt {i : Nat} {p : Fin gdbBufferSize} (b : Byte) (hp : p.val < i) :
    cstr (setByte buf p b) i = cstr buf i := by
  rw [cstr, cstr]
  generalize gdbBufferSize = n
  induction n generalizing i with
  | zero => rfl
  | succ n ih =>
    have hi : byteAt (setByte buf p b) i = byteAt buf i := by
      rw [byteAt_setByte, if_neg (by omega)]
    rw [cstrFrom, cstrFrom, hi, ih (by omega)]

/-- A store behind the end of a string leaves it. -/
theorem cstr_setByte_of_length_lt {i : Nat} {p : Fin gdbBufferSize} (b : Byte)
    (hp : i + (cstr buf i).length < p.val) : cstr (setByte buf p b) i = cstr buf i := by
  have hi : i ≤ gdbBufferSize := by omega
  have hend : byteAt buf (i + (cstr buf i).length) = 0#8 := by
    by_contra hne
    have hbytes := cstr_append (hasBytes_cstr hi) (not_mem_cstr buf i)
    rw [cstr_eq buf (i + _), if_neg hne] at hbytes
    exact List.cons_ne_nil _ _ (List.append_right_eq_self.mp hbytes.symm)
  refine cstr_of_hasBytes (hasBytes_append.mpr ⟨?_, ?_⟩) (not_mem_cstr buf i)
  · exact (hasBytes_cstr hi).setByte p b (Or.inr hp.le)
  · rw [hasBytes_singleton (by omega), byteAt_setByte, if_neg hp.ne, hend]

/-- Cutting a string at the first occurrence of a character. -/
theorem strchr_cut {i : Nat} {a l : List Byte} {c : Byte} (hi : i ≤ gdbBufferSize)
    (h : cstr buf i = a ++ c :: l) (hc : c ∉ a) :
    ∃ p : Fin gdbBufferSize, strchr buf i c = some p ∧ p.val = i + a.length ∧
      cstr (setByte buf p 0) i = a ∧ ∀ b, cstr (setByte buf p b) (p + 1) = l := by
  have hnul : 0#8 ∉ a ++ c :: l := h ▸ not_mem_cstr buf i
  rw [List.mem_append, List.mem_cons, not_or, not_or] at hnul
  have hbytes : HasBytes buf i (a ++ c :: l) := h ▸ hasBytes_cstr hi
  have hfirst : HasBytes buf i (a ++ [c]) := by
    rw [← List.singleton_append, ← List.append_assoc] at hbytes
    exact (hasBytes_append.mp hbytes).1
  obtain ⟨p, hfind, hp⟩ := strchr_of_hasBytes hfirst hnul.1 hc (Ne.symm hnul.2.1)
  refine ⟨p, hfind, hp, ?_, fun b => ?_⟩
  · refine cstr_of_hasBytes (hasBytes_append.mpr ⟨?_, ?_⟩) hnul.1
    · exact (hasBytes_append.mp hfirst).1.setByte p 0 (Or.inr hp.ge)
    · rw [← hp, hasBytes_singleton p.isLt, byteAt_setByte, if_pos rfl]
      rfl
  · have hrest := cstr_append hfirst (by simp [hnul.1, hnul.2.1])
    rw [h, List.append_assoc, List.singleton_append] at hrest
    have htail := (List.cons.inj (List.append_cancel_left hrest)).2
    rw [cstr_setByte_of_lt b (Nat.lt_succ_self _), htail, hp, List.length_append,
      List.length_singleton]
    rfl

theorem strchr_eq_none {i : Nat} {c : Byte} (h : c ∉ cstr buf i) : strchr buf i c = none :=
  dif_neg h

/-! ### Local arrays -/

namespace CharArray

variable {cap : Nat}

theorem push_of_lt (a : CharArray cap) (c : Byte) (h : a.data.length < cap) :
    ∃ a' : CharArray cap, a.push c = .ok a' ∧ a'.data = a.data ++ [c] := ⟨_, dif_pos h, rfl⟩

/-- A text that fits is stored. -/
theorem pushAll_of_le (a : CharArray cap) (s : List Byte) (h : a.data.length + s.length ≤ cap) :
    ∃ a' : CharArray cap, a.pushAll s = .ok a' ∧ a'.data = a.data ++ s := by
  induction s generalizing a with
  | nil => exact ⟨a, rfl, by simp⟩
  | cons c s ih =>
    rw [List.length_cons] at h
    obtain ⟨a₁, h1, hd1⟩ := a.push_of_lt c (by omega)
    obtain ⟨a₂, h2, hd2⟩ := ih a₁ (by rw [hd1]; simp; omega)
    refine ⟨a₂, ?_, by rw [hd2, hd1]; simp⟩
    rw [pushAll, h1]
    exact h2

/-- `snprintf` with the room that is left stores the text cut to it. -/
theorem snprintfAt_of_le (a : CharArray cap) (size : Nat) (text : List Byte) (hsize : 0 < size)
    (h : a.data.length + size ≤ cap) :
    ∃ a' : CharArray cap, a.snprintfAt size text = .ok a' ∧
      a'.data = a.data ++ text.take (size - 1) := by
  obtain ⟨a', h', hd'⟩ := a.pushAll_of_le (text.take (size - 1)) (by
    rw [List.length_take]; omega)
  have hterm : a'.terminate = .ok a'.data := by
    rw [terminate, if_pos]
    rw [hd', List.length_append, List.length_take]
    omega
  refine ⟨a', ?_, hd'⟩
  rw [snprintfAt, if_neg (by omega), h']
  show (do let _ ← a'.terminate; Except.ok a') = _
  rw [hterm]
  rfl

end CharArray

end Rv32Gdb
