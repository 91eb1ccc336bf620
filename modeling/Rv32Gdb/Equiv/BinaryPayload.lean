import Rv32Gdb.Equiv.MemoryWrite
import Rv32Gdb.RunLength

/-!
# The payload of a binary write

`rspDecode` is the binary format: what a payload stands for, if it is well formed.
`decodeRspBinary_eq` says what `decode_rsp_binary` makes of a payload: it takes the count of a run
for the number of repetitions and stops when it has enough bytes.  `decodeRspBinary_exact_iff`
says for which payloads that is what the format says.
-/

namespace Rv32Gdb

open RunToken

/-! ### The format -/

/-- What a payload stands for after the byte `prev`, if it is well formed: `}` and a character
stand for a byte, `*` and a count of at least `29` for repetitions of the byte before. -/
def rspDecode : Option Byte → List Byte → Option (List Byte)
  | _, [] => some []
  | _, [c] => if c = chr '*' ∨ c = chr '}' then none else some [c]
  | prev, c :: e :: rest =>
    if c = chr '*' then do
      let b ← prev
      if e.toNat < 29 then none
      else return List.replicate (e.toNat - 29) b ++ (← rspDecode (some b) rest)
    else if c = chr '}' then do return (e ^^^ 0x20) :: (← rspDecode (some (e ^^^ 0x20)) rest)
    else do return c :: (← rspDecode (some c) (e :: rest))

/-- The bytes and runs of a payload, up to an escape or a run that is cut off. -/
def rspTokens : List Byte → List (RunToken Byte)
  | [] => []
  | [c] => if c = chr '*' ∨ c = chr '}' then [] else [.byte c]
  | c :: e :: rest =>
    if c = chr '*' then .run e.toNat :: rspTokens rest
    else if c = chr '}' then .byte (e ^^^ 0x20) :: rspTokens rest
    else .byte c :: rspTokens (e :: rest)

/-- What the runs of a well-formed payload stand for. -/
theorem rspDecode_eq_some {prev : Option Byte} {payload d : List Byte}
    (h : rspDecode prev payload = some d) :
    d = expand (· - 29) (prev.getD 0) (rspTokens payload) ∧
      ∀ n, run n ∈ rspTokens payload → 29 ≤ n := by
  induction payload using rspTokens.induct generalizing prev d with
  | case1 =>
    obtain rfl := Option.some.inj h
    exact ⟨rfl, fun n hn => absurd hn List.not_mem_nil⟩
  | case2 c hc =>
    -- an escape or a run that is cut short
    rw [rspDecode, if_pos hc] at h
    cases h
  | case3 c hc =>
    rw [rspDecode, if_neg hc] at h
    obtain rfl := Option.some.inj h
    rw [rspTokens, if_neg hc]
    refine ⟨rfl, fun n hn => ?_⟩
    cases List.mem_singleton.mp hn
  | case4 e rest ih =>
    rw [rspDecode, if_pos rfl] at h
    -- a run needs a byte before it and a printable count
    obtain ⟨b, rfl, hrun⟩ := Option.bind_eq_some_iff.mp h
    by_cases hcount : e.toNat < 29
    · rw [if_pos hcount] at hrun
      cases hrun
    rw [if_neg hcount] at hrun
    obtain ⟨t, ht, hout⟩ := Option.bind_eq_some_iff.mp hrun
    obtain rfl := Option.some.inj hout
    obtain ⟨rfl, hruns⟩ := ih ht
    rw [rspTokens, if_pos rfl]
    refine ⟨rfl, fun n hn => ?_⟩
    rcases List.mem_cons.mp hn with hn | hn
    · cases hn
      exact not_lt.mp hcount
    · exact hruns n hn
  | case5 e rest hc ih =>
    -- an escaped byte
    rw [rspDecode, if_neg hc, if_pos rfl] at h
    obtain ⟨t, ht, h⟩ := Option.bind_eq_some_iff.mp h
    obtain rfl := Option.some.inj h
    obtain ⟨rfl, hruns⟩ := ih ht
    rw [rspTokens, if_neg hc, if_pos rfl]
    refine ⟨rfl, fun n hn => hruns n ?_⟩
    exact (List.mem_cons.mp hn).resolve_left fun h => by cases h
  | case6 c e rest hc hc' ih =>
    -- a byte that stands for itself
    rw [rspDecode, if_neg hc, if_neg hc'] at h
    obtain ⟨t, ht, h⟩ := Option.bind_eq_some_iff.mp h
    obtain rfl := Option.some.inj h
    obtain ⟨rfl, hruns⟩ := ih ht
    rw [rspTokens, if_neg hc, if_neg hc']
    refine ⟨rfl, fun n hn => hruns n ?_⟩
    exact (List.mem_cons.mp hn).resolve_left fun h => by cases h

/-! ### The code -/

variable {cap dstLen : Nat}

/-- A destination that is full ends the decoding. -/
theorem decodeRspBinary_of_full (payload : List Byte) {dst : CharArray cap}
    (hfull : dst.data.length = dstLen) : decodeRspBinary dstLen payload dst = .ok (some dst) := by
  unfold decodeRspBinary
  cases payload with
  | nil => simp only [if_pos hfull]
  | cons c rest => simp only [if_pos hfull, if_pos hfull.ge]

/-- The result is the first `dstLen` bytes of a string, or a refusal if there are fewer. -/
def TakesBytes (dstLen : Nat) (all : List Byte) (r : Result (Option (CharArray cap))) : Prop :=
  ∃ r', r = .ok r' ∧ r'.map CharArray.data =
    if dstLen ≤ all.length then some (all.take dstLen) else none

/-- A destination that is full holds all the bytes that are wanted. -/
theorem takesBytes_of_full (payload out : List Byte) {dst : CharArray cap}
    (hfull : dst.data.length = dstLen) :
    TakesBytes dstLen (dst.data ++ out) (decodeRspBinary dstLen payload dst) := by
  refine ⟨some dst, decodeRspBinary_of_full payload hfull, ?_⟩
  rw [List.length_append, if_pos (by omega), List.take_left' hfull]
  rfl

/-- A payload that ends early is refused. -/
theorem takesBytes_of_none {dst : CharArray cap} (hroom : dst.data.length < dstLen) :
    @TakesBytes cap dstLen (dst.data ++ []) (.ok none) := by
  refine ⟨none, rfl, ?_⟩
  rw [List.append_nil, if_neg hroom.not_ge]
  rfl

theorem takesBytes_nil {dst : CharArray cap} (hle : dst.data.length ≤ dstLen) :
    TakesBytes dstLen (dst.data ++ []) (decodeRspBinary dstLen [] dst) := by
  rcases hle.eq_or_lt with hfull | hroom
  · exact takesBytes_of_full [] [] hfull
  · rw [decodeRspBinary, if_neg hroom.ne]
    exact takesBytes_of_none hroom

/-- A byte goes to the destination. -/
theorem takesBytes_of_push {b : Byte} {out : List Byte} {dst : CharArray cap}
    (hroom : dst.data.length < dstLen) (hcap : dstLen ≤ cap)
    {r : Result (Option (CharArray cap))}
    (h : ∀ dst' : CharArray cap, dst.push b = .ok dst' → dst'.data.getLast? = some b →
      dst'.data.length ≤ dstLen → TakesBytes dstLen (dst'.data ++ out) r) :
    TakesBytes dstLen (dst.data ++ b :: out) r := by
  obtain ⟨dst', hpush, hdata⟩ := dst.push_of_lt b (by omega)
  have hr := h dst' hpush (by rw [hdata, List.getLast?_concat])
    (by rw [hdata, List.length_append, List.length_singleton]; omega)
  rwa [hdata, List.append_assoc, List.singleton_append] at hr

/-- A run repeats the last byte while there is room for it. -/
theorem takesBytes_of_run {e prev : Byte} {rest out : List Byte} {dst : CharArray cap}
    (hlast : dst.data.getLast? = some prev) (hroom : dst.data.length < dstLen) (hcap : dstLen ≤ cap)
    (h : ∀ dst' : CharArray cap, dst'.data.getLast? = some prev → dst'.data.length ≤ dstLen →
      TakesBytes dstLen (dst'.data ++ out) (decodeRspBinary dstLen rest dst')) :
    TakesBytes dstLen (dst.data ++ (List.replicate e.toNat prev ++ out))
      (decodeRspBinary dstLen (chr '*' :: e :: rest) dst) := by
  set n := min e.toNat (dstLen - dst.data.length) with hn
  obtain ⟨dst', hpush, hdata⟩ := dst.pushAll_of_le (List.replicate n prev) (by
    rw [List.length_replicate]
    omega)
  have hstep : decodeRspBinary dstLen (chr '*' :: e :: rest) dst =
      decodeRspBinary dstLen rest dst' := by
    conv_lhs => unfold decodeRspBinary
    rw [if_neg hroom.not_ge, if_pos rfl]
    simp only [hlast, ← hn, hpush]
    rfl
  have hlen : dst'.data.length = dst.data.length + n := by
    rw [hdata, List.length_append, List.length_replicate]
  have hlast' : dst'.data.getLast? = some prev := by
    rw [hdata, List.getLast?_append, hlast]
    cases n with
    | zero => rfl
    | succ n => rw [List.getLast?_replicate, if_neg (Nat.succ_ne_zero n)]; rfl
  rw [hstep]
  by_cases hfit : e.toNat ≤ dstLen - dst.data.length
  · rw [Nat.min_eq_left hfit] at hn
    rw [← List.append_assoc, ← hn, ← hdata]
    exact h dst' hlast' (by omega)
  · -- the run fills the destination
    have hsplit : e.toNat = n + (e.toNat - n) := by omega
    rw [hsplit, List.replicate_add, List.append_assoc, ← List.append_assoc, ← hdata]
    exact takesBytes_of_full rest _ (by omega)

/-- What `decode_rsp_binary` makes of a payload. -/
theorem decodeRspBinary_eq {payload : List Byte} {prev : Byte} {dst : CharArray cap}
    (hprev : dst.data.getLast? = some prev ∨ payload.head? ≠ some (chr '*'))
    (hle : dst.data.length ≤ dstLen) (hcap : dstLen ≤ cap) :
    TakesBytes dstLen (dst.data ++ expand id prev (rspTokens payload))
      (decodeRspBinary dstLen payload dst) := by
  induction payload using rspTokens.induct generalizing prev dst with
  | case1 => exact takesBytes_nil hle
  | case2 c hc =>
    rw [rspTokens, if_pos hc]
    -- a full destination ends the loop, whatever is left of the payload
    rcases hle.eq_or_lt with hfull | hroom
    · exact takesBytes_of_full _ _ hfull
    have hnone : decodeRspBinary dstLen [c] dst = .ok none := by
      rcases hc with rfl | rfl
      · rw [decodeRspBinary, if_neg hroom.not_ge, if_pos rfl]
        exact fun _ _ _ _ h => absurd h (List.cons_ne_nil _ _).symm
      · rw [decodeRspBinary, if_neg hroom.not_ge, if_neg (by decide), if_pos rfl]
        exact fun _ _ _ _ h => absurd h (List.cons_ne_nil _ _).symm
    rw [hnone]
    exact takesBytes_of_none hroom
  | case3 c hc =>
    rw [rspTokens, if_neg hc]
    rcases hle.eq_or_lt with hfull | hroom
    · exact takesBytes_of_full _ _ hfull
    refine takesBytes_of_push hroom hcap fun dst' hpush _ hle' => ?_
    rw [not_or] at hc
    rw [decodeRspBinary_literal [] hroom hc.1 hc.2 hpush]
    exact takesBytes_nil hle'
  | case4 e rest ih =>
    rw [rspTokens, if_pos rfl]
    rcases hle.eq_or_lt with hfull | hroom
    · exact takesBytes_of_full _ _ hfull
    have hlast := hprev.resolve_right (not_not.mpr rfl)
    exact takesBytes_of_run hlast hroom hcap fun dst' hlast' hle' => ih (Or.inl hlast') hle'
  | case5 e rest hc ih =>
    rw [rspTokens, if_neg hc, if_pos rfl]
    rcases hle.eq_or_lt with hfull | hroom
    · exact takesBytes_of_full _ _ hfull
    refine takesBytes_of_push hroom hcap fun dst' hpush hlast hle' => ?_
    rw [decodeRspBinary_escape rest hroom hpush]
    exact ih (Or.inl hlast) hle'
  | case6 c e rest hc hc' ih =>
    rw [rspTokens, if_neg hc, if_neg hc']
    rcases hle.eq_or_lt with hfull | hroom
    · exact takesBytes_of_full _ _ hfull
    refine takesBytes_of_push hroom hcap fun dst' hpush hlast hle' => ?_
    rw [decodeRspBinary_literal _ hroom hc hc' hpush]
    exact ih (Or.inl hlast) hle'

/-- A payload that starts with a run is refused. -/
theorem decodeRspBinary_of_head {payload : List Byte} (hpos : 0 < dstLen)
    (h : payload.head? = some (chr '*')) :
    decodeRspBinary dstLen payload (CharArray.empty cap) = .ok none ∧
      rspDecode none payload = none := by
  obtain ⟨rest, rfl⟩ := List.head?_eq_some_iff.mp h
  constructor
  · have hlast : (CharArray.empty cap).data.getLast? = none := rfl
    unfold decodeRspBinary
    rw [if_neg (show ¬dstLen ≤ (CharArray.empty cap).data.length from hpos.not_ge), if_pos rfl]
    simp only [hlast]
  · cases rest with
    | nil => rw [rspDecode, if_pos (Or.inl rfl)]
    | cons e rest =>
      rw [rspDecode, if_pos rfl]
      rfl

/-! ### Main result -/

/-- A payload is decoded exactly: accepted if and only if it is well formed and stands for
`dstLen` bytes, which are then in the destination. -/
def DecodesExactly (cap dstLen : Nat) (payload : List Byte) : Prop :=
  ∃ r, decodeRspBinary dstLen payload (CharArray.empty cap) = .ok r ∧
    ∀ d, r.map CharArray.data = some d ↔ rspDecode none payload = some d ∧ d.length = dstLen

/-- A payload is decoded exactly if and only if it is refused, or it is well formed, stands for
`dstLen` bytes and has no byte after its first run but the one which that run repeats.  It is
refused if it starts with a run, or if it has fewer than `dstLen` bytes when the count of a run is
taken for the number of repetitions. -/
theorem decodeRspBinary_exact_iff {cap dstLen : Nat} (hpos : 0 < dstLen) (hcap : dstLen ≤ cap)
    (payload : List Byte) :
    DecodesExactly cap dstLen payload ↔
      payload.head? = some (chr '*') ∨ (expand id 0 (rspTokens payload)).length < dstLen ∨
      ((∃ d, rspDecode none payload = some d ∧ d.length = dstLen) ∧
        AllEqAfterRun 0 (rspTokens payload)) := by
  by_cases hhead : payload.head? = some (chr '*')
  · obtain ⟨hcode, hformat⟩ := @decodeRspBinary_of_head cap _ _ hpos hhead
    refine iff_of_true ⟨none, hcode, fun d => ?_⟩ (Or.inl hhead)
    rw [hformat]
    exact iff_of_false (Option.some_ne_none d).symm fun h => (Option.some_ne_none d).symm h.1
  rw [or_iff_right hhead]
  set raw := expand id 0 (rspTokens payload) with hraw
  have hempty : (CharArray.empty cap).data.length ≤ dstLen := Nat.zero_le dstLen
  obtain ⟨r, hr, hdata⟩ := @decodeRspBinary_eq _ _ payload 0 _ (Or.inr hhead) hempty hcap
  change r.map CharArray.data = if dstLen ≤ raw.length then some (raw.take dstLen) else none at hdata
  have hexact : DecodesExactly cap dstLen payload ↔
      ∀ d, r.map CharArray.data = some d ↔ rspDecode none payload = some d ∧ d.length = dstLen := by
    constructor
    · rintro ⟨r', hr', h⟩
      obtain rfl := Except.ok.inj (hr.symm.trans hr')
      exact h
    · exact fun h => ⟨r, hr, h⟩
  -- the code repeats a byte 29 times more often than the format
  have hshort : ∀ n : Nat, n - 29 ≤ id n := fun n => Nat.sub_le n 29
  rw [hexact]
  -- what the code puts into the destination is the beginning of `raw`
  by_cases hlen : dstLen ≤ raw.length
  · rw [if_pos hlen] at hdata
    rw [or_iff_right hlen.not_gt, hdata]
    constructor
    · intro h
      obtain ⟨hd, hdlen⟩ := (h _).mp rfl
      obtain ⟨heq, hruns⟩ := rspDecode_eq_some hd
      refine ⟨⟨_, hd, hdlen⟩, (take_expand_eq_iff hshort fun n hn => ?_).mp ?_⟩
      · exact Nat.sub_lt (Nat.lt_of_lt_of_le (by decide) (hruns n hn)) (by decide)
      · rw [Option.getD_none] at heq
        rw [← heq, hdlen]
    · rintro ⟨⟨d, hd, hdlen⟩, hall⟩ d'
      obtain ⟨heq, hruns⟩ := rspDecode_eq_some hd
      rw [Option.getD_none] at heq
      have htake : raw.take dstLen = d := by
        rw [← hdlen, heq]
        refine (take_expand_eq_iff hshort fun n hn => ?_).mpr hall
        exact Nat.sub_lt (Nat.lt_of_lt_of_le (by decide) (hruns n hn)) (by decide)
      rw [htake, hd]
      constructor
      · intro h
        obtain rfl := Option.some.inj h
        exact ⟨rfl, hdlen⟩
      · exact fun h => h.1
  · -- a payload that is too short for the code is too short for the format
    rw [if_neg hlen] at hdata
    rw [hdata]
    refine iff_of_true (fun d => iff_of_false (Option.some_ne_none d).symm ?_)
      (Or.inl (not_le.mp hlen))
    rintro ⟨hd, hdlen⟩
    obtain ⟨rfl, -⟩ := rspDecode_eq_some hd
    have hle : _ ≤ raw.length := length_expand_le hshort 0 (rspTokens payload)
    rw [Option.getD_none] at hdlen
    omega

theorem decodesExactly_run :
    DecodesExactly gdbBufferSize 5 [chr 'a', chr '}', 0x03, chr '*', chr ' '] :=
  (@decodeRspBinary_exact_iff gdbBufferSize 5 (by decide) (by decide)
    [chr 'a', chr '}', 0x03, chr '*', chr ' ']).mpr
    (Or.inr (Or.inr ⟨⟨_, rfl, by decide⟩, fun _ hb => absurd hb List.not_mem_nil⟩))

/-- A byte after a run: `a* b` stands for `aaaab`, and `aaaaa` is written. -/
theorem not_decodesExactly_run : ¬DecodesExactly gdbBufferSize 5 (ascii "a* b") := by
  rintro ⟨r, hr, h⟩
  have hempty : (CharArray.empty gdbBufferSize).data.length ≤ 5 := by decide
  obtain ⟨r', hr', hdata⟩ := @decodeRspBinary_eq _ _ (ascii "a* b") 0 _ (Or.inr (by decide)) hempty
    (by decide)
  obtain rfl := Except.ok.inj (hr.symm.trans hr')
  have hformat : rspDecode none (ascii "a* b") = some (ascii "aaaab") := by decide
  have hbytes := ((h _).mpr ⟨hformat, by decide⟩).symm.trans hdata
  exact absurd hbytes (by decide)

end Rv32Gdb
