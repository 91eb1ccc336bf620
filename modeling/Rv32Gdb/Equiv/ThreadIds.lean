import Rv32Gdb.Equiv.Vcont

/-!
# Thread ids

A `ThreadSpec` is a thread id as a client writes it.  `parseThreadSpec_text`: both numbers are read
as `strtol` reads them and converted to `int`, so that an id is read as it was meant if its numbers
fit (`parseThreadSpec_of_fits`); after a `p` without a dot comes a thread of process `0`.
`parsesThreadIds`: besides, the handlers refuse an id with a process other than `0` and `1`.
-/

namespace Rv32Gdb

variable {x : Xlen} {σ : Type}

/-! ### Numbers -/

/-- `-1` or a hexadecimal number, as a client writes it. -/
inductive IdText
  | all
  | number (digits : List Byte) (ne_nil : digits ≠ []) (isxdigit_digits : ∀ c ∈ digits, isxdigit c)

namespace IdText

def text : IdText → List Byte
  | all => ascii "-1"
  | number digits _ _ => digits

def value : IdText → Int
  | all => -1
  | number digits _ _ => hexValue digits

/-- The number is an `int`. -/
def Fits (t : IdText) : Prop := t.value < 2 ^ 31

theorem neg_one_le_value (t : IdText) : -1 ≤ t.value := by
  cases t with
  | all => exact le_rfl
  | number digits => exact (by decide : (-1 : Int) ≤ 0).trans (Int.natCast_nonneg _)

/-- A character of a number. -/
theorem ne_of_mem_text {t : IdText} {c : Byte} (h : c ∈ t.text) :
    c ≠ chr '.' ∧ c ≠ chr ';' ∧ c ≠ chr 'x' ∧ c ≠ chr 'X' ∧ c ≠ chr 'p' ∧ c ≠ chr 'P' := by
  cases t with
  | all =>
    have hmem : c ∈ [chr '-', chr '1'] := h
    simp only [List.mem_cons, List.not_mem_nil, or_false] at hmem
    rcases hmem with rfl | rfl <;> decide
  | number digits _ hdigits =>
    obtain ⟨hsemi, hdot, hp, hP, -, -, hx, hX, -⟩ := spec_ne_of_isxdigit (hdigits c h)
    exact ⟨hdot, hsemi, hx, hX, hp, hP⟩

end IdText

theorem strtolDigits_of_notMem {s : List Byte} (hx : chr 'x' ∉ s) (hX : chr 'X' ∉ s) :
    strtolDigits s = s.takeWhile isxdigit := by
  unfold strtolDigits
  split
  · next z c d rest =>
    have hmem : c ∈ z :: c :: d :: rest := List.mem_cons_of_mem _ List.mem_cons_self
    exact if_neg fun h => h.2.1.elim (fun he => hx (he ▸ hmem)) fun he => hX (he ▸ hmem)
  · rfl

/-- `(int)strtol` of a number. -/
def readId (value : Int) : Int := toInt32 (min value (2 ^ 63 - 1))

theorem readId_of_fits {t : IdText} (h : t.Fits) : readId t.value = t.value := by
  have hlow := t.neg_one_le_value
  unfold IdText.Fits at h
  rw [readId, min_eq_left (by omega), toInt32, Int.bmod_eq_of_le_mul_two (by omega) (by omega)]

/-- The hexadecimal number in front of a text, with its sign, of whatever size. -/
def hexNumber (s : List Byte) : Int :=
  match s.dropWhile isspace with
  | [] => 0
  | c :: rest =>
    if c = chr '-' then -(hexValue (strtolDigits rest) : Int)
    else if c = chr '+' then hexValue (strtolDigits rest)
    else hexValue (strtolDigits (c :: rest))

/-- `strtol` brings the number into the range of `long`. -/
theorem strtol16_eq (s : List Byte) :
    strtol16 s = max (-(2 ^ 63)) (min (hexNumber s) (2 ^ 63 - 1)) := by
  unfold strtol16 hexNumber
  cases s.dropWhile isspace with
  | nil => decide
  | cons c rest =>
    simp only
    split_ifs <;> omega

theorem toInt32_strtol16 {s : List Byte} (h : -1 ≤ hexNumber s) :
    toInt32 (strtol16 s) = readId (hexNumber s) := by
  rw [strtol16_eq, max_eq_right (by omega), readId]

/-- `strtol` stops at the end of the number. -/
theorem hexNumber_text (t : IdText) {tail : List Byte}
    (htail : tail = [] ∨ ∃ u : IdText, tail = chr '.' :: u.text) :
    hexNumber (t.text ++ tail) = t.value := by
  have hno : ∀ c : Byte, c ∈ tail → c ≠ chr 'x' ∧ c ≠ chr 'X' := by
    intro c hc
    rcases htail with rfl | ⟨u, rfl⟩
    · exact absurd hc List.not_mem_nil
    · rcases List.mem_cons.mp hc with rfl | hc
      · decide
      · obtain ⟨-, -, hx, hX, -⟩ := IdText.ne_of_mem_text hc
        exact ⟨hx, hX⟩
  have hend : tail.takeWhile isxdigit = [] := by
    rcases htail with rfl | ⟨u, rfl⟩
    · rfl
    · exact List.takeWhile_cons_of_neg (by decide)
  -- the conversion stops at the separator or at the end
  have hdigits : ∀ s : List Byte, (∀ c ∈ s, isxdigit c) → strtolDigits (s ++ tail) = s := by
    intro s hs
    have hmem : ∀ c : Byte, c ∈ s ++ tail → c ≠ chr 'x' ∧ c ≠ chr 'X' := by
      intro c hc
      rcases List.mem_append.mp hc with hc | hc
      · obtain ⟨-, -, -, -, -, -, hx, hX, -⟩ := spec_ne_of_isxdigit (hs c hc)
        exact ⟨hx, hX⟩
      · exact hno c hc
    rw [strtolDigits_of_notMem (fun hc => (hmem _ hc).1 rfl) (fun hc => (hmem _ hc).2 rfl),
      List.takeWhile_append_of_pos hs, hend, List.append_nil]
  cases t with
  | all =>
    have hone : strtolDigits (ascii "1" ++ tail) = ascii "1" := hdigits _ (by decide)
    show -(hexValue (strtolDigits (ascii "1" ++ tail)) : Int) = _
    rw [hone]
    decide
  | number digits hne hhex =>
    obtain ⟨c, rest, rfl⟩ := List.exists_cons_of_ne_nil hne
    obtain ⟨-, -, -, -, hminus, hplus, -, -, hspace⟩ :=
      spec_ne_of_isxdigit (hhex c List.mem_cons_self)
    have hall := hdigits _ hhex
    rw [IdText.text, List.cons_append] at *
    unfold hexNumber
    rw [List.dropWhile_cons_of_neg (by rw [hspace]; exact Bool.false_ne_true)]
    simp only
    rw [if_neg hminus, if_neg hplus, hall]
    rfl

/-! ### Reading a thread id -/

/-- A thread id as a client writes it: a thread, with or without a `p` in front, or a process and a
thread. -/
inductive ThreadSpec
  | thread (tid : IdText)
  | prefixed (tid : IdText)
  | process (pid tid : IdText)

namespace ThreadSpec

def text : ThreadSpec → List Byte
  | thread tid => tid.text
  | prefixed tid => chr 'p' :: tid.text
  | process pid tid => chr 'p' :: (pid.text ++ chr '.' :: tid.text)

/-- The process and the thread. -/
def ids : ThreadSpec → Int × Int
  | thread tid => (0, tid.value)
  | prefixed tid => (0, tid.value)
  | process pid tid => (pid.value, tid.value)

/-- The process and the thread as the stub reads them. -/
def readIds : ThreadSpec → Int × Int
  | thread tid => (0, readId tid.value)
  | prefixed tid => (0, readId tid.value)
  | process pid tid => (readId pid.value, readId tid.value)

/-- The numbers are `int`s. -/
def Fits : ThreadSpec → Prop
  | thread tid => tid.Fits
  | prefixed tid => tid.Fits
  | process pid tid => pid.Fits ∧ tid.Fits

end ThreadSpec

/-- The process and the thread that a text names: those of `parseThreadSpec`, of whatever size. -/
def namedIds (str : List Byte) : Int × Int :=
  if str = [] then (0, -1)
  else if str = ascii "-1" then (0, -1)
  else
    let str := match str with
      | c :: rest => if c = chr 'p' ∨ c = chr 'P' then rest else str
      | [] => str
    if chr '.' ∈ str then
      (hexNumber str, hexNumber ((str.dropWhile (· ≠ chr '.')).drop 1))
    else (0, hexNumber str)

/-- A number that is named is read as `strtol` reads it, and converted to `int`. -/
theorem parseThreadSpec_eq {str : List Byte} :
    (-1 ≤ (namedIds str).1 → (parseThreadSpec str).1 = readId (namedIds str).1) ∧
      (-1 ≤ (namedIds str).2 → (parseThreadSpec str).2 = readId (namedIds str).2) := by
  have hzero : (0 : Int) = readId 0 := by decide
  have hall : (-1 : Int) = readId (-1) := by decide
  unfold parseThreadSpec namedIds
  by_cases hnil : str = []
  · rw [if_pos hnil, if_pos hnil]
    exact ⟨fun _ => hzero, fun _ => hall⟩
  rw [if_neg hnil, if_neg hnil]
  by_cases hneg : str = ascii "-1"
  · rw [if_pos hneg, if_pos hneg]
    exact ⟨fun _ => hzero, fun _ => hall⟩
  rw [if_neg hneg, if_neg hneg]
  obtain ⟨c, rest, rfl⟩ := List.exists_cons_of_ne_nil hnil
  simp only
  generalize (if c = chr 'p' ∨ c = chr 'P' then rest else c :: rest) = text
  split_ifs
  · exact ⟨toInt32_strtol16, toInt32_strtol16⟩
  · exact ⟨fun _ => hzero, toInt32_strtol16⟩

/-- A thread id names what the client means by it. -/
theorem namedIds_text (t : ThreadSpec) : namedIds t.text = t.ids := by
  cases t with
  | prefixed tid =>
    -- a string without a dot is a thread id
    have hneg : chr 'p' :: tid.text ≠ ascii "-1" :=
      fun he => absurd (List.cons.inj he).1 (by decide)
    have hdot : chr '.' ∉ tid.text := fun h => (IdText.ne_of_mem_text h).1 rfl
    have hnumber := hexNumber_text tid (Or.inl rfl)
    rw [List.append_nil] at hnumber
    show namedIds (chr 'p' :: tid.text) = _
    rw [namedIds, if_neg (List.cons_ne_nil _ _), if_neg hneg]
    simp only [true_or, if_true, hdot, if_false, hnumber]
    rfl
  | thread tid =>
    cases htid : tid with
    | all => decide
    | number digits hne hhex =>
      obtain ⟨c, rest, rfl⟩ := List.exists_cons_of_ne_nil hne
      obtain ⟨-, -, hp, hP, hminus, -⟩ := spec_ne_of_isxdigit (hhex c List.mem_cons_self)
      have hneg : c :: rest ≠ ascii "-1" := fun he => hminus (List.cons.inj he).1
      have hdot : chr '.' ∉ c :: rest := fun h => (spec_ne_of_isxdigit (hhex _ h)).2.1 rfl
      have hnumber := hexNumber_text (.number (c :: rest) hne hhex) (Or.inl rfl)
      rw [List.append_nil, IdText.text] at hnumber
      show namedIds (c :: rest) = _
      rw [namedIds, if_neg (List.cons_ne_nil _ _), if_neg hneg]
      simp only [hp, hP, or_self, if_false, hdot, hnumber]
      rfl
  | process pid tid =>
    have hneg : chr 'p' :: (pid.text ++ chr '.' :: tid.text) ≠ ascii "-1" :=
      fun he => absurd (List.cons.inj he).1 (by decide)
    have hdot : chr '.' ∈ pid.text ++ chr '.' :: tid.text :=
      List.mem_append_right _ List.mem_cons_self
    have hpid := hexNumber_text pid (Or.inr ⟨tid, rfl⟩)
    have htid := hexNumber_text tid (Or.inl rfl)
    rw [List.append_nil] at htid
    have hne : ∀ c ∈ pid.text, decide (c ≠ chr '.') = true :=
      fun c hc => decide_eq_true (IdText.ne_of_mem_text hc).1
    have hafter : ((pid.text ++ chr '.' :: tid.text).dropWhile (· ≠ chr '.')).drop 1 = tid.text := by
      rw [List.dropWhile_append_of_pos hne, List.dropWhile_cons_of_neg (by simp), List.drop_one,
        List.tail_cons]
    show namedIds (chr 'p' :: (pid.text ++ chr '.' :: tid.text)) = _
    rw [namedIds, if_neg (List.cons_ne_nil _ _), if_neg hneg]
    simp only [true_or, if_true, hdot, hafter, hpid, htid]
    rfl

/-- Both numbers are read as `strtol` reads them. -/
theorem parseThreadSpec_threadSpec (t : ThreadSpec) : parseThreadSpec t.text = t.readIds := by
  obtain ⟨hpid, htid⟩ := @parseThreadSpec_eq t.text
  rw [namedIds_text] at hpid htid
  have hlow : (-1 : Int) ≤ 0 := by decide
  have hzero : readId 0 = 0 := by decide
  cases t with
  | prefixed tid => exact Prod.ext ((hpid hlow).trans hzero) (htid tid.neg_one_le_value)
  | thread tid => exact Prod.ext ((hpid hlow).trans hzero) (htid tid.neg_one_le_value)
  | process pid tid => exact Prod.ext (hpid pid.neg_one_le_value) (htid tid.neg_one_le_value)

/-- A thread id is read as it was meant if its numbers fit. -/
theorem parseThreadSpec_of_fits {t : ThreadSpec} (h : t.Fits) : parseThreadSpec t.text = t.ids := by
  rw [parseThreadSpec_threadSpec]
  cases t with
  | thread tid => exact congrArg (Prod.mk 0) (readId_of_fits h)
  | prefixed tid => exact congrArg (Prod.mk 0) (readId_of_fits h)
  | process pid tid => exact Prod.ext (readId_of_fits h.1) (readId_of_fits h.2)

/-! ### Handlers -/

/-- The action loop of `vCont` may come to the thread id `spec` in the text: every action before it
has one that fits the buffer. -/
inductive VcontNames (spec : List Byte) : List Byte → Prop
  | here {letter : Byte} {rest next : List Byte}
      (hspec : skipSignal letter rest = chr ':' :: (spec ++ next))
      (hnext : next.head? = none ∨ next.head? = some (chr ';')) : VcontNames spec (letter :: rest)
  | later {letter : Byte} {rest next : List Byte} {ids : Int × Int}
      (hspec : vcontSpec (skipSignal letter rest) = .ok (some (ids, next)))
      (hnames : VcontNames spec (skipSemicolon next)) : VcontNames spec (letter :: rest)

/-- A thread id between the colon and the next action is read, if it fits the buffer. -/
theorem vcontSpec_append {spec next : List Byte} (hsemi : chr ';' ∉ spec)
    (hnext : next.head? = none ∨ next.head? = some (chr ';')) :
    vcontSpec (chr ':' :: (spec ++ next)) = .ok none ∨
      vcontSpec (chr ':' :: (spec ++ next)) = .ok (some (parseThreadSpec spec, next)) := by
  have hne : ∀ c ∈ spec, decide (c ≠ chr ';') = true := fun c hc =>
    decide_eq_true fun he => hsemi (he ▸ hc)
  have hend : next.takeWhile (· ≠ chr ';') = [] ∧ next.dropWhile (· ≠ chr ';') = next := by
    cases next with
    | nil => exact ⟨rfl, rfl⟩
    | cons c next =>
      rcases hnext with h | h
      · cases h
      · obtain rfl := Option.some.inj h
        exact ⟨rfl, rfl⟩
  have htake : (spec ++ next).takeWhile (· ≠ chr ';') = spec := by
    rw [List.takeWhile_append_of_pos hne, hend.1, List.append_nil]
  have hdrop : (spec ++ next).dropWhile (· ≠ chr ';') = next := by
    rw [List.dropWhile_append_of_pos hne, hend.2]
  simp only [vcontSpec, htake, hdrop]
  rw [if_pos trivial]
  split_ifs with hlen
  · exact Or.inl rfl
  · obtain ⟨p, hpush, hdata⟩ := (CharArray.empty 32).pushAll_of_le spec
      (by simp only [CharArray.empty, List.length_nil]; omega)
    have hdata' : p.data = spec := by simpa [CharArray.empty] using hdata
    have hfits : p.data.length < 32 := by
      rw [hdata']
      omega
    refine Or.inr ?_
    rw [hpush]
    show (do let spec ← p.terminate; _) = _
    rw [p.terminate_of_lt hfits, hdata']
    rfl

/-- The action loop does not get past a process that does not exist. -/
theorem vcontLoop_of_vcontNames (d : DebugState x) {spec text : List Byte} (hsemi : chr ';' ∉ spec)
    (hpid : ¬threadPidValid (parseThreadSpec spec).1) (hnames : VcontNames spec text) {fuel : Nat}
    (hfuel : text.length ≤ fuel) (s : VcontState) :
    ∃ payload ∈ [ascii "E01", []], vcontLoop d fuel text s = .ok (.reply payload) := by
  induction hnames generalizing fuel s with
  | @here letter rest next hspec hnext =>
    obtain ⟨fuel, rfl⟩ := Nat.exists_eq_add_of_le' (show 1 ≤ fuel from Nat.one_le_of_lt hfuel)
    refine ⟨_, List.mem_cons_self, ?_⟩
    have hread := vcontSpec_append hsemi hnext
    generalize parseThreadSpec spec = ids at hpid hread
    obtain ⟨pid, tid⟩ := ids
    rcases hread with hnone | hsome
    · rw [vcontLoop, hspec, hnone]
      rfl
    · rw [← hspec] at hsome
      exact (vcontLoop_succ d fuel s hsome).trans (if_pos (by simpa using hpid))
  | @later letter rest next ids hspec _ ih =>
    have hlen := length_lt_of_vcontSpec hspec
    obtain ⟨fuel, rfl⟩ := Nat.exists_eq_add_of_lt (Nat.zero_lt_of_lt (hlen.trans_le hfuel))
    rw [Nat.zero_add, vcontLoop_succ d fuel s hspec]
    by_cases hvalid : threadPidValid ids.1
    · rw [if_neg (by simpa using hvalid)]
      cases haction : vcontAction d letter ids.1 ids.2 s with
      | reply payload =>
        refine ⟨payload, ?_, rfl⟩
        rcases eq_of_vcontAction haction with rfl | rfl
        · exact List.mem_cons_self
        · exact List.mem_cons_of_mem _ List.mem_cons_self
      | actions s' => exact ih (by omega) s'
    · exact ⟨_, List.mem_cons_self, if_pos (by simpa using hvalid)⟩

theorem dispatch_H_of_not_valid (fuel : Nat) (cb : GdbCallbacks x σ) {w : World x σ} {op : Byte}
    {spec : List Byte} (htext : w.packetText = chr 'H' :: op :: spec)
    (hpid : ¬threadPidValid (parseThreadSpec spec).1) :
    dispatch fuel cb w = .ok (0, (w.callOpt cb.getNumHarts 1).2.send (ascii "E01")) := by
  obtain ⟨hcmd, hrest⟩ := cstr_eq_cons htext
  obtain ⟨-, hspec⟩ := cstr_eq_cons hrest
  have hhandle : handleSetThread cb w = (w.callOpt cb.getNumHarts 1).2.send (ascii "E01") := by
    unfold handleSetThread
    simp only [hspec]
    split_ifs with hop hvalid
    · rfl
    · rfl
    · exact absurd (by simpa using hvalid) hpid
    · exact absurd (by simpa using hvalid) hpid
    · exact absurd (by simpa using hvalid) hpid
    · exact absurd (by simpa using hvalid) hpid
  unfold dispatch
  simp only [hcmd, hhandle]
  rfl

theorem dispatch_T_of_not_valid (fuel : Nat) (cb : GdbCallbacks x σ) {w : World x σ}
    {spec : List Byte} (htext : w.packetText = chr 'T' :: spec)
    (hpid : ¬threadPidValid (parseThreadSpec spec).1) :
    dispatch fuel cb w = .ok (0, (w.callOpt cb.getNumHarts 1).2.send (ascii "E01")) := by
  obtain ⟨hcmd, hrest⟩ := cstr_eq_cons htext
  have hspec : cstr w.stub.packetBuffer 1 = spec := hrest
  have hhandle : handleThreadAlive cb w = (w.callOpt cb.getNumHarts 1).2.send (ascii "E01") := by
    unfold handleThreadAlive
    simp only [World.stub_callOpt, hspec]
    rw [if_pos (by simpa using hpid)]
  unfold dispatch
  simp only [hcmd, hhandle]
  rfl

theorem dispatch_vCont_of_not_valid (fuel : Nat) (cb : GdbCallbacks x σ) {w : World x σ}
    {spec text : List Byte} (htext : w.packetText = ascii "vCont" ++ text) (hsemi : chr ';' ∉ spec)
    (hpid : ¬threadPidValid (parseThreadSpec spec).1)
    (hnames : VcontNames spec (skipSemicolon text)) :
    ∃ payload ∈ [ascii "E01", []], dispatch fuel cb w = .ok (0, w.send payload) := by
  have hcmd : byteAt w.stub.packetBuffer 0 = chr 'v' := (cstr_eq_cons htext).1
  have hfront : strncmpEq (ascii "vCont" ++ text) (ascii "vCont") = true :=
    List.isPrefixOf_iff_prefix.mpr (List.prefix_append _ _)
  have hdrop : (ascii "vCont" ++ text).drop 5 = text := rfl
  have hquery : ascii "vCont" ++ text ≠ ascii "vCont?" := by
    intro he
    obtain rfl : text = [chr '?'] := List.append_cancel_left he
    cases hnames with
    | here hspec => cases hspec
    | later hspec hnames =>
      obtain ⟨-, rfl⟩ := Prod.mk.inj (Option.some.inj (Except.ok.inj hspec))
      cases hnames
  have hnil : skipSemicolon text ≠ [] := by
    intro he
    rw [he] at hnames
    cases hnames
  obtain ⟨payload, hpayload, hloop⟩ :=
    vcontLoop_of_vcontNames w.dbg hsemi hpid hnames le_rfl ⟨false, -1, -1, false⟩
  have hhandle : handleVcont cb w = .ok (false, w.send payload) := by
    unfold handleVcont
    simp only [htext, hfront, hdrop, if_neg hquery, if_neg hnil, hloop]
    rfl
  refine ⟨payload, hpayload, ?_⟩
  unfold dispatch
  simp only [hcmd, htext, hfront, hhandle]
  rfl

/-- The `H`, `T` and `vCont` handlers refuse a thread id: a reply that is no `OK`, and nothing
else. -/
def RefusesSpec (cb : GdbCallbacks x σ) (spec : List Byte) : Prop :=
  ∀ (fuel : Nat) (w : World x σ),
    ((∃ op, w.packetText = chr 'H' :: op :: spec) ∨ w.packetText = chr 'T' :: spec →
      dispatch fuel cb w = .ok (0, (w.callOpt cb.getNumHarts 1).2.send (ascii "E01"))) ∧
    ∀ text, w.packetText = ascii "vCont" ++ text → VcontNames spec (skipSemicolon text) →
      ∃ payload ∈ [ascii "E01", []], dispatch fuel cb w = .ok (0, w.send payload)

/-- A process id that fits is valid if and only if it is `0` or `1`. -/
theorem threadPidValid_readId_iff {pid : IdText} (h : pid.Fits) :
    threadPidValid (readId pid.value) ↔ pid.value = 0 ∨ pid.value = 1 := by
  rw [readId_of_fits h, threadPidValid, gdbStubPid, Bool.or_eq_true, decide_eq_true_iff,
    decide_eq_true_iff]

theorem refusesSpec_of_not_valid (cb : GdbCallbacks x σ) {pid tid : IdText} (hfits : pid.Fits)
    (hpid : ¬(pid.value = 0 ∨ pid.value = 1)) :
    RefusesSpec cb (ThreadSpec.process pid tid).text := by
  have hinvalid : ¬threadPidValid (parseThreadSpec (ThreadSpec.process pid tid).text).1 := by
    rw [parseThreadSpec_threadSpec]
    exact fun h => hpid ((threadPidValid_readId_iff hfits).mp h)
  have hsemi : chr ';' ∉ (ThreadSpec.process pid tid).text := by
    intro h
    rcases List.mem_cons.mp h with h | h
    · exact absurd h (by decide)
    rcases List.mem_append.mp h with h | h
    · exact (IdText.ne_of_mem_text h).2.1 rfl
    rcases List.mem_cons.mp h with h | h
    · exact absurd h (by decide)
    · exact (IdText.ne_of_mem_text h).2.1 rfl
  intro fuel w
  refine ⟨?_, fun text htext hnames =>
    dispatch_vCont_of_not_valid fuel cb htext hsemi hinvalid hnames⟩
  rintro (⟨op, htext⟩ | htext)
  · exact dispatch_H_of_not_valid fuel cb htext hinvalid
  · exact dispatch_T_of_not_valid fuel cb htext hinvalid

/-- Thread ids are read as they are meant if their numbers fit, and the handlers accept an explicit
process id only if it is `0` or `1`. -/
theorem parsesThreadIds (cb : GdbCallbacks x σ) (t : ThreadSpec) :
    (t.Fits → parseThreadSpec t.text = t.ids) ∧
      ∀ pid tid, t = .process pid tid → pid.Fits → ¬(pid.value = 0 ∨ pid.value = 1) →
        RefusesSpec cb t.text := by
  refine ⟨parseThreadSpec_of_fits, ?_⟩
  rintro pid tid rfl hfits hpid
  exact refusesSpec_of_not_valid cb hfits hpid

/-- Thread `1f` of process `2`. -/
theorem parsesThreadIds_otherProcessSpec :
    parseThreadSpec (ascii "p2.1f") = (2, 31) ∧ RefusesSpec emuCallbacks (ascii "p2.1f") := by
  let pid : IdText := .number (ascii "2") (by decide) (by decide)
  let tid : IdText := .number (ascii "1f") (by decide) (by decide)
  obtain ⟨hread, hrefuses⟩ := parsesThreadIds emuCallbacks (.process pid tid)
  have hpid : pid.Fits := show ((2 : Nat) : Int) < 2 ^ 31 by decide
  have htid : tid.Fits := show ((31 : Nat) : Int) < 2 ^ 31 by decide
  have hother : ¬(((2 : Nat) : Int) = 0 ∨ ((2 : Nat) : Int) = 1) := by decide
  exact ⟨hread ⟨hpid, htid⟩, hrefuses _ _ rfl hpid hother⟩

/-- A `p` with one number is read as a thread, not as all threads of that process. -/
theorem parseThreadSpec_processOnly : parseThreadSpec (ascii "p1") ≠ (1, -1) := by
  decide

end Rv32Gdb
