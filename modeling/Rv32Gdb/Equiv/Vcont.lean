import Rv32Gdb.Equiv.Execution
import Rv32Gdb.Equiv.Hex

/-!
# Lists of `vCont` actions

The action loop of `handle_vcont` reads a list of actions (`VcontReads`) and keeps of it the last step
and the last continue (`ReadAction.gathered`).  A `VcontAction` is an action as a client writes it; it
is read as it was written (`vcontReads_text`).  The main results: `gdbStubProcess_vcont_step`, the
order of the actions does not matter if one of them is a step; `runsNamed_vcont_iff`, the threads that
are named may run if and only if the last action is for all of them.
-/

namespace Rv32Gdb

variable {x : Xlen} {σ : Type}

/-! ### What the action loop reads -/

theorem resolveContinueThread_of_valid {pid : Int} (h : threadPidValid pid) (tid : Int) :
    resolveContinueThread pid tid = if tid ≤ 0 then -1 else tid := by
  rw [resolveContinueThread, h]
  rfl

theorem resolveStepThread_of_valid (d : DebugState x) {pid : Int} (h : threadPidValid pid)
    (tid : Int) : resolveStepThread d pid tid = if tid ≤ 0 then d.currentThread else tid := by
  rw [resolveStepThread, resolveContinueThread_of_valid h]
  by_cases htid : tid ≤ 0
  · rw [if_pos htid, if_pos htid]
    rfl
  · rw [if_neg htid, if_neg htid]
    show (if tid = -2 then (-2 : Int) else if tid > 0 then tid else d.currentThread) = tid
    rw [if_neg (by omega), if_pos (by omega)]

/-- The letters of the actions of `vCont`. -/
def vcontLetters : List Byte := [chr 'c', chr 'C', chr 's', chr 'S', chr 't', chr 'T']

/-- An action as the loop reads it. -/
structure ReadAction where
  letter : Byte
  pid : Int
  tid : Int

namespace ReadAction

/-- The action continues a thread; any other one steps it. -/
def Continues (a : ReadAction) : Prop := a.letter = chr 'c' ∨ a.letter = chr 'C'

instance (a : ReadAction) : Decidable a.Continues := inferInstanceAs (Decidable (_ ∨ _))

/-- The loop goes on after the action. -/
structure Accepted (d : DebugState x) (a : ReadAction) : Prop where
  letter_mem : a.letter ∈ vcontLetters
  pid_valid : threadPidValid a.pid
  currentThread : ¬a.Continues → d.currentThread ≠ -2

/-- What the loop gathers from the action. -/
def gather (d : DebugState x) (s : VcontState) (a : ReadAction) : VcontState :=
  if a.Continues then { s with continueTid := resolveContinueThread a.pid a.tid, haveAction := true }
  else { s with anyStep := true, stepTid := resolveStepThread d a.pid a.tid, haveAction := true }

theorem vcontAction_of_accepted {d : DebugState x} {a : ReadAction} (h : a.Accepted d)
    (s : VcontState) : vcontAction d a.letter a.pid a.tid s = .actions (a.gather d s) := by
  unfold vcontAction gather
  by_cases hc : a.letter = chr 'c' ∨ a.letter = chr 'C'
  · have hcont : resolveContinueThread a.pid a.tid ≠ -2 := by
      rw [resolveContinueThread_of_valid h.pid_valid]
      split_ifs <;> omega
    have hcontinues : a.Continues := hc
    rw [if_pos hc, if_pos hcontinues]
    exact if_neg hcont
  · have hstep : resolveStepThread d a.pid a.tid ≠ -2 := by
      rw [resolveStepThread_of_valid d h.pid_valid]
      split_ifs
      · exact h.currentThread hc
      · omega
    have hletter : a.letter = chr 's' ∨ a.letter = chr 'S' ∨ a.letter = chr 't' ∨
        a.letter = chr 'T' := by
      have hmem := h.letter_mem
      simp only [vcontLetters, List.mem_cons, List.not_mem_nil, or_false] at hmem
      rcases hmem with hl | hl | hl
      · exact absurd (Or.inl hl) hc
      · exact absurd (Or.inr hl) hc
      · exact hl
    have hcontinues : ¬a.Continues := hc
    rw [if_neg hc, if_neg hcontinues, if_pos hletter]
    exact if_neg hstep

theorem vcontAction_of_notMem (d : DebugState x) {letter : Byte} (pid tid : Int) (s : VcontState)
    (hletter : letter ∉ vcontLetters) : vcontAction d letter pid tid s = .reply [] := by
  simp only [vcontLetters, List.mem_cons, List.not_mem_nil, or_false, not_or] at hletter
  obtain ⟨h₁, h₂, h₃, h₄, h₅, h₆⟩ := hletter
  unfold vcontAction
  rw [if_neg (not_or.mpr ⟨h₁, h₂⟩), if_neg (by tauto)]

end ReadAction

/-- Read as actions of `vCont`, the text is a list of actions. -/
inductive VcontReads : List Byte → List ReadAction → Prop
  | nil : VcontReads [] []
  | cons {letter : Byte} {pid tid : Int} {rest next : List Byte} {actions : List ReadAction}
      (hspec : vcontSpec (skipSignal letter rest) = .ok (some ((pid, tid), next)))
      (htail : VcontReads (skipSemicolon next) actions) :
      VcontReads (letter :: rest) (⟨letter, pid, tid⟩ :: actions)

/-- The loop from an action on whose thread id it reads. -/
theorem vcontLoop_succ (d : DebugState x) (fuel : Nat) {letter : Byte} {rest next : List Byte}
    {pid tid : Int} (s : VcontState)
    (hspec : vcontSpec (skipSignal letter rest) = .ok (some ((pid, tid), next))) :
    vcontLoop d (fuel + 1) (letter :: rest) s =
      if !threadPidValid pid then .ok (.reply (ascii "E01"))
      else match vcontAction d letter pid tid s with
        | .reply payload => .ok (.reply payload)
        | .actions s => vcontLoop d fuel (skipSemicolon next) s := by
  rw [vcontLoop, hspec]
  rfl

theorem vcontLoop_succ_of_accepted {d : DebugState x} (fuel : Nat) {letter : Byte}
    {rest next : List Byte} {pid tid : Int} (s : VcontState)
    (hspec : vcontSpec (skipSignal letter rest) = .ok (some ((pid, tid), next)))
    (h : ReadAction.Accepted d ⟨letter, pid, tid⟩) :
    vcontLoop d (fuel + 1) (letter :: rest) s =
      vcontLoop d fuel (skipSemicolon next) (ReadAction.gather d s ⟨letter, pid, tid⟩) := by
  have haction := ReadAction.vcontAction_of_accepted h s
  rw [vcontLoop_succ d fuel s hspec, h.pid_valid, haction]
  rfl

theorem length_lt_of_vcontSpec {letter : Byte} {rest next : List Byte} {ids : Int × Int}
    (hspec : vcontSpec (skipSignal letter rest) = .ok (some (ids, next))) :
    (skipSemicolon next).length < (letter :: rest).length := by
  have hsemi := length_skipSemicolon_le next
  have hskip := length_skipSignal_le letter rest
  rcases vcontSpec_cases (skipSignal letter rest) with hnone | ⟨ids', next', hsome, hlen⟩
  · rw [hspec] at hnone
    cases hnone
  · obtain ⟨-, rfl⟩ := Prod.mk.inj (Option.some.inj (Except.ok.inj (hspec.symm.trans hsome)))
    rw [List.length_cons]
    omega

/-- The loop gathers what it reads. -/
theorem vcontLoop_of_reads {d : DebugState x} {text : List Byte} {actions : List ReadAction}
    (hread : VcontReads text actions) (haccepted : ∀ a ∈ actions, a.Accepted d) {fuel : Nat}
    (hfuel : text.length ≤ fuel) (s : VcontState) :
    vcontLoop d fuel text s = .ok (.actions (actions.foldl (fun s a => a.gather d s) s)) := by
  induction hread generalizing fuel s with
  | nil => cases fuel <;> rfl
  | cons hspec htail ih =>
    have hlen := length_lt_of_vcontSpec hspec
    obtain ⟨fuel, rfl⟩ := Nat.exists_eq_add_of_lt (Nat.zero_lt_of_lt (hlen.trans_le hfuel))
    rw [Nat.zero_add, vcontLoop_succ_of_accepted _ _ hspec (haccepted _ List.mem_cons_self),
      ih (fun a ha => haccepted a (List.mem_cons_of_mem _ ha)) (by omega), List.foldl_cons]

/-- What the loop accepts is a list of actions. -/
theorem exists_reads_of_vcontLoop {d : DebugState x} (hd : d.currentThread ≠ -2) {fuel : Nat}
    {text : List Byte} {s s' : VcontState} (h : vcontLoop d fuel text s = .ok (.actions s')) :
    ∃ actions, VcontReads text actions ∧ (∀ a ∈ actions, a.Accepted d) ∧
      s' = actions.foldl (fun s a => a.gather d s) s := by
  induction fuel generalizing text s with
  | zero =>
    cases text with
    | nil =>
      obtain rfl := VcontOutcome.actions.inj (Except.ok.inj h)
      exact ⟨[], .nil, fun a ha => absurd ha List.not_mem_nil, rfl⟩
    | cons letter rest => cases h
  | succ fuel ih =>
    cases text with
    | nil =>
      obtain rfl := VcontOutcome.actions.inj (Except.ok.inj h)
      exact ⟨[], .nil, fun a ha => absurd ha List.not_mem_nil, rfl⟩
    | cons letter rest =>
      rcases vcontSpec_cases (skipSignal letter rest) with hspec | ⟨⟨pid, tid⟩, next, hspec, -⟩
      · rw [vcontLoop, hspec] at h
        cases Except.ok.inj h
      rw [vcontLoop_succ d fuel s hspec] at h
      by_cases hpid : threadPidValid pid
      · rw [if_neg (by simp [hpid])] at h
        by_cases hletter : letter ∈ vcontLetters
        · have haccepted : ReadAction.Accepted d ⟨letter, pid, tid⟩ := ⟨hletter, hpid, fun _ => hd⟩
          have haction := ReadAction.vcontAction_of_accepted haccepted s
          simp only at haction
          rw [haction] at h
          obtain ⟨actions, hread, hall, rfl⟩ := ih h
          exact ⟨_, .cons hspec hread, List.forall_mem_cons.mpr ⟨haccepted, hall⟩, rfl⟩
        · rw [ReadAction.vcontAction_of_notMem d pid tid s hletter] at h
          cases Except.ok.inj h
      · rw [if_pos (by simp [hpid])] at h
        cases Except.ok.inj h

/-- A process that does not exist is refused. -/
theorem vcontLoop_of_not_valid {d : DebugState x} (hd : d.currentThread ≠ -2) {text : List Byte}
    {actions : List ReadAction} (hread : VcontReads text actions)
    (hletters : ∀ a ∈ actions, a.letter ∈ vcontLetters)
    (hpid : ∃ a ∈ actions, ¬threadPidValid a.pid) {fuel : Nat} (hfuel : text.length ≤ fuel)
    (s : VcontState) : vcontLoop d fuel text s = .ok (.reply (ascii "E01")) := by
  induction hread generalizing fuel s with
  | nil =>
    obtain ⟨a, ha, -⟩ := hpid
    exact absurd ha List.not_mem_nil
  | @cons letter pid tid rest next actions hspec htail ih =>
    have hlen := length_lt_of_vcontSpec hspec
    obtain ⟨fuel, rfl⟩ := Nat.exists_eq_add_of_lt (Nat.zero_lt_of_lt (hlen.trans_le hfuel))
    rw [Nat.zero_add]
    by_cases hvalid : threadPidValid pid
    · have htailPid : ∃ a ∈ actions, ¬threadPidValid a.pid := by
        obtain ⟨a, ha, hnot⟩ := hpid
        rcases List.mem_cons.mp ha with rfl | ha
        · exact absurd hvalid hnot
        · exact ⟨a, ha, hnot⟩
      rw [vcontLoop_succ_of_accepted fuel s hspec
        ⟨hletters _ List.mem_cons_self, hvalid, fun _ => hd⟩]
      exact ih (fun a ha => hletters a (List.mem_cons_of_mem _ ha)) htailPid (by omega) _
    · rw [vcontLoop_succ d fuel s hspec, if_pos (by simp [hvalid])]

theorem haveAction_foldl_gather (d : DebugState x) {actions : List ReadAction}
    (hne : actions ≠ []) (s : VcontState) :
    (actions.foldl (fun s a => a.gather d s) s).haveAction := by
  rw [← List.dropLast_append_getLast hne, List.foldl_append]
  simp only [List.foldl_cons, List.foldl_nil]
  unfold ReadAction.gather
  split_ifs <;> rfl

/-- What accepting the gathered actions does to the debug state. -/
def DebugState.resumed (d : DebugState x) (s : VcontState) : DebugState x :=
  { d with
    singleStep := s.anyStep
    continueThread := if s.anyStep then s.stepTid else s.continueTid
    shouldStop := false
    stopThread := 0 }

/-- The loop of `handle_vcont` on a list of known actions. -/
theorem handleVcont_of_reads (cb : GdbCallbacks x σ) {w : World x σ} {text : List Byte}
    {actions : List ReadAction} (htext : w.packetText = ascii "vCont" ++ text)
    (hread : VcontReads (skipSemicolon text) actions) (hne : actions ≠ [])
    (hletters : ∀ a ∈ actions, a.letter ∈ vcontLetters) :
    handleVcont cb w = (do
      match ← vcontLoop w.dbg (skipSemicolon text).length (skipSemicolon text)
          ⟨false, -1, -1, false⟩ with
      | .reply payload => .ok (false, w.send payload)
      | .actions s =>
        if !s.haveAction then .ok (false, w.send (ascii "E01"))
        else .ok (true, (w.updDbg fun d => d.resumed s).actOpt cb.resume)) := by
  have hquery : ascii "vCont" ++ text ≠ ascii "vCont?" := by
    intro he
    have hsplit : ascii "vCont?" = ascii "vCont" ++ [chr '?'] := rfl
    rw [hsplit] at he
    rw [List.append_cancel_left he] at hread
    cases hread with
    | cons hspec htail =>
      have hmem : chr '?' ∈ vcontLetters := hletters _ List.mem_cons_self
      exact absurd hmem (by decide)
  have hfront : strncmpEq (ascii "vCont" ++ text) (ascii "vCont") = true :=
    List.isPrefixOf_iff_prefix.mpr (List.prefix_append _ _)
  have hdrop : (ascii "vCont" ++ text).drop 5 = text := rfl
  have hnil : skipSemicolon text ≠ [] := by
    intro he
    rw [he] at hread
    cases hread
    exact hne rfl
  unfold handleVcont
  simp only [htext, hfront, hdrop, if_neg hquery, if_neg hnil]
  rfl

/-- What the accepted actions gather. -/
def ReadAction.gathered (d : DebugState x) (actions : List ReadAction) : VcontState :=
  actions.foldl (fun s a => a.gather d s) ⟨false, -1, -1, false⟩

theorem handleVcont_of_accepted (cb : GdbCallbacks x σ) {w : World x σ} {text : List Byte}
    {actions : List ReadAction} (htext : w.packetText = ascii "vCont" ++ text)
    (hread : VcontReads (skipSemicolon text) actions) (hne : actions ≠ [])
    (haccepted : ∀ a ∈ actions, a.Accepted w.dbg) :
    handleVcont cb w =
      .ok (true, (w.updDbg fun d => d.resumed (ReadAction.gathered w.dbg actions)).actOpt
        cb.resume) := by
  have hhave := haveAction_foldl_gather w.dbg hne ⟨false, -1, -1, false⟩
  rw [handleVcont_of_reads cb htext hread hne fun a ha => (haccepted a ha).letter_mem,
    vcontLoop_of_reads hread haccepted le_rfl]
  simp only [bind, Except.bind, hhave]
  rfl

theorem handleVcont_of_not_valid (cb : GdbCallbacks x σ) {w : World x σ} {text : List Byte}
    {actions : List ReadAction} (hd : w.dbg.currentThread ≠ -2)
    (htext : w.packetText = ascii "vCont" ++ text)
    (hread : VcontReads (skipSemicolon text) actions)
    (hletters : ∀ a ∈ actions, a.letter ∈ vcontLetters)
    (hpid : ∃ a ∈ actions, ¬threadPidValid a.pid) :
    handleVcont cb w = .ok (false, w.send (ascii "E01")) := by
  have hne : actions ≠ [] := by
    rintro rfl
    obtain ⟨a, ha, -⟩ := hpid
    exact absurd ha List.not_mem_nil
  rw [handleVcont_of_reads cb htext hread hne hletters,
    vcontLoop_of_not_valid hd hread hletters hpid le_rfl]
  rfl

/-! ### Actions -/

/-- One action of a `vCont` packet: `c` or `s`, with or without a signal and a thread id. -/
structure VcontAction where
  step : Bool
  signal : Option (Byte × Byte)
  spec : Option (List Byte)
  isxdigit_signal : ∀ digits ∈ signal, isxdigit digits.1 ∧ isxdigit digits.2
  fits_spec : ∀ text ∈ spec, text.length < 32 ∧ chr ';' ∉ text ∧ 0#8 ∉ text

namespace VcontAction

/-- The letter of the action and its signal. -/
def letter (a : VcontAction) : Byte :=
  if a.signal.isSome then if a.step then chr 'S' else chr 'C'
  else if a.step then chr 's' else chr 'c'

/-- The two digits of the signal. -/
def signalText (a : VcontAction) : List Byte := a.signal.elim [] fun digits => [digits.1, digits.2]

/-- The thread id with its colon. -/
def specText (a : VcontAction) : List Byte := a.spec.elim [] fun spec => chr ':' :: spec

/-- The action as a client writes it. -/
def text (a : VcontAction) : List Byte := a.letter :: (a.signalText ++ a.specText)

/-- The process and the thread that the action is for. -/
def ids (a : VcontAction) : Int × Int := a.spec.elim (0, -1) parseThreadSpec

/-- What the action loop gathers from the action. -/
def gather (d : DebugState x) (s : VcontState) (a : VcontAction) : VcontState :=
  if a.step then
    { s with anyStep := true, stepTid := resolveStepThread d a.ids.1 a.ids.2, haveAction := true }
  else { s with continueTid := resolveContinueThread a.ids.1 a.ids.2, haveAction := true }

end VcontAction

/-- Actions, each with the separator in front of it. -/
def vcontText (actions : List VcontAction) : List Byte :=
  actions.flatMap fun a => chr ';' :: a.text

/-- The packet with these actions. -/
def vcontPacket (actions : List VcontAction) : List Byte := ascii "vCont" ++ vcontText actions

/-! ### Reading one action -/

theorem skipSignal_text (a : VcontAction) (tail : List Byte) :
    skipSignal a.letter (a.signalText ++ tail) = tail := by
  unfold skipSignal VcontAction.letter VcontAction.signalText
  cases hsignal : a.signal with
  | none => cases a.step <;> rfl
  | some digits =>
    obtain ⟨hhi, hlo⟩ := a.isxdigit_signal digits hsignal
    cases a.step <;> simp [hhi, hlo]

/-- A list of actions is empty or begins with a separator. -/
theorem vcontText_cases (actions : List VcontAction) :
    vcontText actions = [] ∨ ∃ rest, vcontText actions = chr ';' :: rest := by
  cases actions with
  | nil => exact Or.inl rfl
  | cons a actions => exact Or.inr ⟨a.text ++ vcontText actions, rfl⟩

theorem vcontSpec_text (a : VcontAction) (actions : List VcontAction) :
    vcontSpec (a.specText ++ vcontText actions) = .ok (some (a.ids, vcontText actions)) := by
  unfold VcontAction.specText VcontAction.ids
  cases hspec : a.spec with
  | none =>
    rcases vcontText_cases actions with htail | ⟨rest, htail⟩
    · rw [htail]
      rfl
    · rw [htail]
      rfl
  | some spec =>
    obtain ⟨hlen, hsemi, -⟩ := a.fits_spec spec hspec
    have hne : ∀ c ∈ spec, decide (c ≠ chr ';') = true := fun c hc =>
      decide_eq_true fun he => hsemi (he ▸ hc)
    have hend : (vcontText actions).takeWhile (· ≠ chr ';') = [] ∧
        (vcontText actions).dropWhile (· ≠ chr ';') = vcontText actions := by
      rcases vcontText_cases actions with htail | ⟨rest, htail⟩
      · rw [htail]
        exact ⟨rfl, rfl⟩
      · rw [htail]
        exact ⟨rfl, rfl⟩
    have htake : (spec ++ vcontText actions).takeWhile (· ≠ chr ';') = spec := by
      rw [List.takeWhile_append_of_pos hne, hend.1, List.append_nil]
    have hdrop : (spec ++ vcontText actions).dropWhile (· ≠ chr ';') = vcontText actions := by
      rw [List.dropWhile_append_of_pos hne, hend.2]
    obtain ⟨p, hpush, hdata⟩ := (CharArray.empty 32).pushAll_of_le spec
      (by simp only [CharArray.empty, List.length_nil]; omega)
    have hfits : p.data.length < 32 := by
      rw [hdata]
      simpa [CharArray.empty] using hlen
    have hdata' : p.data = spec := by simpa [CharArray.empty] using hdata
    simp only [Option.elim_some, List.cons_append, vcontSpec, htake, hdrop]
    rw [if_pos trivial, if_neg (by omega), hpush]
    show (do let spec ← p.terminate; _) = _
    rw [p.terminate_of_lt hfits, hdata']
    rfl

/-- The thread of an action exists, as far as the loop checks it. -/
def VcontAction.Accepted (d : DebugState x) (a : VcontAction) : Prop :=
  threadPidValid a.ids.1 ∧ (a.step → d.currentThread ≠ -2)

namespace VcontAction

/-- The action as the loop reads it. -/
def read (a : VcontAction) : ReadAction := ⟨a.letter, a.ids.1, a.ids.2⟩

theorem continues_read (a : VcontAction) : a.read.Continues ↔ a.step = false := by
  show (a.letter = chr 'c' ∨ a.letter = chr 'C') ↔ _
  unfold letter
  cases a.step <;> cases a.signal.isSome <;> decide

theorem gather_read (d : DebugState x) (s : VcontState) (a : VcontAction) :
    a.read.gather d s = a.gather d s := by
  unfold ReadAction.gather gather
  by_cases hstep : a.step
  · rw [if_pos hstep, if_neg fun h => by simp [a.continues_read.mp h] at hstep]
    rfl
  · rw [if_neg hstep, if_pos (a.continues_read.mpr (Bool.not_eq_true _ ▸ hstep))]
    rfl

theorem accepted_read {d : DebugState x} {a : VcontAction} (h : a.Accepted d) :
    a.read.Accepted d where
  letter_mem := by
    show a.letter ∈ vcontLetters
    unfold letter
    cases a.step <;> cases a.signal.isSome <;> decide
  pid_valid := h.1
  currentThread hcont := h.2 (Bool.not_eq_false _ ▸ fun hstep => hcont (a.continues_read.mpr hstep))

end VcontAction

/-! ### The action loop -/

theorem vcontReads_text (actions : List VcontAction) :
    VcontReads (skipSemicolon (vcontText actions)) (actions.map VcontAction.read) := by
  induction actions with
  | nil => exact .nil
  | cons a actions ih =>
    have htext : skipSemicolon (vcontText (a :: actions)) =
        a.letter :: (a.signalText ++ (a.specText ++ vcontText actions)) := by
      rw [← List.append_assoc]
      rfl
    rw [htext, List.map_cons]
    refine .cons ?_ ih
    rw [skipSignal_text, vcontSpec_text]

/-! ### Thread ids -/

/-- A hex digit is no part of the syntax around a thread number. -/
theorem spec_ne_of_isxdigit {c : Byte} (h : isxdigit c) :
    c ≠ chr ';' ∧ c ≠ chr '.' ∧ c ≠ chr 'p' ∧ c ≠ chr 'P' ∧ c ≠ chr '-' ∧ c ≠ chr '+' ∧
      c ≠ chr 'x' ∧ c ≠ chr 'X' ∧ isspace c = false :=
  forall_byte (P := fun c => isxdigit c → c ≠ chr ';' ∧ c ≠ chr '.' ∧ c ≠ chr 'p' ∧ c ≠ chr 'P' ∧
    c ≠ chr '-' ∧ c ≠ chr '+' ∧ c ≠ chr 'x' ∧ c ≠ chr 'X' ∧ isspace c = false)
    (by decide +kernel) c h

theorem takeWhile_isxdigit {s : List Byte} (h : ∀ c ∈ s, isxdigit c) :
    s.takeWhile isxdigit = s := by
  have happend : (s ++ []).takeWhile isxdigit = s ++ [].takeWhile isxdigit :=
    List.takeWhile_append_of_pos h
  rwa [List.append_nil, List.takeWhile_nil, List.append_nil] at happend

theorem strtolDigits_of_isxdigit {s : List Byte} (h : ∀ c ∈ s, isxdigit c) :
    strtolDigits s = s := by
  unfold strtolDigits
  split
  · next z c d rest =>
    have hc := spec_ne_of_isxdigit (h c (by simp))
    rw [if_neg fun hx => hx.2.1.elim hc.2.2.2.2.2.2.1 hc.2.2.2.2.2.2.2.1]
    exact takeWhile_isxdigit h
  · exact takeWhile_isxdigit h

/-- `strtol` reads a string of hex digits as the number it denotes. -/
theorem strtol16_of_isxdigit {s : List Byte} (h : ∀ c ∈ s, isxdigit c) :
    strtol16 s = min (hexValue s : Int) (2 ^ 63 - 1) := by
  cases s with
  | nil => rfl
  | cons c rest =>
    obtain ⟨-, -, -, -, hminus, hplus, -, -, hspace⟩ := spec_ne_of_isxdigit (h c List.mem_cons_self)
    have hdrop : (c :: rest).dropWhile isspace = c :: rest :=
      List.dropWhile_cons_of_neg (by rw [hspace]; exact Bool.false_ne_true)
    unfold strtol16
    rw [hdrop]
    simp only
    rw [if_neg hminus, if_neg hplus, strtolDigits_of_isxdigit h]

/-- The process id `1` in front of a dot. -/
theorem strtol16_one (rest : List Byte) : strtol16 (chr '1' :: chr '.' :: rest) = 1 := by
  cases rest <;> rfl

/-- The number of a thread of a target with `n` harts, in hex digits. -/
structure ThreadNumber (n : Nat) where
  digits : List Byte
  isxdigit_digits : ∀ c ∈ digits, isxdigit c
  pos : 1 ≤ hexValue digits
  le : hexValue digits ≤ n

/-- What stands for a thread in a thread id. -/
inductive ThreadName (n : Nat)
  | any
  | all
  | thread (number : ThreadNumber n)

/-- The name as a client writes it. -/
def ThreadName.text {n : Nat} : ThreadName n → List Byte
  | .any => ascii "0"
  | .all => ascii "-1"
  | .thread number => number.digits

/-- The name as a number. -/
def ThreadName.tid {n : Nat} : ThreadName n → Int
  | .any => 0
  | .all => -1
  | .thread number => hexValue number.digits

/-- A thread id, with or without the process id, that `handle_vcont` has room for. -/
structure ThreadId (n : Nat) where
  process : Bool
  name : ThreadName n
  fits : ((if process then ascii "p1." else []) ++ name.text).length < 32

/-- The thread id as a client writes it. -/
def ThreadId.text {n : Nat} (t : ThreadId n) : List Byte :=
  (if t.process then ascii "p1." else []) ++ t.name.text

/-- The thread number of a name is read back. -/
theorem toInt32_strtol16_text {n : Nat} (hn : n < 2 ^ 31) (name : ThreadName n) :
    toInt32 (strtol16 name.text) = name.tid := by
  cases name with
  | any => rfl
  | all => rfl
  | thread number =>
    have hle := number.le
    rw [ThreadName.text, strtol16_of_isxdigit number.isxdigit_digits, min_eq_left (by omega), toInt32,
      Int.bmod_eq_of_le_mul_two (by omega) (by omega)]
    rfl

/-- A thread id of a client is read as it was meant. -/
theorem parseThreadSpec_text {n : Nat} (hn : n < 2 ^ 31) (t : ThreadId n) :
    parseThreadSpec t.text = (if t.process then gdbStubPid else 0, t.name.tid) := by
  obtain ⟨process, name, hfits⟩ := t
  cases process with
  | true =>
    have htext : ThreadId.text ⟨true, name, hfits⟩ =
        chr 'p' :: chr '1' :: chr '.' :: name.text := rfl
    have hdot : chr '.' ∈ chr '1' :: chr '.' :: name.text :=
      List.mem_cons_of_mem _ List.mem_cons_self
    have hname : ((chr '1' :: chr '.' :: name.text).dropWhile (· ≠ chr '.')).drop 1 = name.text :=
      rfl
    have hneg : chr 'p' :: chr '1' :: chr '.' :: name.text ≠ ascii "-1" :=
      fun he => absurd (List.cons.inj he).1 (by decide)
    rw [htext, parseThreadSpec, if_neg (List.cons_ne_nil _ _), if_neg hneg]
    simp only [true_or, if_true, hdot, hname, strtol16_one, toInt32_strtol16_text hn]
    rfl
  | false =>
    cases name with
    | any => rfl
    | all => rfl
    | thread number =>
      have hread := toInt32_strtol16_text hn (.thread number)
      have htext : ThreadId.text ⟨false, .thread number, hfits⟩ = number.digits := rfl
      have hhex := number.isxdigit_digits
      rw [ThreadName.text] at hread
      rw [htext]
      have hpos := number.pos
      cases hdigits : number.digits with
      | nil =>
        rw [hdigits] at hpos
        exact absurd hpos (by decide)
      | cons c rest =>
        rw [hdigits] at hhex hread
        obtain ⟨-, -, hp, hP, hminus, -⟩ := spec_ne_of_isxdigit (hhex c List.mem_cons_self)
        have hdot : chr '.' ∉ c :: rest := fun hmem => (spec_ne_of_isxdigit (hhex _ hmem)).2.1 rfl
        have hneg : c :: rest ≠ ascii "-1" := fun he => hminus (List.cons.inj he).1
        rw [parseThreadSpec, if_neg (List.cons_ne_nil _ _), if_neg hneg]
        simp only [hp, hP, or_self, if_false, hdot, hread]
        rfl

/-! ### Packets -/

/-- What a list of actions leaves in the variables of the loop. -/
def gathered (d : DebugState x) (actions : List VcontAction) : VcontState :=
  actions.foldl (fun s a => a.gather d s) ⟨false, -1, -1, false⟩

theorem gathered_append_singleton (d : DebugState x) (actions : List VcontAction)
    (a : VcontAction) : gathered d (actions ++ [a]) = a.gather d (gathered d actions) := by
  rw [gathered, List.foldl_append]
  rfl

theorem anyStep_gathered (d : DebugState x) (actions : List VcontAction) :
    (gathered d actions).anyStep = actions.any VcontAction.step := by
  induction actions using List.reverseRecOn with
  | nil => rfl
  | append_singleton actions a ih =>
    rw [gathered_append_singleton, List.any_append, ← ih]
    unfold VcontAction.gather
    cases hstep : a.step <;> simp [hstep]

/-- The last step decides which thread is stepped. -/
theorem stepTid_gathered (d : DebugState x) (actions : List VcontAction) :
    (gathered d actions).stepTid = (actions.filter VcontAction.step).getLast?.elim (-1)
      fun a => resolveStepThread d a.ids.1 a.ids.2 := by
  induction actions using List.reverseRecOn with
  | nil => rfl
  | append_singleton actions a ih =>
    rw [gathered_append_singleton, List.filter_append]
    unfold VcontAction.gather
    cases hstep : a.step with
    | true => simp [hstep]
    | false => simp [hstep, ih]

/-- The last action decides which thread is continued, if it is a continue. -/
theorem continueTid_gathered (d : DebugState x) (actions : List VcontAction) {a : VcontAction}
    (hstep : a.step = false) :
    (gathered d (actions ++ [a])).continueTid = resolveContinueThread a.ids.1 a.ids.2 := by
  rw [gathered_append_singleton, VcontAction.gather, if_neg (by simp [hstep])]

/-- What accepting the actions does to the debug state. -/
def DebugState.vcont (d : DebugState x) (actions : List VcontAction) : DebugState x :=
  { d with
    singleStep := (gathered d actions).anyStep
    continueThread := if (gathered d actions).anyStep then (gathered d actions).stepTid
      else (gathered d actions).continueTid
    shouldStop := false
    stopThread := 0 }

theorem nul_notMem_vcontPacket (actions : List VcontAction) : 0#8 ∉ vcontPacket actions := by
  have hletter : ∀ a : VcontAction, a.letter ≠ 0#8 := by
    intro a
    unfold VcontAction.letter
    split_ifs <;> decide
  rw [vcontPacket, List.mem_append, not_or]
  refine ⟨by decide, fun hmem => ?_⟩
  obtain ⟨a, -, hmem⟩ := List.mem_flatMap.mp hmem
  rcases List.mem_cons.mp hmem with h | h
  · exact absurd h (by decide)
  rcases List.mem_cons.mp h with h | h
  · exact hletter a h.symm
  rcases List.mem_append.mp h with h | h
  · unfold VcontAction.signalText at h
    cases hsignal : a.signal with
    | none => simp [hsignal] at h
    | some digits =>
      obtain ⟨hhi, hlo⟩ := a.isxdigit_signal digits hsignal
      simp only [hsignal, Option.elim_some, List.mem_cons, List.not_mem_nil, or_false] at h
      rcases h with h | h
      · exact (ne_of_isxdigit hhi).2.2.2 h.symm
      · exact (ne_of_isxdigit hlo).2.2.2 h.symm
  · unfold VcontAction.specText at h
    cases hspec : a.spec with
    | none => simp [hspec] at h
    | some spec =>
      rw [hspec, Option.elim_some] at h
      rcases List.mem_cons.mp h with h | h
      · exact absurd h (by decide)
      · exact (a.fits_spec spec hspec).2.2 h

theorem gathered_read (d : DebugState x) (actions : List VcontAction) :
    ReadAction.gathered d (actions.map VcontAction.read) = gathered d actions := by
  rw [ReadAction.gathered, List.foldl_map]
  simp only [VcontAction.gather_read]
  rfl

/-- A list of actions for processes that exist is accepted and resumes the target. -/
theorem handleVcont_actions (cb : GdbCallbacks x σ) {w : World x σ} {actions : List VcontAction}
    (hne : actions ≠ []) (haccepted : ∀ a ∈ actions, a.Accepted w.dbg)
    (htext : w.packetText = vcontPacket actions) :
    handleVcont cb w = .ok (true, (w.updDbg fun d => d.vcont actions).actOpt cb.resume) := by
  have hread : ∀ a ∈ actions.map VcontAction.read, a.Accepted w.dbg := by
    intro b hb
    obtain ⟨a, ha, rfl⟩ := List.mem_map.mp hb
    exact VcontAction.accepted_read (haccepted a ha)
  rw [handleVcont_of_accepted cb htext (vcontReads_text actions)
    (fun h => hne (List.map_eq_nil_iff.mp h)) hread, gathered_read]
  rfl

/-- A framed list of actions resumes the target. -/
theorem gdbStubProcess_vcont (fuel : Nat) (cb : GdbCallbacks x σ) {w : World x σ}
    {actions : List VcontAction} {rest : List Byte} (hconn : w.stub.connected)
    (hfail : w.stub.consecutiveFailures < 50) (hne : actions ≠ [])
    (haccepted : ∀ a ∈ actions, a.Accepted w.dbg)
    (hlen : (vcontPacket actions).length < gdbBufferSize)
    (hin : Framed (vcontPacket actions) rest w.stub.input) :
    ∃ stub, Received w.stub (vcontPacket actions) rest stub ∧ gdbStubProcess fuel cb w =
      .ok (1, ({ w with stub := stub }.updDbg fun d => d.vcont actions).actOpt cb.resume) := by
  obtain ⟨stub, hrecv, hprocess⟩ := gdbStubProcess_framed fuel cb hconn hfail hin hlen
  refine ⟨stub, hrecv, ?_⟩
  have htext : World.packetText { w with stub := stub } = vcontPacket actions :=
    cstr_of_hasBytes hrecv.bytes (nul_notMem_vcontPacket actions)
  have hcmd : byteAt stub.packetBuffer 0 = chr 'v' := hrecv.bytes.head
  have hfront : strncmpEq (vcontPacket actions) (ascii "vCont") = true := by
    rw [strncmpEq, List.isPrefixOf_iff_prefix]
    exact List.prefix_append _ _
  have hvcont := handleVcont_actions cb (w := { w with stub := stub }) hne haccepted htext
  rw [hprocess]
  unfold dispatch
  simp only [hcmd, htext, hfront, hvcont]
  rfl

/-! ### Actions for the threads of a target -/

theorem fits_text {n : Nat} (t : ThreadId n) :
    t.text.length < 32 ∧ chr ';' ∉ t.text ∧ 0#8 ∉ t.text := by
  have hname : ∀ c ∈ t.name.text, c ≠ chr ';' ∧ c ≠ 0#8 := by
    intro c hc
    cases hn : t.name with
    | any =>
      rw [hn] at hc
      exact (by decide : ∀ c ∈ ascii "0", c ≠ chr ';' ∧ c ≠ 0#8) c hc
    | all =>
      rw [hn] at hc
      exact (by decide : ∀ c ∈ ascii "-1", c ≠ chr ';' ∧ c ≠ 0#8) c hc
    | thread number =>
      rw [hn] at hc
      have hhex := number.isxdigit_digits c hc
      exact ⟨(spec_ne_of_isxdigit hhex).1, (ne_of_isxdigit hhex).2.2.2⟩
  have htext : ∀ c ∈ t.text, c ≠ chr ';' ∧ c ≠ 0#8 := by
    intro c hc
    rcases List.mem_append.mp hc with hc | hc
    · split_ifs at hc
      · exact (by decide : ∀ c ∈ ascii "p1.", c ≠ chr ';' ∧ c ≠ 0#8) c hc
      · exact absurd hc List.not_mem_nil
    · exact hname c hc
  exact ⟨t.fits, fun h => (htext _ h).1 rfl, fun h => (htext _ h).2 rfl⟩

/-- An action of a `vCont` packet for threads of a target with `n` harts. -/
structure VcontItem (n : Nat) where
  step : Bool
  signal : Option (Byte × Byte)
  thread : Option (ThreadId n)
  isxdigit_signal : ∀ digits ∈ signal, isxdigit digits.1 ∧ isxdigit digits.2

namespace VcontItem

variable {n : Nat}

/-- The action as it is written in a packet. -/
def action (i : VcontItem n) : VcontAction where
  step := i.step
  signal := i.signal
  spec := i.thread.map ThreadId.text
  isxdigit_signal := i.isxdigit_signal
  fits_spec := by
    intro text htext
    obtain ⟨t, -, rfl⟩ := Option.mem_map.mp htext
    exact fits_text t

/-- The thread number of the action, `-1` for all threads, also when there is no thread id. -/
def tid (i : VcontItem n) : Int := i.thread.elim (-1) fun t => t.name.tid

/-- The action is for the thread `t`. -/
def Names (i : VcontItem n) (t : Int) : Prop := i.tid = -1 ∨ i.tid = t

/-- The thread that a step is for: the selected one if the action names none. -/
def stepThread (d : DebugState x) (i : VcontItem n) : Int :=
  if i.tid ≤ 0 then d.currentThread else i.tid

theorem ids_action (hn : n < 2 ^ 31) (i : VcontItem n) :
    threadPidValid i.action.ids.1 ∧ i.action.ids.2 = i.tid := by
  have hids : i.action.ids = (i.thread.map ThreadId.text).elim (0, -1) parseThreadSpec := rfl
  rw [hids, tid]
  cases i.thread with
  | none => exact ⟨rfl, rfl⟩
  | some t =>
    rw [Option.map_some, Option.elim_some, parseThreadSpec_text hn]
    refine ⟨?_, rfl⟩
    cases t.process <;> rfl

theorem accepted_action (hn : n < 2 ^ 31) {d : DebugState x} {items : List (VcontItem n)}
    (hd : ∀ i ∈ items, i.step → d.currentThread ≠ -2) : ∀ a ∈ items.map action, a.Accepted d := by
  intro a ha
  obtain ⟨i, hi, rfl⟩ := List.mem_map.mp ha
  exact ⟨(ids_action hn i).1, hd i hi⟩

end VcontItem

/-- The packet with these actions. -/
def itemPacket {n : Nat} (items : List (VcontItem n)) : List Byte :=
  vcontPacket (items.map VcontItem.action)

/-! ### Lists with one step -/

/-- The thread that the only step of a list is for. -/
def stepTarget {n : Nat} (d : DebugState x) (items : List (VcontItem n)) : Int :=
  (items.find? VcontItem.step).elim d.currentThread fun i => i.stepThread d

/-- In a list with one step only the step counts. -/
theorem vcont_of_countP_eq_one {n : Nat} (hn : n < 2 ^ 31) (d : DebugState x)
    {items : List (VcontItem n)} {i : VcontItem n} (hone : items.filter VcontItem.step = [i]) :
    d.vcont (items.map VcontItem.action) = { d with
      singleStep := true
      continueThread := i.stepThread d
      shouldStop := false
      stopThread := 0 } := by
  have hmem : i ∈ items.filter VcontItem.step := hone ▸ List.mem_singleton_self i
  obtain ⟨hi, hstep⟩ := List.mem_filter.mp hmem
  have hany : (gathered d (items.map VcontItem.action)).anyStep = true := by
    rw [anyStep_gathered, List.any_map]
    exact List.any_eq_true.mpr ⟨i, hi, hstep⟩
  have hfilter : (items.map VcontItem.action).filter VcontAction.step = [i.action] := by
    have hcomp : VcontAction.step ∘ VcontItem.action = VcontItem.step (n := n) := rfl
    rw [List.filter_map, hcomp, hone]
    rfl
  obtain ⟨hpid, htid⟩ := VcontItem.ids_action hn i
  have hthread : (gathered d (items.map VcontItem.action)).stepTid = i.stepThread d := by
    rw [stepTid_gathered, hfilter]
    show resolveStepThread d i.action.ids.1 i.action.ids.2 = i.stepThread d
    rw [resolveStepThread_of_valid d hpid, htid, VcontItem.stepThread]
  unfold DebugState.vcont
  rw [hany, hthread]
  rfl

/-- The order of the actions does not matter if one of them is a step. -/
theorem gdbStubProcess_vcont_step {n : Nat} {w : World x σ} {items sent : List (VcontItem n)}
    {rest : List Byte} (fuel : Nat) (cb : GdbCallbacks x σ) (hn : n < 2 ^ 31)
    (hconn : w.stub.connected) (hfail : w.stub.consecutiveFailures < 50)
    (hcurrent : 1 ≤ w.dbg.currentThread) (hone : items.countP VcontItem.step = 1)
    (hperm : sent.Perm items) (hlen : (itemPacket sent).length < gdbBufferSize)
    (hin : Framed (itemPacket sent) rest w.stub.input) :
    ∃ stub, Received w.stub (itemPacket sent) rest stub ∧ gdbStubProcess fuel cb w =
      .ok (1, ({ w with stub := stub }.updDbg fun d => { d with
        singleStep := true
        continueThread := stepTarget d items
        shouldStop := false
        stopThread := 0 }).actOpt cb.resume) := by
  rw [List.countP_eq_length_filter] at hone
  obtain ⟨i, hi⟩ := List.length_eq_one_iff.mp hone
  have hsent : sent.filter VcontItem.step = [i] := by
    have := hperm.filter VcontItem.step
    rw [hi] at this
    exact List.perm_singleton.mp this
  have htarget : ∀ d : DebugState x, stepTarget d items = i.stepThread d := by
    intro d
    rw [stepTarget, ← List.head?_filter, hi]
    rfl
  have hne : sent.map VcontItem.action ≠ [] := by
    intro he
    rw [List.map_eq_nil_iff.mp he] at hsent
    cases hsent
  obtain ⟨stub, hrecv, hprocess⟩ := gdbStubProcess_vcont fuel cb hconn hfail hne
    (VcontItem.accepted_action hn fun _ _ _ => by omega) hlen hin
  refine ⟨stub, hrecv, hprocess.trans ?_⟩
  simp only [World.updDbg, htarget, vcont_of_countP_eq_one hn _ hsent]

/-- The first thread of a target. -/
def firstThread (n : Nat) : ThreadNumber (n + 1) := ⟨ascii "1", by decide, by decide, Nat.succ_pos n⟩

/-- A step of the first thread and a continue of all of them. -/
def stepAndContinue : List (VcontItem 1) :=
  [⟨true, none, some ⟨true, .thread (firstThread 0), by decide⟩, nofun⟩,
    ⟨false, none, some ⟨true, .all, by decide⟩, nofun⟩]

/-- One hart, and the two actions in the other order. -/
def continueAndStepSession : Session :=
  loadedSession 1 (frame (itemPacket stepAndContinue.reverse))

theorem gdbStubProcess_continueAndStep :
    ∃ stub, Received continueAndStepSession.world.stub (itemPacket stepAndContinue.reverse) [] stub ∧
      gdbStubProcess 0 emuCallbacks continueAndStepSession.world =
        .ok (1, (World.updDbg { continueAndStepSession.world with stub := stub } fun d => { d with
          singleStep := true
          continueThread := stepTarget d stepAndContinue
          shouldStop := false
          stopThread := 0 }).actOpt emuCallbacks.resume) :=
  gdbStubProcess_vcont_step 0 emuCallbacks (by decide) rfl (by decide +kernel) (by decide +kernel)
    (by decide) (List.reverse_perm _) (by decide +kernel) (framed_frame_nil (by decide +kernel))

/-! ### Lists of continues -/

/-- The threads that may run are those that some action is for. -/
def RunsNamed {n : Nat} (items : List (VcontItem n)) (d : DebugState x) : Prop :=
  ∀ t : Int, 1 ≤ t → t ≤ n → (gdbStubShouldRunThread d t ↔ ∃ i ∈ items, i.Names t)

/-- The last of some continues decides which threads may run. -/
theorem shouldRunThread_vcont {n : Nat} (hn : n < 2 ^ 31) (d : DebugState x)
    {items : List (VcontItem n)} {last : VcontItem n}
    (hcont : ∀ i ∈ items ++ [last], i.step = false) (hnames : last.tid ≠ 0) (t : Int) :
    gdbStubShouldRunThread (d.vcont ((items ++ [last]).map VcontItem.action)) t ↔
      last.Names t := by
  have hnone : (gathered d ((items ++ [last]).map VcontItem.action)).anyStep = false := by
    rw [anyStep_gathered, List.any_map]
    exact List.any_eq_false.mpr fun i hi => Bool.not_eq_true _ ▸ hcont i hi
  have hlast : last.action.step = false :=
    hcont last (List.mem_append_right _ (List.mem_singleton_self _))
  obtain ⟨hpid, htid⟩ := VcontItem.ids_action hn last
  have hthread : (d.vcont ((items ++ [last]).map VcontItem.action)).continueThread =
      if last.tid ≤ 0 then -1 else last.tid := by
    show (if _ then _ else _ : Int) = _
    rw [hnone, if_neg Bool.false_ne_true, List.map_append, List.map_singleton,
      continueTid_gathered d _ hlast, resolveContinueThread_of_valid hpid, htid]
  have hge : -1 ≤ last.tid := by
    unfold VcontItem.tid
    cases last.thread with
    | none => exact le_rfl
    | some t =>
      show -1 ≤ t.name.tid
      cases t.name with
      | any => exact show (-1 : Int) ≤ 0 by decide
      | all => exact le_rfl
      | thread number => exact le_trans (by decide) (Int.natCast_nonneg _)
  unfold gdbStubShouldRunThread VcontItem.Names
  rw [hthread]
  by_cases hall : last.tid ≤ 0
  · rw [if_pos hall, if_pos (by decide)]
    simp only [true_iff]
    omega
  · rw [if_neg hall, if_neg (by omega), decide_eq_true_iff]
    omega

/-- After a list of continues the named threads may run, if and only if the last action names each
thread that another one names. -/
theorem runsNamed_vcont_iff {n : Nat} {w : World x σ} {items : List (VcontItem n)}
    {last : VcontItem n} {rest : List Byte} (fuel : Nat) (cb : GdbCallbacks x σ) (hn : n < 2 ^ 31)
    (hconn : w.stub.connected) (hfail : w.stub.consecutiveFailures < 50)
    (hcont : ∀ i ∈ items ++ [last], i.step = false) (hnames : ∀ i ∈ items ++ [last], i.tid ≠ 0)
    (hlen : (itemPacket (items ++ [last])).length < gdbBufferSize)
    (hin : Framed (itemPacket (items ++ [last])) rest w.stub.input) :
    ∃ (stub : GdbStub) (v : World x σ),
      Received w.stub (itemPacket (items ++ [last])) rest stub ∧ v.stub = stub ∧
      gdbStubProcess fuel cb w = .ok (1, v.actOpt cb.resume) ∧
      (RunsNamed (items ++ [last]) v.dbg ↔
        ∀ i ∈ items, ∀ t : Int, 1 ≤ t → t ≤ n → i.Names t → last.Names t) := by
  have hmem : last ∈ items ++ [last] := List.mem_append_right _ (List.mem_singleton_self _)
  have hne : (items ++ [last]).map VcontItem.action ≠ [] := by simp
  have haccepted : ∀ a ∈ (items ++ [last]).map VcontItem.action, a.Accepted w.dbg :=
    VcontItem.accepted_action hn fun i hi hstep =>
      absurd hstep (by rw [hcont i hi]; exact Bool.false_ne_true)
  obtain ⟨stub, hrecv, hprocess⟩ :=
    gdbStubProcess_vcont fuel cb hconn hfail hne haccepted hlen hin
  refine ⟨stub, World.updDbg { w with stub := stub } fun d =>
    d.vcont ((items ++ [last]).map VcontItem.action), hrecv, rfl, hprocess, ?_⟩
  have hshould := shouldRunThread_vcont hn w.dbg hcont (hnames last hmem)
  constructor
  · intro hruns i hi t hpos hle hname
    exact (hshould t).mp ((hruns t hpos hle).mpr ⟨i, List.mem_append_left _ hi, hname⟩)
  · intro hcover t hpos hle
    refine (hshould t).trans ⟨fun hname => ⟨last, hmem, hname⟩, ?_⟩
    rintro ⟨i, hi, hname⟩
    rcases List.mem_append.mp hi with hi | hi
    · exact hcover i hi t hpos hle hname
    · rwa [List.mem_singleton.mp hi] at hname

/-- A continue of a thread of two harts. -/
def continueItem (name : ThreadName 2)
    (fits : ((if true then ascii "p1." else []) ++ name.text).length < 32) : VcontItem 2 :=
  ⟨false, none, some ⟨true, name, fits⟩, nofun⟩

/-- The first thread, and then all of them. -/
def firstAndAll : List (VcontItem 2) :=
  [continueItem (.thread (firstThread 1)) (by decide)] ++ [continueItem .all (by decide)]

theorem runsNamed_firstAndAll :
    ∃ (stub : GdbStub) (v : EmuWorld),
      Received (loadedSession 2 (frame (itemPacket firstAndAll))).world.stub
        (itemPacket firstAndAll) [] stub ∧ v.stub = stub ∧
      gdbStubProcess 0 emuCallbacks (loadedSession 2 (frame (itemPacket firstAndAll))).world =
        .ok (1, v.actOpt emuCallbacks.resume) ∧ RunsNamed firstAndAll v.dbg := by
  have hin : Framed (itemPacket firstAndAll) []
      (loadedSession 2 (frame (itemPacket firstAndAll))).world.stub.input :=
    framed_frame_nil (by decide +kernel)
  obtain ⟨stub, v, hrecv, hstub, hprocess, hiff⟩ := runsNamed_vcont_iff 0 emuCallbacks (by decide)
    rfl (by decide +kernel) (by decide) (by decide) (by decide +kernel) hin
  exact ⟨stub, v, hrecv, hstub, hprocess, hiff.mpr fun _ _ _ _ _ _ => Or.inl rfl⟩

/-- The first of two threads, and then the second one. -/
def twoThreads : List (VcontItem 2) :=
  [continueItem (.thread (firstThread 1)) (by decide),
    continueItem (.thread ⟨ascii "2", by decide, by decide, by decide⟩) (by decide)]

/-- Two harts, and a packet that continues both threads by their numbers. -/
def twoThreadsSession : Session := loadedSession 2 (frame (itemPacket twoThreads))

/-- Only the second thread may run afterwards. -/
theorem not_runsNamed_twoThreadsSession :
    SessionRun false 2 [] twoThreadsSession ∧
      twoThreadsSession.handled = [ascii "vCont;c:p1.1;c:p1.2"] ∧
      (sessionStep false .quiet twoThreadsSession).isOk ∧
      (twoThreadsSession.next false .quiet).phase = .loopHead ∧
      ¬RunsNamed twoThreads (twoThreadsSession.next false .quiet).world.dbg := by
  refine ⟨sessionRun_loadedSession _ _ _, by decide +kernel, by decide +kernel, by decide +kernel,
    fun hruns => ?_⟩
  have hfirst := (hruns 1 (by decide) (by decide)).mpr
    ⟨_, List.mem_cons_self, Or.inr (by decide)⟩
  exact absurd hfirst (by decide +kernel)

end Rv32Gdb
