import Rv32Gdb.Stub.Socket
import Rv32Gdb.Equiv.Dialogue

/-!
# What reaches the client

The system call may take any part of a buffer and fail at any time.  A packet of which a call fails
is cut, and the stub goes on with the next one.  So the client receives all that the session wrote
if and only if every call takes a byte; and if a connection that has failed stays so, the packets
that it finds complete are the first that were written (`sessionFrom_delivers`).
-/

namespace Rv32Gdb

variable {κ : Type} {sysWrite : SysWrite κ} {fd fd' fd'' : Socket κ}

/-! ### What calls send -/

/-- After a call that fails, all calls fail. -/
def FailsForGood (results : List Int) : Prop :=
  results.Pairwise fun m n => m ≤ 0 → n ≤ 0

/-- Calls that return `results` have sent the bytes `sent` of those in `buf`. -/
structure Carries (buf sent : List Byte) (results : List Int) : Prop where
  sublist : sent.Sublist buf
  eq_iff : sent = buf ↔ ∀ n ∈ results, 0 < n
  taken : sent ≠ [] → ∃ n ∈ results, 0 < n
  isPrefix : FailsForGood results → sent <+: buf

theorem carries_nil : Carries [] [] [] where
  sublist := List.Sublist.refl _
  eq_iff := iff_of_true rfl fun _ hn => absurd hn List.not_mem_nil
  taken := fun h => absurd rfl h
  isPrefix := fun _ => List.prefix_rfl

theorem carries_of_pos {bytes : List Byte} {n : Int} (hn : 0 < n) : Carries bytes bytes [n] where
  sublist := List.Sublist.refl _
  eq_iff := iff_of_true rfl (List.forall_mem_singleton.mpr hn)
  taken := fun _ => ⟨n, List.mem_singleton_self n, hn⟩
  isPrefix := fun _ => List.prefix_rfl

theorem carries_of_nonpos {buf : List Byte} {n : Int} (hne : buf ≠ []) (hn : n ≤ 0) :
    Carries buf [] [n] where
  sublist := List.nil_sublist _
  eq_iff := iff_of_false (Ne.symm hne) fun h => absurd (List.forall_mem_singleton.mp h) hn.not_gt
  taken := fun h => absurd rfl h
  isPrefix := fun _ => List.nil_prefix

/-- If a call fails for good, nothing is sent afterwards. -/
theorem FailsForGood.all_or_nothing {results results' : List Int}
    (h : FailsForGood (results ++ results')) :
    (∀ n ∈ results, 0 < n) ∨ ∀ n ∈ results', n ≤ 0 := by
  by_cases hall : ∀ n ∈ results, 0 < n
  · exact Or.inl hall
  · push Not at hall
    obtain ⟨m, hm, hfail⟩ := hall
    exact Or.inr fun n hn => (List.pairwise_append.mp h).2.2 m hm n hn hfail

theorem Carries.append {buf rest sent sent' : List Byte} {results results' : List Int}
    (h : Carries buf sent results) (h' : Carries rest sent' results') :
    Carries (buf ++ rest) (sent ++ sent') (results ++ results') where
  sublist := h.sublist.append h'.sublist
  eq_iff := by
    rw [List.forall_mem_append, ← h.eq_iff, ← h'.eq_iff]
    constructor
    · intro heq
      -- nothing is missing, so nothing of the first buffer is
      have hlength := congrArg List.length heq
      rw [List.length_append, List.length_append] at hlength
      have hle := h.sublist.length_le
      have hle' := h'.sublist.length_le
      exact List.append_inj heq (by omega)
    · rintro ⟨rfl, rfl⟩
      rfl
  taken := by
    intro hne
    by_cases hsent : sent = []
    · obtain ⟨n, hn, hpos⟩ := h'.taken fun hsent' => hne (by rw [hsent, hsent', List.append_nil])
      exact ⟨n, List.mem_append_right _ hn, hpos⟩
    · obtain ⟨n, hn, hpos⟩ := h.taken hsent
      exact ⟨n, List.mem_append_left _ hn, hpos⟩
  isPrefix := by
    intro hgood
    rcases hgood.all_or_nothing with hall | hnone
    · rw [h.eq_iff.mpr hall]
      have hrest := h'.isPrefix (List.pairwise_append.mp hgood).2.1
      exact (List.prefix_append_right_inj _).mpr hrest
    · have hsent' : sent' = [] := by
        by_contra hne
        obtain ⟨n, hn, hpos⟩ := h'.taken hne
        exact absurd hpos (hnone n hn).not_gt
      rw [hsent', List.append_nil]
      exact (h.isPrefix (List.pairwise_append.mp hgood).1).trans (List.prefix_append _ _)

/-! ### What the session sends -/

/-- From `fd` to `fd'`, a buffer is written. -/
def Sends (fd : Socket κ) (buf : List Byte) (fd' : Socket κ) : Prop :=
  ∃ sent results, Carries buf sent results ∧ fd'.received = fd.received ++ sent ∧
    fd'.results = fd.results ++ results

theorem sends_nil (fd : Socket κ) : Sends fd [] fd :=
  ⟨[], [], carries_nil, (List.append_nil _).symm, (List.append_nil _).symm⟩

theorem Sends.append {buf rest : List Byte} (h : Sends fd buf fd') (h' : Sends fd' rest fd'') :
    Sends fd (buf ++ rest) fd'' := by
  obtain ⟨sent, results, hcarries, hreceived, hresults⟩ := h
  obtain ⟨sent', results', hcarries', hreceived', hresults'⟩ := h'
  refine ⟨sent ++ sent', results ++ results', hcarries.append hcarries', ?_, ?_⟩
  · rw [hreceived', hreceived, List.append_assoc]
  · rw [hresults', hresults, List.append_assoc]

theorem write_eq_iff {buf : List Byte} {n : Int} :
    fd.write sysWrite buf = (n, fd') ↔ (sysWrite fd.system buf).1 = n ∧
      fd' = ⟨fd.received ++ buf.take n.toNat, (sysWrite fd.system buf).2, fd.results ++ [n]⟩ := by
  rw [Socket.write, Prod.mk.injEq]
  refine and_congr_right ?_
  rintro rfl
  exact eq_comm

/-- A call that fails leaves all that was to be sent, also what would have come later. -/
theorem sends_of_nonpos {buf bytes : List Byte} {n : Int} (hne : bytes ≠ []) (hn : n ≤ 0)
    (hwrite : fd.write sysWrite buf = (n, fd')) : Sends fd bytes fd' := by
  obtain ⟨-, rfl⟩ := write_eq_iff.mp hwrite
  refine ⟨[], [n], carries_of_nonpos hne hn, ?_, rfl⟩
  show fd.received ++ buf.take n.toNat = _
  rw [Int.toNat_of_nonpos hn]
  rfl

theorem sends_of_pos {buf : List Byte} {n : Int} (hn : 0 < n)
    (hwrite : fd.write sysWrite buf = (n, fd')) : Sends fd (buf.take n.toNat) fd' := by
  obtain ⟨-, rfl⟩ := write_eq_iff.mp hwrite
  exact ⟨_, [n], carries_of_pos hn, rfl, rfl⟩

/-- One step of the loop sends the bytes that the call takes; the steps after it send the rest. -/
theorem sends_writeAll (sysWrite : SysWrite κ) (fd : Socket κ) (buf : List Byte) :
    Sends fd buf (writeAll sysWrite fd buf).2 := by
  induction fd, buf using writeAll.induct sysWrite with
  | case1 fd =>
    rw [writeAll, if_pos rfl]
    exact sends_nil fd
  | case2 fd buf hne n fd' hwrite hfail =>
    rw [writeAll, if_neg hne, hwrite]
    simp only [hfail, ↓reduceIte]
    exact sends_of_nonpos hne hfail hwrite
  | case3 fd buf hne n fd' hwrite htaken ih =>
    rw [writeAll, if_neg hne, hwrite]
    simp only [htaken, ↓reduceIte]
    have hsends := (sends_of_pos (not_le.mp htaken) hwrite).append ih
    rwa [List.take_append_drop] at hsends

theorem isAck_iff {buf : List Byte} : isAck buf ↔ ∃ c, buf = [c] ∧ (c = chr '+' ∨ c = chr '-') := by
  rw [isAck, Bool.or_eq_true_iff, decide_eq_true_eq, decide_eq_true_eq]
  constructor
  · rintro (rfl | rfl)
    · exact ⟨_, rfl, Or.inl rfl⟩
    · exact ⟨_, rfl, Or.inr rfl⟩
  · rintro ⟨c, rfl, rfl | rfl⟩
    · exact Or.inl rfl
    · exact Or.inr rfl

/-- An acknowledgement is one byte, for which one call is enough. -/
theorem sends_of_isAck {buf : List Byte} {n : Int} (hack : isAck buf)
    (hwrite : fd.write sysWrite buf = (n, fd')) : Sends fd buf fd' := by
  obtain ⟨c, rfl, -⟩ := isAck_iff.mp hack
  by_cases hn : n ≤ 0
  · exact sends_of_nonpos (List.cons_ne_nil _ _) hn hwrite
  · have hsends := sends_of_pos (not_le.mp hn) hwrite
    have hone : [c].length ≤ n.toNat := by
      rw [List.length_singleton]
      omega
    rwa [List.take_of_length_le hone] at hsends

theorem sends_deliver (sysWrite : SysWrite κ) (fd : Socket κ) (chunks : List (List Byte)) :
    Sends fd chunks.flatten (deliver sysWrite fd chunks) := by
  induction chunks generalizing fd with
  | nil => exact sends_nil fd
  | cons buf rest ih =>
    rw [deliver, List.flatten_cons]
    split_ifs with hack
    · cases hwrite : fd.write sysWrite buf with
      | mk n fd' =>
        simp only
        split_ifs with hfail
        · -- the session ends here
          obtain ⟨c, rfl, -⟩ := isAck_iff.mp hack
          exact sends_of_nonpos (List.cons_ne_nil _ _) hfail.le hwrite
        · exact (sends_of_isAck hack hwrite).append (ih fd')
    · exact (sends_writeAll sysWrite fd buf).append (ih _)

/-! ### Systems that do not fail -/

/-- A system whose calls take at least one byte. -/
def TakesSome (sysWrite : SysWrite κ) : Prop :=
  ∀ system buf, buf ≠ [] → 0 < (sysWrite system buf).1

theorem TakesSome.write {buf : List Byte} {n : Int} (h : TakesSome sysWrite) (hne : buf ≠ [])
    (hwrite : fd.write sysWrite buf = (n, fd')) : 0 < n ∧ fd'.results = fd.results ++ [n] := by
  obtain ⟨rfl, rfl⟩ := write_eq_iff.mp hwrite
  exact ⟨h _ _ hne, rfl⟩

theorem TakesSome.writeAll (h : TakesSome sysWrite) {buf : List Byte}
    (hfd : ∀ n ∈ fd.results, 0 < n) : ∀ n ∈ (writeAll sysWrite fd buf).2.results, 0 < n := by
  induction fd, buf using writeAll.induct sysWrite with
  | case1 fd =>
    rw [Rv32Gdb.writeAll, if_pos rfl]
    exact hfd
  | case2 fd buf hne n fd' hwrite hfail =>
    exact absurd (h.write hne hwrite).1 hfail.not_gt
  | case3 fd buf hne n fd' hwrite htaken ih =>
    rw [Rv32Gdb.writeAll, if_neg hne, hwrite]
    simp only [htaken, ↓reduceIte]
    obtain ⟨hpos, hresults⟩ := h.write hne hwrite
    refine ih ?_
    rw [hresults, List.forall_mem_append]
    exact ⟨hfd, List.forall_mem_singleton.mpr hpos⟩

theorem TakesSome.deliver (h : TakesSome sysWrite) (chunks : List (List Byte))
    (hfd : ∀ n ∈ fd.results, 0 < n) : ∀ n ∈ (deliver sysWrite fd chunks).results, 0 < n := by
  induction chunks generalizing fd with
  | nil => exact hfd
  | cons buf rest ih =>
    rw [Rv32Gdb.deliver]
    split_ifs with hack
    · obtain ⟨c, rfl, -⟩ := isAck_iff.mp hack
      cases hwrite : fd.write sysWrite [c] with
      | mk n fd' =>
        obtain ⟨hpos, hresults⟩ := h.write (List.cons_ne_nil _ _) hwrite
        simp only [hpos.not_gt, ↓reduceIte]
        refine ih ?_
        rw [hresults, List.forall_mem_append]
        exact ⟨hfd, List.forall_mem_singleton.mpr hpos⟩
    · exact ih (h.writeAll hfd)

/-! ### The session -/

/-- **No packet is torn.**  However the operating system splits the writes of a session, the client
receives bytes of it in their order, and all of them if and only if every call takes at least one.
If a connection that has failed stays so, the complete acknowledgements and packets that the client
has received are the first that the stub wrote. -/
theorem sessionFrom_delivers {debugMode : Bool} {s₀ s : Session} {packets : List (List Byte)}
    (sysWrite : SysWrite κ) (system : κ) (hlive : Live s₀.world.stub)
    (hout : s₀.world.stub.output = []) (hrun : SessionFrom debugMode s₀ packets s) :
    let fd := deliver sysWrite ⟨[], system, []⟩ s.world.stub.output
    fd.received.Sublist s.world.stub.output.flatten ∧
    (fd.received = s.world.stub.output.flatten ↔ ∀ n ∈ fd.results, 0 < n) ∧
    (TakesSome sysWrite → ∀ n ∈ fd.results, 0 < n) ∧
    (FailsForGood fd.results → ∀ chunks : List (List Byte), (∀ chunk ∈ chunks, chunk ∈ wireWords) →
      chunks.flatten <+: fd.received → chunks <+: s.world.stub.output) := by
  intro fd
  obtain ⟨-, written, hwritten, hdialogue⟩ := followsRun_of_sessionFrom hlive hrun
  rw [hout, List.nil_append] at hwritten
  have hwords : ∀ chunk ∈ s.world.stub.output, chunk ∈ wireWords := hwritten ▸ hdialogue.words
  obtain ⟨sent, results, hcarries, hreceived, hresults⟩ :=
    sends_deliver sysWrite ⟨[], system, []⟩ s.world.stub.output
  obtain rfl : fd.received = sent := hreceived
  obtain rfl : fd.results = results := hresults
  refine ⟨hcarries.sublist, hcarries.eq_iff, fun h => ?_, fun hgood chunks hchunks hfirst => ?_⟩
  · exact h.deliver _ fun _ hn => absurd hn List.not_mem_nil
  · exact isPrefixCode_wireWords.isPrefix hchunks hwords (hfirst.trans (hcarries.isPrefix hgood))

/-- A client that steps, over a system that takes one byte at a time. -/
theorem delivers_steppingClient :
    ∃ s : Session, s.world.stub.output.length = 4 ∧
      (deliver (fun system _ => (1, system)) ⟨[], (), []⟩ s.world.stub.output).received =
        s.world.stub.output.flatten := by
  obtain ⟨packets, s, hrun, -, hlen⟩ := sessionFrom_steppingClient
  obtain ⟨-, hreceived, hall, -⟩ := sessionFrom_delivers (fun system _ => (1, system)) ()
    (live_initSession _ _) rfl hrun
  exact ⟨s, hlen, hreceived.mpr (hall fun _ _ _ => Int.one_pos)⟩

end Rv32Gdb
