import Mathlib.Algebra.Group.Nat.Even
import Mathlib.Data.Nat.Cast.Basic
import Mathlib.Logic.Function.Basic
import Mathlib.Tactic.Common
import Mathlib.Tactic.IntervalCases

/-!
# A mailbox behind a spinlock

Servers share one mailbox: a work item with a flag, a counter of the jobs done, and a doorbell for
each server.  A server polls its doorbell, takes the lock, takes the item if the flag is set, counts
the job, and releases the lock.  Each of its steps makes at most one access to what is shared, and
the lock is taken by a load and a store, so that the servers may interleave between them.

* `Exclusive.step` and `Exclusive.post`: at most one server is past the lock, as long as work is
  posted only when no other server contends for it.
* `Counted.step` and `Counted.post`: no job is lost or done twice, as long as work is posted only
  when the flag is clear; `Counted.done_eq` is what this means when the servers are idle.
-/

namespace Rv32Gdb

namespace Mailbox

/-- Where a server is in its program. -/
inductive Loc
  | poll | slot | addr | load | test | clear | call | spin
  | acquire | retry | holder | take
  | ready | check | item | consume | keep | count | incr | store | total | release | back
  deriving DecidableEq, Repr

namespace Loc

/-- The next location; at `test`, `retry` and `check` it depends on whether the tested word is
zero. -/
def next (zero : Bool) : Loc → Loc
  | poll => slot
  | slot => addr
  | addr => load
  | load => test
  | test => if zero then spin else clear
  | clear => call
  | call => acquire
  | spin => poll
  | acquire => retry
  | retry => if zero then holder else acquire
  | holder => take
  | take => ready
  | ready => check
  | check => if zero then release else item
  | item => consume
  | consume => keep
  | keep => count
  | count => incr
  | incr => store
  | store => total
  | total => release
  | release => back
  | back => poll

/-- The server has taken its doorbell and not yet the lock. -/
def inWindow : Loc → Bool
  | call | acquire | retry | holder | take => true
  | _ => false

/-- The server has taken the lock and not yet released it. -/
def inSection : Loc → Bool
  | ready | check | item | consume | keep | count | incr | store | total | release => true
  | _ => false

/-- The server has taken its doorbell and not yet the work item. -/
def unconsumed : Loc → Bool
  | call | acquire | retry | holder | take | ready | check | item | consume => true
  | _ => false

/-- The server has taken the work item and not yet counted the job. -/
def inFlight : Loc → Bool
  | keep | count | incr | store => true
  | _ => false

/-- The location before one that is reached from one other only. -/
def prev : Loc → Option Loc
  | slot => poll
  | addr => slot
  | load => addr
  | test => load
  | clear => test
  | call => clear
  | spin => test
  | retry => acquire
  | holder => retry
  | take => holder
  | ready => take
  | check => ready
  | item => check
  | consume => item
  | keep => consume
  | count => keep
  | incr => count
  | store => incr
  | total => store
  | back => release
  | poll | acquire | release => none

section Next

variable {zero : Bool} {l : Loc}

theorem eq_of_next {l' p : Loc} (h : l.next zero = l') (hprev : l'.prev = some p) : l = p := by
  subst h
  cases l <;> cases zero <;> first | exact Option.some.inj hprev | cases hprev

/-- The lock is seen free, or taken. -/
theorem of_next_eq_holder (h : l.next zero = holder) : zero := by
  cases zero
  · cases l <;> cases h
  · rfl

theorem of_next_eq_clear (h : l.next zero = clear) : ¬zero := by
  cases zero
  · decide
  · cases l <;> cases h

theorem inWindow_next (h : (l.next zero).inWindow) : l = clear ∨ l.inWindow := by
  revert h
  cases l <;> cases zero <;> decide

/-- The section is entered by taking the lock. -/
theorem inSection_next (h : (l.next zero).inSection) : l = take ∨ l.inSection := by
  revert h
  cases l <;> cases zero <;> decide

theorem unconsumed_next (h : (l.next zero).unconsumed) : l = clear ∨ l.unconsumed := by
  revert h
  cases l <;> cases zero <;> decide

/-- Work is there until it is taken, as long as the flag is seen set. -/
theorem unconsumed_next_of_ne (h : l.unconsumed) (hne : l ≠ consume)
    (hcheck : l = check → zero = false) : (l.next zero).unconsumed := by
  revert h hne hcheck
  cases l <;> cases zero <;> decide

theorem inFlight_next_of_ne (h : l.inFlight) (hne : l ≠ store) : (l.next zero).inFlight := by
  revert h hne
  cases l <;> cases zero <;> decide

theorem inFlight_next (h : (l.next zero).inFlight) : l = consume ∨ l.inFlight := by
  revert h
  cases l <;> cases zero <;> decide

end Next

end Loc

/-- A server: the doorbell or the item that it has loaded, the lock as it has seen it or its own tag,
the flag or the counter that it has loaded, and the last item and count that it has noted. -/
structure Server (α : Type) where
  loc : Loc
  word : α
  guard : α
  count : α
  item : α
  total : α

/-- The word that a server tests. -/
def Server.tested {α : Type} (w : Server α) : α :=
  match w.loc with
  | .test => w.word
  | .retry => w.guard
  | _ => w.count

/-- The shared words and the servers. -/
structure State (α : Type) where
  lock : α
  item : α
  ready : α
  done : α
  bell : Nat → α
  server : Nat → Server α

/-- What a server reads and writes: the shared words, its doorbell and its own state. -/
structure View (α : Type) where
  lock : α
  item : α
  ready : α
  done : α
  bell : α
  server : Server α

namespace View

variable {α : Type} [AddCommMonoidWithOne α] [DecidableEq α]

/-- The next state of the server, which writes `tag` to the lock. -/
def next (tag : α) (v : View α) : Server α :=
  let w := v.server
  { loc := w.loc.next (w.tested = 0)
    word := if w.loc = .load then v.bell else if w.loc = .item then v.item else w.word
    guard := if w.loc = .acquire then v.lock else if w.loc = .holder then tag else w.guard
    count := if w.loc = .ready then v.ready else if w.loc = .count then v.done
      else if w.loc = .incr then w.count + 1 else w.count
    item := if w.loc = .keep then w.word else w.item
    total := if w.loc = .total then w.count else w.total }

/-- The next step of the server: it moves on, and clears its doorbell, takes or releases the lock,
clears the flag or stores the counter. -/
def step (tag : α) (v : View α) : View α :=
  { v with
    lock := if v.server.loc = .take then v.server.guard
      else if v.server.loc = .release then 0 else v.lock
    ready := if v.server.loc = .consume then 0 else v.ready
    done := if v.server.loc = .store then v.server.count else v.done
    bell := if v.server.loc = .clear then 0 else v.bell
    server := v.next tag }

end View

namespace State

variable {α : Type}

/-- Work is posted to server `h`. -/
def post [One α] (h : Nat) (item : α) (s : State α) : State α :=
  { s with item := item, ready := 1, bell := Function.update s.bell h 1 }

/-- A server contends for the lock, or will when it polls its doorbell. -/
def Contends [Zero α] (s : State α) (h : Nat) : Prop :=
  s.bell h ≠ 0 ∨ (s.server h).loc.inWindow

/-- A server has work to take. -/
def Owns [Zero α] (s : State α) (h : Nat) : Prop := s.bell h ≠ 0 ∨ (s.server h).loc.unconsumed

/-- What server `h` sees. -/
def view (s : State α) (h : Nat) : View α where
  lock := s.lock
  item := s.item
  ready := s.ready
  done := s.done
  bell := s.bell h
  server := s.server h

variable [AddCommMonoidWithOne α] [DecidableEq α]

/-- The next step of server `h`, whose tag is `tag h`. -/
def step (tag : Nat → α) (h : Nat) (s : State α) : State α :=
  let v := (s.view h).step (tag h)
  { lock := v.lock
    item := v.item
    ready := v.ready
    done := v.done
    bell := Function.update s.bell h v.bell
    server := Function.update s.server h v.server }

/-! ### Steps -/

variable {tag : Nat → α} {s : State α} {h k : Nat}

@[simp]
theorem server_step_self : (s.step tag h).server h = (s.view h).next (tag h) :=
  Function.update_self _ _ _

theorem view_step_self : (s.step tag h).view h = (s.view h).step (tag h) := by
  have hbell : (s.step tag h).bell h = ((s.view h).step (tag h)).bell := Function.update_self _ _ _
  rw [view, server_step_self, hbell]
  rfl

theorem lock_step (tag : Nat → α) (h : Nat) :
    (s.step tag h).lock = if (s.server h).loc = .take then (s.server h).guard
      else if (s.server h).loc = .release then 0 else s.lock := rfl

theorem ready_step (tag : Nat → α) (h : Nat) :
    (s.step tag h).ready = if (s.server h).loc = .consume then 0 else s.ready := rfl

theorem done_step (tag : Nat → α) (h : Nat) : (s.step tag h).done =
    if (s.server h).loc = .store then (s.server h).count else s.done := rfl

/-- The other servers do not move. -/
theorem server_step_of_ne (hk : k ≠ h) : (s.step tag h).server k = s.server k :=
  Function.update_of_ne hk _ _

/-- Nor do their doorbells. -/
theorem bell_step_of_ne (hk : k ≠ h) : (s.step tag h).bell k = s.bell k :=
  Function.update_of_ne hk _ _

@[simp]
theorem bell_step_self :
    (s.step tag h).bell h = if (s.server h).loc = .clear then 0 else s.bell h :=
  Function.update_self _ _ _

/-- Any number of steps of one server. -/
theorem view_iterate_step (tag : Nat → α) (h k : Nat) (s : State α) :
    ((step tag h)^[k] s).view h = (View.step (tag h))^[k] (s.view h) := by
  induction k generalizing s with
  | zero => rfl
  | succ k ih => rw [Function.iterate_succ_apply, ih, view_step_self, Function.iterate_succ_apply]

theorem bell_iterate_step_of_ne (tag : Nat → α) {h j : Nat} (hj : j ≠ h) (k : Nat) (s : State α) :
    ((step tag h)^[k] s).bell j = s.bell j := by
  induction k generalizing s with
  | zero => rfl
  | succ k ih => rw [Function.iterate_succ_apply, ih, bell_step_of_ne hj]

theorem contends_step_of_ne (hk : k ≠ h) : (s.step tag h).Contends k ↔ s.Contends k := by
  rw [Contends, Contends, server_step_of_ne hk, bell_step_of_ne hk]

theorem owns_step_of_ne (hk : k ≠ h) : (s.step tag h).Owns k ↔ s.Owns k := by
  rw [Owns, Owns, server_step_of_ne hk, bell_step_of_ne hk]

omit [DecidableEq α] in
theorem contends_post_of_ne {item : α} (hk : k ≠ h) :
    (s.post h item).Contends k ↔ s.Contends k := by
  have hbell : (s.post h item).bell k = s.bell k := Function.update_of_ne hk _ _
  rw [Contends, Contends, hbell]
  rfl

omit [DecidableEq α] in
theorem owns_post_of_ne {item : α} (hk : k ≠ h) : (s.post h item).Owns k ↔ s.Owns k := by
  have hbell : (s.post h item).bell k = s.bell k := Function.update_of_ne hk _ _
  rw [Owns, Owns, hbell]
  rfl

/-- A server takes its doorbell before it stops ringing. -/
theorem contends_of_step (hseen : (s.server h).loc = .clear → s.bell h ≠ 0)
    (hcon : (s.step tag h).Contends h) : s.Contends h := by
  unfold Contends at hcon
  rw [server_step_self, bell_step_self] at hcon
  rcases hcon with hring | hin
  · split_ifs at hring with hclear
    · exact Or.inl (hseen hclear)
    · exact Or.inl hring
  · rcases Loc.inWindow_next hin with hclear | hwin
    · exact Or.inl (hseen hclear)
    · exact Or.inr hwin

end State

/-! ### One job -/

namespace View

variable {α : Type} [AddCommMonoidWithOne α] [DecidableEq α] {tag : α} {v v₁ v₂ : View α}

/-- The server polls, and its doorbell does not ring. -/
def Idle (v : View α) : Prop := (v.server.loc = .poll ∨ v.server.loc = .spin) ∧ v.bell = 0

/-- After each of `k` steps the server is not idle. -/
structure Busy (tag : α) (k : Nat) (v v' : View α) : Prop where
  iterate_step : (step tag)^[k] v = v'
  not_idle : ∀ i < k, ¬((step tag)^[i + 1] v).Idle

theorem Busy.trans {k₁ k₂ : Nat} (h₁ : Busy tag k₁ v v₁) (h₂ : Busy tag k₂ v₁ v₂) :
    Busy tag (k₂ + k₁) v v₂ where
  iterate_step := by rw [Function.iterate_add_apply, h₁.iterate_step, h₂.iterate_step]
  not_idle i hi := by
    by_cases hlt : i < k₁
    · exact h₁.not_idle i hlt
    · obtain ⟨j, rfl⟩ := Nat.exists_eq_add_of_le (not_lt.mp hlt)
      rw [show k₁ + j + 1 = j + 1 + k₁ by omega, Function.iterate_add_apply, h₁.iterate_step]
      exact h₂.not_idle j (by omega)

/-- The doorbell rings. -/
theorem busy_of_poll (hloc : v.server.loc = .poll) (hbell : v.bell ≠ 0) :
    Busy tag 7 v
      { v with bell := 0, server := { v.server with loc := .acquire, word := v.bell } } where
  iterate_step := by simp [step, next, Loc.next, Server.tested, hloc, hbell]
  not_idle i hi := by
    interval_cases i <;> simp [step, next, Loc.next, Server.tested, hloc, hbell, Idle]

/-- The lock is free. -/
theorem busy_of_acquire (hloc : v.server.loc = .acquire) (hlock : v.lock = 0) :
    Busy tag 4 v
      { v with lock := tag, server := { v.server with loc := .ready, guard := tag } } where
  iterate_step := by simp [step, next, Loc.next, Server.tested, hloc, hlock]
  not_idle i hi := by
    interval_cases i <;> simp [step, next, Loc.next, Server.tested, hloc, hlock, Idle]

/-- The flag is set. -/
theorem busy_of_ready (hloc : v.server.loc = .ready) (hready : v.ready ≠ 0) :
    Busy tag 10 v
      { v with
        lock := 0
        ready := 0
        done := v.done + 1
        server := ⟨.back, v.item, v.server.guard, v.done + 1, v.item, v.done + 1⟩ } where
  iterate_step := by simp [step, next, Loc.next, Server.tested, hloc, hready]
  not_idle i hi := by
    interval_cases i <;> simp [step, next, Loc.next, Server.tested, hloc, hready, Idle]

/-- On the way to the next poll. -/
theorem busy_of_spin (hloc : v.server.loc = .spin) (hbell : v.bell ≠ 0) :
    Busy tag 1 v { v with server := { v.server with loc := .poll } } where
  iterate_step := by simp [step, next, Loc.next, hloc]
  not_idle i hi := by
    interval_cases i
    simp [step, next, Loc.next, hloc, hbell, Idle]

/-- The view of a server after its job. -/
def served (tag : α) (v : View α) : View α :=
  { v with
    ready := 0
    done := v.done + 1
    bell := 0
    server := ⟨.poll, v.item, tag, v.done + 1, v.item, v.done + 1⟩ }

omit [DecidableEq α] in
theorem idle_served : (v.served tag).Idle := ⟨Or.inl rfl, rfl⟩

theorem job_of_poll (hloc : v.server.loc = .poll) (hbell : v.bell ≠ 0) (hlock : v.lock = 0)
    (hready : v.ready ≠ 0) : ∃ v', Busy tag 21 v v' ∧ v'.step tag = v.served tag := by
  have hrung : Busy tag 7 v _ := busy_of_poll hloc hbell
  have htaken := hrung.trans (busy_of_acquire rfl hlock)
  refine ⟨_, htaken.trans (busy_of_ready rfl hready), ?_⟩
  simp [step, next, served, Loc.next, hlock]

/-- A server whose doorbell rings does the job and is idle again, when it finds the lock free and
the flag set. -/
theorem job (hloc : v.server.loc = .poll ∨ v.server.loc = .spin) (hbell : v.bell ≠ 0)
    (hlock : v.lock = 0) (hready : v.ready ≠ 0) :
    ∃ k ≤ 22, ∃ v', Busy tag k v v' ∧ v'.step tag = v.served tag := by
  rcases hloc with hpoll | hspin
  · have hjob : ∃ v', Busy tag 21 v v' ∧ v'.step tag = v.served tag :=
      job_of_poll hpoll hbell hlock hready
    obtain ⟨v', hbusy, hlast⟩ := hjob
    exact ⟨21, by decide, v', hbusy, hlast⟩
  · have hstart : Busy tag 1 v _ := busy_of_spin hspin hbell
    have hjob : ∃ v', Busy tag 21 { v with server := { v.server with loc := .poll } } v' ∧
        v'.step tag = v.served tag := job_of_poll rfl hbell hlock hready
    obtain ⟨v', hbusy, hlast⟩ := hjob
    exact ⟨22, by decide, v', hstart.trans hbusy, hlast⟩

end View

namespace State

variable {α : Type} [Zero α]

/-- Nothing is posted and every server polls. -/
def start : State α where
  lock := 0
  item := 0
  ready := 0
  done := 0
  bell _ := 0
  server _ := ⟨.poll, 0, 0, 0, 0, 0⟩

theorem not_contends_start (h : Nat) : ¬(start : State α).Contends h := by
  rintro (hring | hwin)
  · exact hring rfl
  · cases hwin

theorem not_owns_start (h : Nat) : ¬(start : State α).Owns h := by
  rintro (hring | hun)
  · exact hring rfl
  · cases hun

end State

/-! ### Mutual exclusion -/

section Exclusive

variable {α : Type} [AddCommMonoidWithOne α] [DecidableEq α]

/-- The server has seen the lock free, and has not yet taken it. -/
def Server.sawFree (w : Server α) : Prop :=
  w.loc = .retry ∧ w.guard = 0 ∨ w.loc = .holder ∨ w.loc = .take

/-- At most one server contends, and at most one is past the lock. -/
structure Exclusive (tag : Nat → α) (s : State α) : Prop where
  contends : ∀ h k, s.Contends h → s.Contends k → h = k
  inSection : ∀ h k, (s.server h).loc.inSection → (s.server k).loc.inSection → h = k
  locked : ∀ h, (s.server h).loc.inSection → s.lock ≠ 0
  free : ∀ h, (s.server h).sawFree → s.lock = 0
  tagged : ∀ h, (s.server h).loc = .take → (s.server h).guard = tag h
  seen : ∀ h, (s.server h).loc = .test ∧ (s.server h).word ≠ 0 ∨ (s.server h).loc = .clear →
    s.bell h ≠ 0

namespace Exclusive

variable {tag : Nat → α} {s : State α} {h k : Nat}

omit [DecidableEq α] in
/-- Who sees the lock free contends for it. -/
theorem contends_of_sawFree (hfree : (s.server h).sawFree) : s.Contends h := by
  refine Or.inr ?_
  rcases hfree with ⟨hloc, -⟩ | hloc | hloc <;> rw [hloc] <;> rfl

omit [DecidableEq α] in
theorem start (tag : Nat → α) : Exclusive tag State.start where
  contends h _ hcon := absurd hcon (State.not_contends_start h)
  inSection _ _ hin := by cases hin
  locked _ hin := by cases hin
  free _ _ := rfl
  tagged _ hloc := by cases hloc
  seen _ hloc := by rcases hloc with ⟨hloc, -⟩ | hloc <;> cases hloc

theorem contends_step (hs : Exclusive tag s) (hcon : (s.step tag h).Contends k) : s.Contends k := by
  by_cases hk : k = h
  · subst hk
    exact State.contends_of_step (fun hclear => hs.seen k (Or.inr hclear)) hcon
  · exact (State.contends_step_of_ne hk).mp hcon

omit [DecidableEq α] in
/-- When a server takes the lock, no other one is past it. -/
theorem not_inSection_of_take (hs : Exclusive tag s) (htake : (s.server h).loc = .take) :
    ¬(s.server k).loc.inSection :=
  fun hin => hs.locked k hin (hs.free h (Or.inr (Or.inr htake)))

theorem inSection_step (hin : ((s.step tag h).server k).loc.inSection) :
    k = h ∧ (s.server h).loc = .take ∨ (s.server k).loc.inSection := by
  by_cases hk : k = h
  · subst hk
    rw [State.server_step_self] at hin
    exact (Loc.inSection_next hin).imp_left fun htake => ⟨rfl, htake⟩
  · rw [State.server_step_of_ne hk] at hin
    exact Or.inr hin

/-- The one that sees the lock free: it has loaded the lock, or has seen it free before. -/
theorem sawFree_step (hs : Exclusive tag s) (hfree : ((s.step tag h).server k).sawFree) :
    s.lock = 0 ∧ (k = h → (s.server h).loc ≠ .take) := by
  by_cases hk : k = h
  · subst hk
    rw [State.server_step_self] at hfree
    rcases hfree with ⟨hretry, hguard⟩ | hholder | htake
    · have hloc : (s.server k).loc = .acquire := Loc.eq_of_next hretry rfl
      have hlock : (if (s.server k).loc = .acquire then s.lock
        else if (s.server k).loc = .holder then tag k else (s.server k).guard) = 0 := hguard
      rw [if_pos hloc] at hlock
      exact ⟨hlock, fun _ => by rw [hloc]; decide⟩
    · have hloc : (s.server k).loc = .retry := Loc.eq_of_next hholder rfl
      have htested : decide ((s.server k).tested = 0) := Loc.of_next_eq_holder hholder
      rw [decide_eq_true_iff, Server.tested, hloc] at htested
      exact ⟨hs.free k (Or.inl ⟨hloc, htested⟩), fun _ => by rw [hloc]; decide⟩
    · have hloc : (s.server k).loc = .holder := Loc.eq_of_next htake rfl
      exact ⟨hs.free k (Or.inr (Or.inl hloc)), fun _ => by rw [hloc]; decide⟩
  · rw [State.server_step_of_ne hk] at hfree
    exact ⟨hs.free k hfree, fun heq => absurd heq hk⟩

theorem step {h : Nat} (htag : tag h ≠ 0) (hs : Exclusive tag s) :
    Exclusive tag (s.step tag h) where
  contends j k hj hk := hs.contends j k (hs.contends_step hj) (hs.contends_step hk)
  inSection j k hj hk := by
    rcases inSection_step hj with ⟨rfl, htake⟩ | hj'
    · rcases inSection_step hk with ⟨rfl, -⟩ | hk'
      · rfl
      · exact absurd hk' (hs.not_inSection_of_take htake)
    · rcases inSection_step hk with ⟨rfl, htake⟩ | hk'
      · exact absurd hj' (hs.not_inSection_of_take htake)
      · exact hs.inSection j k hj' hk'
  locked k hk := by
    rw [State.lock_step]
    split_ifs with htake hrelease
    · rw [hs.tagged h htake]
      exact htag
    · -- the one that releases the lock is the one that was past it
      rcases inSection_step hk with ⟨rfl, htake'⟩ | hk'
      · exact absurd htake' htake
      · have hkh : k = h := hs.inSection k h hk' (by rw [hrelease]; rfl)
        have hloc : ((s.step tag h).server h).loc = .back := by
          rw [State.server_step_self]
          show (s.server h).loc.next _ = .back
          rw [hrelease]
          rfl
        rw [hkh, hloc] at hk
        cases hk
    · rcases inSection_step hk with ⟨rfl, htake'⟩ | hk'
      · exact absurd htake' htake
      · exact hs.locked k hk'
  free k hk := by
    obtain ⟨hlock, hne⟩ := hs.sawFree_step hk
    rw [State.lock_step]
    split_ifs with htake hrelease
    · -- the one that takes the lock contends, and so does the one that sees it free
      have hkh : k ≠ h := fun heq => hne heq htake
      rw [State.server_step_of_ne hkh] at hk
      exact absurd (hs.contends k h (contends_of_sawFree hk)
        (contends_of_sawFree (Or.inr (Or.inr htake)))) hkh
    · rfl
    · exact hlock
  tagged k hk := by
    by_cases hkh : k = h
    · subst hkh
      rw [State.server_step_self] at hk ⊢
      have hloc : (s.server k).loc = .holder := Loc.eq_of_next hk rfl
      show (if (s.server k).loc = .acquire then s.lock
        else if (s.server k).loc = .holder then tag k else (s.server k).guard) = tag k
      rw [if_neg (by rw [hloc]; decide), if_pos hloc]
    · rw [State.server_step_of_ne hkh] at hk ⊢
      exact hs.tagged k hk
  seen k hk := by
    by_cases hkh : k = h
    · subst hkh
      rw [State.server_step_self] at hk
      rw [State.bell_step_self]
      rcases hk with ⟨htest, hword⟩ | hclear
      · have hloc : (s.server k).loc = .load := Loc.eq_of_next htest rfl
        have hbell : (if (s.server k).loc = .load then s.bell k
          else if (s.server k).loc = .item then s.item else (s.server k).word) ≠ 0 := hword
        rw [if_pos hloc] at hbell
        rw [if_neg (by rw [hloc]; decide)]
        exact hbell
      · have hloc : (s.server k).loc = .test := Loc.eq_of_next hclear rfl
        have htested : ¬decide ((s.server k).tested = 0) := Loc.of_next_eq_clear hclear
        rw [decide_eq_true_iff, Server.tested, hloc] at htested
        rw [if_neg (by rw [hloc]; decide)]
        exact hs.seen k (Or.inl ⟨hloc, htested⟩)
    · rw [State.server_step_of_ne hkh] at hk
      rw [State.bell_step_of_ne hkh]
      exact hs.seen k hk

omit [DecidableEq α] in
/-- Work is posted to a server when no other one contends. -/
theorem post [NeZero (1 : α)] (hs : Exclusive tag s) {h : Nat} (hnone : ∀ k, k ≠ h → ¬s.Contends k)
    (item : α) : Exclusive tag (s.post h item) where
  contends j k hj hk := by
    have hbell : ∀ k, k ≠ h → ¬(s.post h item).Contends k :=
      fun k hk => mt (State.contends_post_of_ne hk).mp (hnone k hk)
    have hjh : j = h := by
      by_contra hne
      exact hbell j hne hj
    have hkh : k = h := by
      by_contra hne
      exact hbell k hne hk
    rw [hjh, hkh]
  inSection := hs.inSection
  locked := hs.locked
  free := hs.free
  tagged := hs.tagged
  seen k hk := by
    show Function.update s.bell h 1 k ≠ 0
    rw [Function.update_apply]
    split_ifs
    · exact one_ne_zero
    · exact hs.seen k hk

end Exclusive

end Exclusive

/-! ### Counting jobs -/

section Counted

variable {α : Type} [AddCommMonoidWithOne α] [DecidableEq α]

/-- The jobs that are posted and not taken. -/
def State.pending (s : State α) : α := if s.ready = 0 then 0 else 1

/-- Each of the `posts` jobs is counted, is being counted, or is pending. -/
structure Counted (tag : Nat → α) (posts : Nat) (s : State α) : Prop extends
    Exclusive tag s where
  owns : ∀ h k, s.Owns h → s.Owns k → h = k
  ready_iff : s.ready ≠ 0 ↔ ∃ h, s.Owns h
  quiet : ∀ h, (s.server h).loc.unconsumed → s.bell h = 0
  checked : ∀ h, (s.server h).loc = .check → (s.server h).count ≠ 0
  incr : ∀ h, (s.server h).loc = .incr → (s.server h).count = s.done
  store : ∀ h, (s.server h).loc = .store → (s.server h).count = s.done + 1
  posts_of_inFlight : ∀ h, (s.server h).loc.inFlight → (posts : α) = s.done + s.pending + 1
  posts_of_not_inFlight : (∀ h, ¬(s.server h).loc.inFlight) → (posts : α) = s.done + s.pending

namespace Counted

variable {tag : Nat → α} {posts : Nat} {s : State α} {h k : Nat}

theorem start (tag : Nat → α) : Counted tag 0 State.start where
  toExclusive := Exclusive.start tag
  owns h _ hown := absurd hown (State.not_owns_start h)
  ready_iff := iff_of_false (fun hzero => hzero rfl) fun ⟨h, hown⟩ => State.not_owns_start h hown
  quiet _ hun := by cases hun
  checked _ hloc := by cases hloc
  incr _ hloc := by cases hloc
  store _ hloc := by cases hloc
  posts_of_inFlight _ hfly := by cases hfly
  posts_of_not_inFlight _ := by
    have hpending : (State.start : State α).pending = 0 := if_pos rfl
    rw [hpending, Nat.cast_zero, add_zero]
    rfl

/-- When the servers are idle, all jobs are done. -/
theorem done_eq (hs : Counted tag posts s) (hbell : ∀ h, s.bell h = 0)
    (hloc : ∀ h, ¬(s.server h).loc.unconsumed ∧ ¬(s.server h).loc.inFlight) : s.done = posts := by
  have hnone : s.ready = 0 := by
    by_contra hready
    obtain ⟨h, hown⟩ := hs.ready_iff.mp hready
    rcases hown with hring | hun
    · exact hring (hbell h)
    · exact (hloc h).1 hun
  rw [hs.posts_of_not_inFlight fun h => (hloc h).2, State.pending, if_pos hnone, add_zero]

/-- A server in the section takes part in the count alone. -/
theorem eq_of_inSection (hs : Counted tag posts s) (hh : (s.server h).loc.inSection)
    (hk : (s.server k).loc.inSection) : k = h := hs.inSection k h hk hh

theorem inSection_of_inFlight {l : Loc} (h : l.inFlight) : l.inSection := by
  cases l <;> first | rfl | cases h

/-- No work comes from nowhere. -/
theorem owns_of_step (hs : Counted tag posts s) (hown : (s.step tag h).Owns k) : s.Owns k := by
  by_cases hk : k = h
  · subst hk
    unfold State.Owns at hown
    rw [State.server_step_self, State.bell_step_self] at hown
    rcases hown with hring | hun
    · split_ifs at hring with hclear
      · exact Or.inl (hs.seen k (Or.inr hclear))
      · exact Or.inl hring
    · rcases Loc.unconsumed_next hun with hclear | hun'
      · exact Or.inl (hs.seen k (Or.inr hclear))
      · exact Or.inr hun'
  · exact (State.owns_step_of_ne hk).mp hown

/-- Work is there until it is taken. -/
theorem owns_step (hs : Counted tag posts s) (hne : (s.server h).loc ≠ .consume)
    (hown : s.Owns k) : (s.step tag h).Owns k := by
  by_cases hk : k = h
  · subst hk
    unfold State.Owns
    rw [State.server_step_self, State.bell_step_self]
    rcases hown with hring | hun
    · split_ifs with hclear
      · refine Or.inr ?_
        show ((s.server k).loc.next _).unconsumed
        rw [hclear]
        rfl
      · exact Or.inl hring
    · refine Or.inr (Loc.unconsumed_next_of_ne hun hne fun hcheck => ?_)
      rw [Server.tested, hcheck]
      exact decide_eq_false (hs.checked k hcheck)
  · exact (State.owns_step_of_ne hk).mpr hown

/-- After the work is taken there is none. -/
theorem not_owns_of_consume (hs : Counted tag posts s) (hloc : (s.server h).loc = .consume) :
    ¬(s.step tag h).Owns k := by
  intro hown
  have hun : (s.server h).loc.unconsumed := by rw [hloc]; rfl
  obtain rfl := hs.owns k h (hs.owns_of_step hown) (Or.inr hun)
  rcases hown with hring | hun'
  · rw [State.bell_step_self, hloc, if_neg (by decide)] at hring
    exact hring (hs.quiet k hun)
  · rw [State.server_step_self] at hun'
    have hkeep : ((s.server k).loc.next (decide ((s.server k).tested = 0))).unconsumed := hun'
    rw [hloc] at hkeep
    cases hkeep

/-- A job that is being counted has been before, or has just been taken. -/
theorem inFlight_step (hfly : ((s.step tag h).server k).loc.inFlight) :
    k = h ∧ (s.server h).loc = .consume ∨ (s.server k).loc.inFlight := by
  by_cases hk : k = h
  · subst hk
    rw [State.server_step_self] at hfly
    exact (Loc.inFlight_next hfly).imp_left fun hconsume => ⟨rfl, hconsume⟩
  · rw [State.server_step_of_ne hk] at hfly
    exact Or.inr hfly

/-- A job that is being counted goes on being counted until the counter is stored. -/
theorem inFlight_step_self (hfly : (s.server h).loc.inFlight) (hne : (s.server h).loc ≠ .store) :
    ((s.step tag h).server h).loc.inFlight := by
  rw [State.server_step_self]
  exact Loc.inFlight_next_of_ne hfly hne

theorem step {h : Nat} (htag : tag h ≠ 0) (hs : Counted tag posts s) :
    Counted tag posts (s.step tag h) := by
  have hready := State.ready_step (s := s) tag h
  have hdone := State.done_step (s := s) tag h
  have hcount : ((s.step tag h).server h).count = if (s.server h).loc = .ready then s.ready
      else if (s.server h).loc = .count then s.done
      else if (s.server h).loc = .incr then (s.server h).count + 1 else (s.server h).count := by
    rw [State.server_step_self]
    rfl
  have hpending : (s.server h).loc ≠ .consume → (s.step tag h).pending = s.pending := by
    intro hne
    rw [State.pending, hready, if_neg hne, State.pending]
  have hfull : s.Owns h → s.pending = 1 := by
    intro hown
    rw [State.pending, if_neg (hs.ready_iff.mpr ⟨h, hown⟩)]
  have hprev : ∀ {l p : Loc}, ((s.step tag h).server h).loc = l → l.prev = some p →
      (s.server h).loc = p := by
    intro l p hl hp
    rw [State.server_step_self] at hl
    exact Loc.eq_of_next hl hp
  -- another server that counts keeps this one out of the section
  have hother : ∀ k, k ≠ h → (s.server k).loc.inSection → ¬(s.server h).loc.inSection :=
    fun k hk hin hin' => hk (hs.eq_of_inSection hin' hin)
  refine ⟨hs.toExclusive.step htag, ?_, ?_, ?_, ?_, ?_, ?_, ?_, ?_⟩
  · -- at most one server owns the work
    intro j k hj hk
    exact hs.owns j k (hs.owns_of_step hj) (hs.owns_of_step hk)
  · -- the work is ready as long as a server owns it
    rw [hready]
    split_ifs with hloc
    · refine iff_of_false (fun hzero => hzero rfl) ?_
      rintro ⟨k, hown⟩
      exact hs.not_owns_of_consume hloc hown
    · rw [hs.ready_iff]
      constructor
      · rintro ⟨k, hown⟩
        exact ⟨k, hs.owns_step hloc hown⟩
      · rintro ⟨k, hown⟩
        exact ⟨k, hs.owns_of_step hown⟩
  · intro k hk
    by_cases hkh : k = h
    · subst hkh
      rw [State.server_step_self] at hk
      rw [State.bell_step_self]
      split_ifs with hclear
      · rfl
      · exact hs.quiet k ((Loc.unconsumed_next hk).resolve_left hclear)
    · rw [State.server_step_of_ne hkh] at hk
      rw [State.bell_step_of_ne hkh]
      exact hs.quiet k hk
  · intro k hk
    by_cases hkh : k = h
    · subst hkh
      have hloc := hprev hk rfl
      rw [hcount, if_pos hloc]
      exact hs.ready_iff.mpr ⟨k, Or.inr (by rw [hloc]; rfl)⟩
    · rw [State.server_step_of_ne hkh] at hk ⊢
      exact hs.checked k hk
  · -- the counter that was read is still the current one
    intro k hk
    rw [hdone]
    by_cases hkh : k = h
    · subst hkh
      have hloc := hprev hk rfl
      rw [hcount, hloc, if_neg (by decide), if_pos rfl, if_neg (by decide)]
    · rw [State.server_step_of_ne hkh] at hk ⊢
      have hstore : (s.server h).loc ≠ .store :=
        fun hloc => hother k hkh (by rw [hk]; rfl) (by rw [hloc]; rfl)
      rw [if_neg hstore]
      exact hs.incr k hk
  · -- what is about to be stored is one more
    intro k hk
    rw [hdone]
    by_cases hkh : k = h
    · subst hkh
      have hloc := hprev hk rfl
      rw [hcount, hloc, if_neg (by decide), if_neg (by decide), if_pos rfl, if_neg (by decide),
        hs.incr k hloc]
    · rw [State.server_step_of_ne hkh] at hk ⊢
      have hstore : (s.server h).loc ≠ .store :=
        fun hloc => hother k hkh (by rw [hk]; rfl) (by rw [hloc]; rfl)
      rw [if_neg hstore]
      exact hs.store k hk
  · intro k hk
    rcases inFlight_step hk with ⟨rfl, hloc⟩ | hfly
    · -- the job is taken: it was pending
      have hnone : ∀ j, ¬(s.server j).loc.inFlight := by
        intro j hj
        have hjk := hs.eq_of_inSection (h := k) (by rw [hloc]; rfl) (inSection_of_inFlight hj)
        rw [hjk, hloc] at hj
        cases hj
      have hzero : (s.step tag k).pending = 0 := by
        rw [State.pending, hready, if_pos hloc, if_pos rfl]
      rw [hs.posts_of_not_inFlight hnone, hdone, if_neg (by rw [hloc]; decide), hzero, add_zero,
        hfull (Or.inr (by rw [hloc]; rfl))]
    · have hne : (s.server h).loc ≠ .store ∧ (s.server h).loc ≠ .consume := by
        by_cases hkh : k = h
        · subst hkh
          refine ⟨fun hloc => ?_, fun hloc => ?_⟩
          · have htotal : ((s.server k).loc.next (decide ((s.server k).tested = 0))).inFlight := by
              rwa [State.server_step_self] at hk
            rw [hloc] at htotal
            cases htotal
          · rw [hloc] at hfly
            cases hfly
        · have hout := hother k hkh (inSection_of_inFlight hfly)
          exact ⟨fun hloc => hout (by rw [hloc]; rfl), fun hloc => hout (by rw [hloc]; rfl)⟩
      rw [hs.posts_of_inFlight k hfly, hdone, if_neg hne.1, hpending hne.2]
  · intro hnone
    by_cases hstore : (s.server h).loc = .store
    · -- the counter is stored: the job is done
      rw [hs.posts_of_inFlight h (by rw [hstore]; rfl), hdone, if_pos hstore, hs.store h hstore,
        hpending (by rw [hstore]; decide), add_right_comm]
    · have hconsume : (s.server h).loc ≠ .consume := by
        intro hloc
        refine hnone h ?_
        rw [State.server_step_self]
        show ((s.server h).loc.next _).inFlight
        rw [hloc]
        rfl
      have hbefore : ∀ k, ¬(s.server k).loc.inFlight := by
        intro k hfly
        by_cases hkh : k = h
        · subst hkh
          exact hnone k (inFlight_step_self hfly hstore)
        · refine hnone k ?_
          rwa [State.server_step_of_ne hkh]
      rw [hs.posts_of_not_inFlight hbefore, hdone, if_neg hstore, hpending hconsume]

/-- Work is posted when there is none. -/
theorem post [NeZero (1 : α)] (hs : Counted tag posts s) (hready : s.ready = 0) (h : Nat)
    (item : α) : Counted tag (posts + 1) (s.post h item) := by
  have hnone : ∀ k, ¬s.Owns k := fun k hown => hs.ready_iff.mpr ⟨k, hown⟩ hready
  have hcontends : ∀ k, ¬s.Contends k := by
    intro k hcon
    refine hnone k ?_
    rcases hcon with hring | hwin
    · exact Or.inl hring
    · refine Or.inr ?_
      cases hloc : (s.server k).loc <;> simp_all [Loc.inWindow, Loc.unconsumed]
  have hpending : (s.post h item).pending = 1 := if_neg one_ne_zero
  have hempty : s.pending = 0 := if_pos hready
  have honly : ∀ k, (s.post h item).Owns k → k = h := by
    intro k hown
    by_contra hk
    exact hnone k ((State.owns_post_of_ne hk).mp hown)
  refine ⟨hs.toExclusive.post (fun k _ => hcontends k) item, ?_, ?_, ?_, hs.checked, hs.incr,
    hs.store, ?_, ?_⟩
  · intro j k hj hk
    rw [honly j hj, honly k hk]
  · refine iff_of_true one_ne_zero ⟨h, Or.inl ?_⟩
    show Function.update s.bell h 1 h ≠ 0
    rw [Function.update_self]
    exact one_ne_zero
  · intro k hk
    exact absurd (Or.inr hk) (hnone k)
  · intro k hk
    rw [hpending, Nat.cast_succ, hs.posts_of_inFlight k hk, hempty, add_zero]
    rfl
  · intro hfly
    rw [hpending, Nat.cast_succ, hs.posts_of_not_inFlight hfly, hempty, add_zero]
    rfl

end Counted

end Counted

end Mailbox

end Rv32Gdb
