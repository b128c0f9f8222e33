/-
**The in-memory rate limiter.**

`src/common/rate-limit.go`: for each key the limiter keeps a queue with the times of the latest
admitted requests, oldest first.  A request is admitted while the queue is shorter than
`maxRequestNum`, and otherwise if the oldest time in it is at least `duration` seconds ago; that
time then leaves the queue.  One limiter object is shared by all users of the process
(`src/middleware/rate-limit.go`, `src/middleware/model-rate-limit.go`); the first call of `Init`
fixes `expirationDuration` for all of them, and with it the janitor, which deletes every key whose
last request is more than that many seconds ago.

A janitor that forgets a key before its window has passed lets the next `maxRequestNum` requests
through.  So the limiter respects the windows of a key exactly if there is no janitor, or the
window is at most one second longer than the expiration.

Main definitions:

* `NewApi.InMemoryRateLimiter.init`, `NewApi.InMemoryRateLimiter.clearExpiredItems`,
  `NewApi.InMemoryRateLimiter.request` — the limiter;
* `NewApi.LimiterRun` — the limiter with the answers it has given, `NewApi.LimiterRun.step` — its
  users and its janitor.

Main results:

* `NewApi.LimiterRun.inv_run` — without early deletions a queue keeps what its window needs, and
  the answers are those of the exact limiter;
* `NewApi.request_respects_window` — **for which durations every run respects the windows of a
  key**.
-/

import NewApi.Lib.SlidingWindow
import NewApi.Lib.Transition
import Mathlib.Tactic.Ring

set_option autoImplicit false

namespace NewApi

/-! ### The limiter -/

/-- `InMemoryRateLimiter`, after its first `Init`: the queues by key and the expiration in
nanoseconds. -/
structure InMemoryRateLimiter where
  store : String → Option (List ℤ)
  expirationDuration : ℤ

namespace InMemoryRateLimiter

/-- `Init`: only the first call has an effect. -/
def init (l : Option InMemoryRateLimiter) (expirationDuration : ℤ) : InMemoryRateLimiter :=
  l.getD { store := fun _ => none, expirationDuration := expirationDuration }

/-- `int64(l.expirationDuration.Seconds())`. -/
def expirationSeconds (l : InMemoryRateLimiter) : ℤ := l.expirationDuration.tdiv 1000000000

/-- The queue of a key is set. -/
def put (l : InMemoryRateLimiter) (key : String) (queue : List ℤ) : InMemoryRateLimiter :=
  { l with store := fun k => if k = key then some queue else l.store k }

/-- Whether a round of the janitor at the time `now` deletes a queue. -/
def expired (l : InMemoryRateLimiter) (now : ℤ) (queue : List ℤ) : Bool :=
  match queue.getLast? with
  | none => true
  | some last => now - last > l.expirationSeconds

/-- `clearExpiredItems`, one round at the time `now`. -/
def clearExpiredItems (l : InMemoryRateLimiter) (now : ℤ) : InMemoryRateLimiter :=
  { l with store := fun key => (l.store key).filter fun queue => !l.expired now queue }

/-- `Request`, where `now` is the time it reads; the answer is `none` where it panics. -/
def request (l : InMemoryRateLimiter) (key : String) (maxRequestNum duration now : ℤ) :
    InMemoryRateLimiter × Option Bool :=
  match l.store key with
  | some queue =>
    if queue.length < maxRequestNum then (l.put key (queue ++ [now]), some true)
    else
      match queue with
      | [] => (l, none)
      | oldest :: rest =>
        if now - oldest ≥ duration then (l.put key (rest ++ [now]), some true)
        else (l, some false)
  | none =>
    -- `make` with a negative capacity panics
    if maxRequestNum < 0 then (l, none) else (l.put key [now], some true)

@[simp] theorem put_store_self (l : InMemoryRateLimiter) (key : String) (queue : List ℤ) :
    (l.put key queue).store key = some queue := if_pos rfl

theorem put_store_of_ne (l : InMemoryRateLimiter) {key other : String} (queue : List ℤ)
    (h : other ≠ key) : (l.put key queue).store other = l.store other := if_neg h

@[simp] theorem put_expirationDuration (l : InMemoryRateLimiter) (key : String)
    (queue : List ℤ) : (l.put key queue).expirationDuration = l.expirationDuration := rfl

/-- **What a request does**: it panics, it is refused, or it is admitted and its time ends the
queue of its key. -/
theorem request_cases (l : InMemoryRateLimiter) (key : String) (n d now : ℤ) :
    (n ≤ 0 ∧ l.request key n d now = (l, none)) ∨
    (∃ oldest rest, l.store key = some (oldest :: rest) ∧ n ≤ (oldest :: rest).length ∧
      now - oldest < d ∧ l.request key n d now = (l, some false)) ∨
    (∃ queue, l.request key n d now = (l.put key (queue ++ [now]), some true) ∧
      (l.store key = none ∧ queue = [] ∨
        l.store key = some queue ∧ queue.length < n ∨
        ∃ oldest, l.store key = some (oldest :: queue) ∧ n ≤ (oldest :: queue).length ∧
          d ≤ now - oldest)) := by
  unfold request
  cases hq : l.store key with
  | none =>
    by_cases hn : n < 0
    · exact Or.inl ⟨hn.le, if_pos hn⟩
    · exact Or.inr (Or.inr ⟨[], if_neg hn, Or.inl ⟨rfl, rfl⟩⟩)
  | some queue =>
    by_cases hlt : queue.length < n
    · exact Or.inr (Or.inr ⟨queue, if_pos hlt, Or.inr (Or.inl ⟨rfl, hlt⟩)⟩)
    · cases queue with
      | nil =>
        refine Or.inl ⟨?_, if_neg hlt⟩
        simpa using hlt
      | cons oldest rest =>
        have hfull : n ≤ (oldest :: rest).length := not_lt.1 hlt
        by_cases hold : now - oldest ≥ d
        · refine Or.inr (Or.inr ⟨rest, ?_, Or.inr (Or.inr ⟨oldest, rfl, hfull, hold⟩)⟩)
          simp only [if_neg hlt, if_pos hold]
        · refine Or.inr (Or.inl ⟨oldest, rest, rfl, hfull, not_le.1 hold, ?_⟩)
          simp only [if_neg hlt, if_neg hold]

/-- A request concerns the queue of its key only. -/
theorem request_store_of_ne (l : InMemoryRateLimiter) {key other : String} (n d now : ℤ)
    (h : other ≠ key) : (l.request key n d now).1.store other = l.store other := by
  obtain ⟨-, heq⟩ | ⟨-, -, -, -, -, heq⟩ | ⟨queue, heq, -⟩ := l.request_cases key n d now
  · rw [heq]
  · rw [heq]
  · rw [heq]
    exact put_store_of_ne l _ h

@[simp] theorem request_expirationDuration (l : InMemoryRateLimiter) (key : String)
    (n d now : ℤ) :
    (l.request key n d now).1.expirationDuration = l.expirationDuration := by
  obtain ⟨-, heq⟩ | ⟨-, -, -, -, -, heq⟩ | ⟨queue, heq, -⟩ := l.request_cases key n d now
  all_goals rw [heq]
  rfl

end InMemoryRateLimiter

/-! ### The users of a limiter -/

/-- The limiter, the time, and for each key the requests answered so far: the time of each and
whether it was admitted. -/
structure LimiterRun where
  limiter : InMemoryRateLimiter
  clock : ℤ
  log : String → List (ℤ × Bool)

/-- What the users of a limiter do: they initialise it again, the janitor makes a round, and
requests are made, each with its own limit. -/
inductive LimiterAction where
  | init (expirationDuration : ℤ)
  | clearExpiredItems (now : ℤ)
  | request (key : String) (maxRequestNum duration now : ℤ)

namespace LimiterRun

/-- The limiter after its first `Init`. -/
def started (expirationDuration clock : ℤ) : LimiterRun where
  limiter := .init none expirationDuration
  clock := clock
  log := fun _ => []

/-- The answer to a request is noted. -/
def note (s : LimiterRun) (key : String) (now : ℤ) (l : InMemoryRateLimiter) :
    Option Bool → LimiterRun
  | none => { s with limiter := l, clock := now }
  | some admitted =>
    { limiter := l
      clock := now
      log := fun k => if k = key then s.log key ++ [(now, admitted)] else s.log k }

/-- One step of a run. -/
def step (s : LimiterRun) : LimiterAction → LimiterRun
  | .init expirationDuration =>
    { s with limiter := .init (some s.limiter) expirationDuration }
  | .clearExpiredItems now => { s with limiter := s.limiter.clearExpiredItems now, clock := now }
  | .request key maxRequestNum duration now =>
    s.note key now (s.limiter.request key maxRequestNum duration now).1
      (s.limiter.request key maxRequestNum duration now).2

/-- The runs in question: time does not go back, the requests for `key` have its limit `n` and
its duration `d`, and there are rounds of the janitor only if it was started. -/
def Fits (key : String) (n d : ℤ) (s : LimiterRun) : LimiterAction → Prop
  | .init _ => True
  | .clearExpiredItems now => s.clock ≤ now ∧ 0 < s.limiter.expirationDuration
  | .request key' maxRequestNum duration now =>
    s.clock ≤ now ∧ (key' = key → maxRequestNum = n ∧ duration = d)

instance instDecidableFits (key : String) (n d : ℤ) (s : LimiterRun) (a : LimiterAction) :
    Decidable (Fits key n d s a) := by
  cases a <;> unfold Fits <;> infer_instance

@[simp] theorem note_limiter (s : LimiterRun) (key : String) (now : ℤ)
    (l : InMemoryRateLimiter) (answer : Option Bool) :
    (s.note key now l answer).limiter = l := by cases answer <;> rfl

@[simp] theorem note_clock (s : LimiterRun) (key : String) (now : ℤ) (l : InMemoryRateLimiter)
    (answer : Option Bool) : (s.note key now l answer).clock = now := by cases answer <;> rfl

theorem note_log_of_ne (s : LimiterRun) {key other : String} (now : ℤ) (l : InMemoryRateLimiter)
    (answer : Option Bool) (h : other ≠ key) :
    (s.note key now l answer).log other = s.log other := by
  cases answer with
  | none => rfl
  | some admitted => exact if_neg h

@[simp] theorem note_log_self (s : LimiterRun) (key : String) (now : ℤ)
    (l : InMemoryRateLimiter) (admitted : Bool) :
    (s.note key now l (some admitted)).log key = s.log key ++ [(now, admitted)] := if_pos rfl

/-! ### Early deletions -/

/-- No round of the janitor deletes a queue before `d` seconds have passed: there is none, or it
waits long enough. -/
def Patient (expirationDuration d : ℤ) : Prop :=
  expirationDuration ≤ 0 ∨ d ≤ expirationDuration.tdiv 1000000000 + 1

instance instDecidablePatient (e d : ℤ) : Decidable (Patient e d) := by
  unfold Patient; infer_instance

open SlidingWindow in
/-- What holds along a run of a patient limiter, for a key with the limit `n` and the duration
`d`: the answers are those of the exact limiter, and the queue keeps what it has to know. -/
structure Inv (key : String) (n : ℕ) (d : ℤ) (e : ℤ) (s : LimiterRun) : Prop where
  expiration : s.limiter.expirationDuration = e
  exact : Exact n d (s.log key)
  sorted : (admitted (s.log key)).Pairwise (· ≤ ·)
  past : ∀ t ∈ admitted (s.log key), t ≤ s.clock
  kept : Kept n d s.clock ((s.limiter.store key).getD []) (admitted (s.log key))
  nonempty : s.limiter.store key ≠ some []

open SlidingWindow in
/-- A key that was never used is as the invariant says. -/
theorem inv_started (key : String) (n : ℕ) (d e clock : ℤ) :
    Inv key n d e (started e clock) where
  expiration := rfl
  exact := exact_nil n d
  sorted := List.Pairwise.nil
  past := by
    intro t ht
    cases ht
  kept := kept_nil (by intro x hx; cases hx)
  nonempty := nofun

section Steps

variable {key : String} {n : ℕ} {d e : ℤ} {s : LimiterRun}

/-- The invariant does not depend on other keys, and time may pass. -/
theorem Inv.frame {s' : LimiterRun} (h : Inv key n d e s)
    (hexp : s'.limiter.expirationDuration = e) (hlog : s'.log key = s.log key)
    (hstore : s'.limiter.store key = s.limiter.store key) (hclock : s.clock ≤ s'.clock) :
    Inv key n d e s' where
  expiration := hexp
  exact := by rw [hlog]; exact h.exact
  sorted := by rw [hlog]; exact h.sorted
  past := by
    intro t ht
    rw [hlog] at ht
    exact (h.past t ht).trans hclock
  kept := by rw [hlog, hstore]; exact h.kept.mono hclock
  nonempty := by rw [hstore]; exact h.nonempty

/-- Every admitted request is at most as late as the last time in the queue. -/
theorem Inv.le_last (h : Inv key n d e s) {queue : List ℤ}
    (hq : s.limiter.store key = some queue) {last : ℤ} (hlast : queue.getLast? = some last) :
    ∀ t ∈ SlidingWindow.admitted (s.log key), t ≤ last := by
  obtain ⟨old, hsplit, -⟩ := h.kept.split
  obtain ⟨init, rfl⟩ : ∃ init, queue = init ++ [last] := List.getLast?_eq_some_iff.1 hlast
  have hsorted := h.sorted
  rw [hq, Option.getD_some, ← List.append_assoc] at hsplit
  rw [hsplit] at hsorted ⊢
  intro t ht
  rcases List.mem_append.1 ht with ht | ht
  · exact (List.pairwise_append.1 hsorted).2.2 t ht last (by simp)
  · exact (List.mem_singleton.1 ht).le

/-- **A round of the janitor** of a patient limiter forgets only what is old. -/
theorem Inv.clearExpiredItems (h : Inv key n d e s) (hpatient : Patient e d) {now : ℤ}
    (hclock : s.clock ≤ now) (hjanitor : 0 < s.limiter.expirationDuration) :
    Inv key n d e (s.step (.clearExpiredItems now)) := by
  cases hq : s.limiter.store key with
  | none =>
    refine h.frame h.expiration rfl ?_ hclock
    simp only [step, InMemoryRateLimiter.clearExpiredItems, hq, Option.filter_none]
  | some queue =>
    by_cases hexp : s.limiter.expired now queue
    · have hgone : (s.step (.clearExpiredItems now)).limiter.store key = none := by
        simp only [step, InMemoryRateLimiter.clearExpiredItems, hq]
        simp [hexp]
      have hold : ∀ t ∈ SlidingWindow.admitted (s.log key), t ≤ now - d := by
        obtain ⟨last, hlast⟩ : ∃ last, queue.getLast? = some last := by
          cases hl : queue.getLast? with
          | none => exact absurd (by rw [hq, List.getLast?_eq_none_iff.1 hl]) h.nonempty
          | some last => exact ⟨last, rfl⟩
        have hlong : now - last > s.limiter.expirationSeconds := by
          simpa [InMemoryRateLimiter.expired, hlast] using hexp
        have hsecs : d ≤ s.limiter.expirationSeconds + 1 := by
          rw [h.expiration] at hjanitor
          have hd := hpatient.resolve_left (not_le.2 hjanitor)
          rwa [InMemoryRateLimiter.expirationSeconds, h.expiration]
        intro t ht
        have hle := h.le_last hq hlast t ht
        omega
      exact
        { expiration := h.expiration
          exact := h.exact
          sorted := h.sorted
          past := fun t ht => (h.past t ht).trans hclock
          kept := by rw [hgone]; exact SlidingWindow.kept_nil hold
          nonempty := by rw [hgone]; nofun }
    · refine h.frame h.expiration rfl ?_ hclock
      simp only [step, InMemoryRateLimiter.clearExpiredItems, hq]
      simp [hexp]

/-- **A request for the key** is answered as the exact limiter answers it. -/
theorem Inv.request (h : Inv key n d e s) (hn : 0 < n) {now : ℤ} (hclock : s.clock ≤ now) :
    Inv key n d e (s.step (.request key n d now)) := by
  have hkept := h.kept.mono hclock
  -- an admitted request is noted after all earlier ones
  have hsorted : (SlidingWindow.admitted (s.log key) ++ [now]).Pairwise (· ≤ ·) := by
    refine List.pairwise_append.2 ⟨h.sorted, List.pairwise_singleton _ _, ?_⟩
    intro t ht u hu
    rw [List.mem_singleton.1 hu]
    exact (h.past t ht).trans hclock
  have hpast : ∀ t ∈ SlidingWindow.admitted (s.log key) ++ [now], t ≤ now := by
    intro t ht
    rcases List.mem_append.1 ht with ht | ht
    · exact (h.past t ht).trans hclock
    · exact (List.mem_singleton.1 ht).le
  obtain ⟨hle, -⟩ | ⟨oldest, rest, hq, hfull, hnew, heq⟩ | ⟨queue, heq, hcases⟩ :=
    s.limiter.request_cases key n d now
  · exact absurd hle (by omega)
  · -- refused: the queue is full, and its oldest entry recent
    rw [hq, Option.getD_some] at hkept
    have hmany : n ≤ SlidingWindow.recent d now (SlidingWindow.admitted (s.log key)) :=
      hkept.full (by exact_mod_cast hfull) h.sorted (by omega)
    simp only [step, heq]
    exact
      { expiration := by rw [note_limiter]; exact h.expiration
        exact := by
          rw [note_log_self]
          exact h.exact.concat (by simpa using hmany)
        sorted := by simpa using h.sorted
        past := by simpa using fun t ht => (h.past t ht).trans hclock
        kept := by simpa [hq] using hkept
        nonempty := by simp [hq] }
  · have hroom : SlidingWindow.recent d now (SlidingWindow.admitted (s.log key)) < n ∧
        SlidingWindow.Kept n d now (queue ++ [now])
          (SlidingWindow.admitted (s.log key) ++ [now]) := by
      obtain ⟨hq, rfl⟩ | ⟨hq, hlt⟩ | ⟨oldest, hq, hfull, hold⟩ := hcases
      · rw [hq, Option.getD_none] at hkept
        exact ⟨hkept.room hn, hkept.push hn⟩
      · rw [hq, Option.getD_some] at hkept
        have hlt' : queue.length < n := by exact_mod_cast hlt
        exact ⟨hkept.room hlt', hkept.push hlt'⟩
      · rw [hq, Option.getD_some] at hkept
        have hfull' : n ≤ (oldest :: queue).length := by exact_mod_cast hfull
        exact ⟨hkept.room_of_oldest h.sorted (by omega), hkept.roll hfull'⟩
    simp only [step, heq]
    exact
      { expiration := by simpa using h.expiration
        exact := by
          rw [note_log_self]
          exact h.exact.concat (by simpa using hroom.1)
        sorted := by simpa using hsorted
        past := by
          intro t ht
          rw [note_log_self, SlidingWindow.admitted_append] at ht
          rw [note_clock]
          exact hpast t ht
        kept := by simpa using hroom.2
        nonempty := by simp }

/-- **One step** of a patient limiter. -/
theorem Inv.step (h : Inv key n d e s) (hn : 0 < n) (hpatient : Patient e d) {a : LimiterAction}
    (hfits : Fits key n d s a) : Inv key n d e (s.step a) := by
  cases a with
  | init e' => exact h
  | clearExpiredItems now => exact h.clearExpiredItems hpatient hfits.1 hfits.2
  | request key' maxRequestNum duration now =>
    obtain ⟨hclock, hsame⟩ := hfits
    by_cases hkey : key' = key
    · obtain ⟨rfl, rfl⟩ := hsame hkey
      subst hkey
      exact h.request hn hclock
    · refine h.frame ?_ (note_log_of_ne s now _ _ (Ne.symm hkey)) ?_ ?_
      · simp only [LimiterRun.step, note_limiter,
          InMemoryRateLimiter.request_expirationDuration]
        exact h.expiration
      · simp only [LimiterRun.step, note_limiter]
        exact s.limiter.request_store_of_ne _ _ _ (Ne.symm hkey)
      · simpa [LimiterRun.step] using hclock

end Steps

/-- **A run** of a patient limiter. -/
theorem inv_run (key : String) {n : ℕ} (hn : 0 < n) {d e : ℤ} (hpatient : Patient e d)
    (clock : ℤ) {as : List LimiterAction}
    (hfits : Transition.Along step (Fits key n d) (started e clock) as) :
    Inv key n d e (Transition.run step (started e clock) as) :=
  Transition.run_invariant (fun _ _ h hok => h.step hn hpatient hok) (inv_started key n d e clock)
    hfits

/-! ### The windows of a key -/

open SlidingWindow in
/-- **The windows of a key are respected**: at most `n` requests are admitted in any window of
`d` seconds, and a request is refused only if `n` were admitted in the last `d` seconds. -/
def Respects (key : String) (n : ℕ) (d : ℤ) (s : LimiterRun) : Prop :=
  AtMost n d (admitted (s.log key)) ∧
    ∀ earlier t later, s.log key = earlier ++ (t, false) :: later →
      n ≤ recent d t (admitted earlier)

theorem Inv.respects {key : String} {n : ℕ} {d e : ℤ} {s : LimiterRun}
    (h : Inv key n d e s) : Respects key n d s :=
  ⟨h.exact.atMost, fun _ _ _ hsplit => h.exact.refused hsplit⟩

/-- The limiter after `k` of `n` requests of one second. -/
theorem run_requests (key : String) (n : ℕ) (d e : ℤ) (k : ℕ) (hk : k ≤ n) :
    let s := Transition.run step (started e 0) (List.replicate k (.request key n d 0))
    Transition.Along step (Fits key n d) (started e 0)
        (List.replicate k (.request key n d 0)) ∧
      s.limiter.store key = (if k = 0 then none else some (List.replicate k 0)) ∧
      s.log key = List.replicate k (0, true) ∧ s.clock = 0 ∧
      s.limiter.expirationDuration = e := by
  induction k with
  | zero => exact ⟨trivial, rfl, rfl, rfl, rfl⟩
  | succ k ih =>
    obtain ⟨hfits, hstore, hlog, hclock, hexp⟩ := ih (by omega)
    intro s
    -- there is still room: the queue is missing, or shorter than `n`
    have hreq : (Transition.run step (started e 0)
        (List.replicate k (.request key n d 0))).limiter.request key n d 0 =
        ((Transition.run step (started e 0)
          (List.replicate k (.request key n d 0))).limiter.put key (List.replicate (k + 1) 0),
          some true) := by
      unfold InMemoryRateLimiter.request
      rw [hstore]
      cases k with
      | zero => exact if_neg (by omega)
      | succ k =>
        have hlt : ((List.replicate (k + 1) (0 : ℤ)).length : ℤ) < n := by
          rw [List.length_replicate]
          omega
        simp only [if_neg (Nat.succ_ne_zero k), if_pos hlt]
        rw [← List.replicate_succ']
    have hs : s = (Transition.run step (started e 0)
        (List.replicate k (.request key n d 0))).step (.request key n d 0) := by
      show Transition.run _ _ _ = _
      rw [List.replicate_succ', Transition.run_append]
      rfl
    refine ⟨?_, ?_, ?_, ?_, ?_⟩
    · rw [List.replicate_succ', Transition.along_append]
      exact ⟨hfits, ⟨hclock.le, fun _ => ⟨rfl, rfl⟩⟩, trivial⟩
    · rw [hs, step, hreq]
      simp
    · rw [hs, step, hreq, note_log_self, hlog, List.replicate_succ']
    · rw [hs]
      simp [step]
    · rw [hs, step, hreq]
      simpa using hexp

/-- A round as soon as the queue of these requests has expired, and one more request, which is
admitted. -/
theorem log_after_sweep (s : LimiterRun) (key : String) {n : ℕ} (hn : 0 < n) (d : ℤ)
    (hstore : s.limiter.store key = some (List.replicate n 0))
    (hlog : s.log key = List.replicate n (0, true)) :
    let later := s.limiter.expirationSeconds + 1
    ((s.step (.clearExpiredItems later)).step (.request key n d later)).log key =
      List.replicate n (0, true) ++ [(later, true)] := by
  intro later
  have hexpired : s.limiter.expired later (List.replicate n 0) = true := by
    obtain ⟨m, rfl⟩ : ∃ m, n = m + 1 := ⟨n - 1, by omega⟩
    rw [List.replicate_succ']
    simp [InMemoryRateLimiter.expired, later]
  have hswept : (s.limiter.clearExpiredItems later).store key = none := by
    simp only [InMemoryRateLimiter.clearExpiredItems, hstore]
    simp [hexpired]
  have hreq : (s.limiter.clearExpiredItems later).request key n d later =
      ((s.limiter.clearExpiredItems later).put key [later], some true) := by
    unfold InMemoryRateLimiter.request
    rw [hswept]
    exact if_neg (by omega)
  simp only [step, hreq, note_log_self, hlog]

/-- **A janitor that is too early lets too many through.** -/
theorem not_respects_of_impatient (key : String) {n : ℕ} (hn : 0 < n) {d e : ℤ}
    (hpatient : ¬Patient e d) :
    ∃ as, Transition.Along step (Fits key n d) (started e 0) as ∧
      ¬Respects key n d (Transition.run step (started e 0) as) := by
  have hpos : 0 < e := by
    by_contra hle
    exact hpatient (Or.inl (not_lt.1 hle))
  obtain ⟨hfits, hstore, hlog, hclock, hexp⟩ := run_requests key n d e n le_rfl
  rw [if_neg (by omega)] at hstore
  generalize hs : Transition.run step (started e 0) (List.replicate n (.request key n d 0)) = s
    at hstore hlog hclock hexp
  have hafter := log_after_sweep s key hn d hstore hlog
  have hsecs : s.limiter.expirationSeconds = e.tdiv 1000000000 := by
    rw [InMemoryRateLimiter.expirationSeconds, hexp]
  have hd : s.limiter.expirationSeconds + 1 < d := by
    by_contra hle
    exact hpatient (Or.inr (by omega))
  have hlater : 0 < s.limiter.expirationSeconds + 1 := by
    have hnonneg := Int.tdiv_nonneg hpos.le (by norm_num : (0 : ℤ) ≤ 1000000000)
    omega
  generalize s.limiter.expirationSeconds + 1 = later at hafter hd hlater
  refine ⟨List.replicate n (LimiterAction.request key n d 0) ++
    [LimiterAction.clearExpiredItems later, LimiterAction.request key n d later], ?_, ?_⟩
  · rw [Transition.along_append, hs]
    refine ⟨hfits, ⟨by omega, by rw [hexp]; exact hpos⟩, ⟨le_rfl, fun _ => ⟨rfl, rfl⟩⟩, trivial⟩
  · rw [Transition.run_append, hs]
    intro hrespects
    have hmany := hrespects.1 0
    simp only [Transition.run_cons, Transition.run_nil, hafter] at hmany
    have hcount : SlidingWindow.countIn 0 d (SlidingWindow.admitted
        (List.replicate n ((0 : ℤ), true) ++ [(later, true)])) = n + 1 := by
      have hzero : 0 < d := by omega
      simp [SlidingWindow.countIn, SlidingWindow.admitted, List.countP_replicate, hzero,
        hlater.le, hd]
    omega

end LimiterRun

/-- **The limiter respects the windows of a key in every run** exactly if there is no janitor, or
the duration of the windows is at most one second longer than the expiration that the first user
of the limiter has fixed. -/
theorem request_respects_window (key : String) (n : ℕ) (d e : ℤ) (hn : 0 < n) :
    (∀ clock as, Transition.Along LimiterRun.step (LimiterRun.Fits key n d)
        (LimiterRun.started e clock) as →
      LimiterRun.Respects key n d
        (Transition.run LimiterRun.step (LimiterRun.started e clock) as)) ↔
      LimiterRun.Patient e d := by
  constructor
  · intro hall
    by_contra hpatient
    obtain ⟨as, hfits, hnot⟩ := LimiterRun.not_respects_of_impatient key hn hpatient
    exact hnot (hall 0 as hfits)
  · intro hpatient clock as hfits
    exact (LimiterRun.inv_run key hn hpatient clock hfits).respects

/-- Windows of an hour, for a limiter that was initialised with an hour: after its janitor has
passed at 1201 it still refuses a second request. -/
theorem request_respects_window_hour :
    let as : List LimiterAction :=
      [.request "MRRL7" 1 3600 0, .clearExpiredItems 1201, .request "MRRL7" 1 3600 1201]
    LimiterRun.Respects "MRRL7" 1 3600
      (Transition.run LimiterRun.step (LimiterRun.started 3600000000000 0) as) :=
  (request_respects_window "MRRL7" 1 3600 3600000000000 (by decide)).2 (by decide) 0 _ (by decide)

/-- With windows of an hour and an expiration of twenty minutes, two requests are admitted within
twenty-one minutes where one is allowed. -/
theorem request_forgets_window :
    let as : List LimiterAction :=
      [.request "MRRL7" 1 3600 0, .clearExpiredItems 1201, .request "MRRL7" 1 3600 1201]
    Transition.Along LimiterRun.step (LimiterRun.Fits "MRRL7" 1 3600)
        (LimiterRun.started 1200000000000 0) as ∧
      (Transition.run LimiterRun.step (LimiterRun.started 1200000000000 0) as).log "MRRL7" =
        [(0, true), (1201, true)] ∧
      ¬LimiterRun.Respects "MRRL7" 1 3600
        (Transition.run LimiterRun.step (LimiterRun.started 1200000000000 0) as) := by
  refine ⟨by decide, by decide, ?_⟩
  intro hrespects
  have hmany := hrespects.1 0
  revert hmany
  decide

end NewApi
