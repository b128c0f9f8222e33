/-
**The Redis rate limiter under concurrent requests.**

`redisRateLimiter` and `userRedisRateLimiter` (`src/middleware/rate-limit.go`) have the same body.
A call reads the length of the key's list; below `maxRequestNum` it pushes the time and is let
through.  Otherwise it reads the oldest time of the list: a time less than `duration` seconds ago
refuses it, and with an older one it pushes the time and trims the list.  Each command is atomic,
but another call may act between any two of them, and the key may expire between any two of them.

So a call may push a time when others have filled the window since it looked; it may read a time
that another call is about to trim away as the oldest one; and a key that expires, or is shorter
lived than the window, forgets times that still count.  The limiter keeps its limit in the runs in
which none of these happens.

Main definitions:

* `NewApi.RedisLimiter` — the key and the calls in progress, `NewApi.RedisLimiter.step` — one
  command of a call;
* `NewApi.RedisLimiter.Undisturbed`, `NewApi.RedisLimiter.KeepsRecent` — the conditions;
* `NewApi.RedisLimiterCall.Knows` — what a call has found out about the list.

Main results:

* `NewApi.RedisLimiter.Inv.room` — **a call that was not disturbed finds room**: its checks have
  seen to it;
* `NewApi.RedisLimiter.Inv.step` — a step keeps the limit, and trims old times only;
* `NewApi.redis_limiter_keeps_limit` — **at most `maxRequestNum` in a window**.
-/

import NewApi.Lib.SlidingWindow
import NewApi.Lib.Transition

set_option autoImplicit false

namespace NewApi

/-! ### Calls in progress -/

/-- What a call of `redisRateLimiter` does next. -/
inductive RedisLimiterPhase where
  | lLen
  | lIndex
  /-- it compares the oldest time with the present one -/
  | check (oldTime : ℤ)
  /-- it is about to push the time, and will trim the list if it was full -/
  | lPush (full : Bool)
  | lTrim
  | expire (admitted : Bool)
  | finished (admitted : Bool)
  deriving DecidableEq

/-- A call in progress.  The program does not keep `seen`, the number of times recorded when the
call read the length of the list. -/
structure RedisLimiterCall where
  phase : RedisLimiterPhase
  seen : ℕ
  deriving DecidableEq

/-- A list under a Redis key, the latest time first, in milliseconds, and when the key expires. -/
structure RedisTimes where
  times : List ℤ
  expireAt : Option ℤ

/-- The key of a limiter and the calls in progress on it, and the times recorded by the calls that
are let through. -/
structure RedisLimiter where
  key : Option RedisTimes
  calls : List RedisLimiterCall
  clock : ℤ
  recorded : List ℤ

/-- A call begins, or the `i`-th call takes its next step at the time `now`. -/
inductive RedisLimiterAction where
  | begin
  | step (i : ℕ) (now : ℤ)

namespace RedisLimiter

def init (clock : ℤ) : RedisLimiter := ⟨none, [], clock, []⟩

/-- The key, if it has not expired. -/
def live (now : ℤ) : Option RedisTimes → Option RedisTimes
  | some { times, expireAt := some e } =>
    if now < e then some { times, expireAt := some e } else none
  | key => key

/-- The times under a key; a missing key is an empty list. -/
def times (key : Option RedisTimes) : List ℤ :=
  match key with
  | none => []
  | some list => list.times

/-- The next step of a call, where `key` is what the server has: the key, the next phase and the
times recorded. -/
def advance (maxRequestNum : ℕ) (duration expiration : ℤ) (key : Option RedisTimes) (now : ℤ) :
    RedisLimiterPhase → Option RedisTimes × RedisLimiterPhase × List ℤ
  | .lLen =>
    if (times key).length < maxRequestNum then (key, .lPush false, []) else (key, .lIndex, [])
  | .lIndex =>
    match (times key).getLast? with
    -- there is no time to parse
    | none => (key, .finished false, [])
    | some oldTime => (key, .check oldTime, [])
  | .check oldTime =>
    if (now - oldTime).tdiv 1000 < duration then (key, .expire false, [])
    else (key, .lPush true, [])
  | .lPush full =>
    (some { times := now :: times key, expireAt := key.bind (·.expireAt) },
      if full then .lTrim else .expire true, [now])
  | .lTrim =>
    (key.map fun list => { list with times := list.times.take maxRequestNum }, .expire true, [])
  | .expire admitted =>
    (key.map fun list => { list with expireAt := some (now + expiration) },
      .finished admitted, [])
  | .finished admitted => (key, .finished admitted, [])

/-- One step of any call. -/
def step (maxRequestNum : ℕ) (duration expiration : ℤ) (s : RedisLimiter) :
    RedisLimiterAction → RedisLimiter
  | .begin => { s with calls := s.calls ++ [⟨.lLen, 0⟩] }
  | .step i now =>
    match s.calls[i]? with
    | none => s
    | some call =>
      let out := advance maxRequestNum duration expiration (live now s.key) now call.phase
      let seen := if call.phase = .lLen then s.recorded.length else call.seen
      { key := out.1
        calls := s.calls.set i ⟨out.2.1, seen⟩
        clock := now
        recorded := s.recorded ++ out.2.2 }

/-- Time does not go back. -/
def InOrder (s : RedisLimiter) : RedisLimiterAction → Prop
  | .begin => True
  | .step _ now => s.clock ≤ now

/-- The key does not expire with a time in it that is less than `duration` seconds old. -/
def KeepsRecent (duration : ℤ) (s : RedisLimiter) : RedisLimiterAction → Prop
  | .begin => True
  | .step _ now => (live now s.key).isNone → ∀ t ∈ times s.key, t ≤ now - duration * 1000

/-- **A call is not disturbed**: no other call has pushed a time between its reading of the length
and its push, and none that has pushed has still to trim the list when it reads the oldest time. -/
def Undisturbed (s : RedisLimiter) : RedisLimiterAction → Prop
  | .begin => True
  | .step i _ => ∀ call ∈ s.calls[i]?,
      (∀ full, call.phase = .lPush full → s.recorded.length = call.seen) ∧
        (call.phase = .lIndex → ∀ other ∈ s.calls, other.phase ≠ .lTrim)

/-- **The limit**: at most `maxRequestNum` calls are let through with times in one window of
`duration` seconds. -/
def KeepsLimit (maxRequestNum : ℕ) (duration : ℤ) (s : RedisLimiter) : Prop :=
  SlidingWindow.AtMost maxRequestNum (duration * 1000) s.recorded

end RedisLimiter

/-! ### What the list keeps -/

/-- What a call knows of the list, unless another call has pushed since it read the length: that
the list is short, that there is room if the oldest time is old, or that there is room. -/
def RedisLimiterCall.Knows (maxRequestNum : ℕ) (duration : ℤ) (list : List ℤ) (clock : ℤ)
    (pushed : ℕ) (call : RedisLimiterCall) : Prop :=
  call.seen ≤ pushed ∧ (call.seen = pushed →
    match call.phase with
    | .check oldTime => ∀ now, clock ≤ now → oldTime ≤ now - duration * 1000 →
        SlidingWindow.recent (duration * 1000) now list < maxRequestNum
    | .lPush false => list.length < maxRequestNum
    | .lPush true => SlidingWindow.recent (duration * 1000) clock list < maxRequestNum
    | _ => True)

/-- A call knows as much later, of what is left of the list. -/
theorem RedisLimiterCall.Knows.mono {maxRequestNum : ℕ} {duration : ℤ} {list list' : List ℤ}
    {clock clock' : ℤ} {pushed : ℕ} {call : RedisLimiterCall}
    (h : call.Knows maxRequestNum duration list clock pushed) (hclock : clock ≤ clock')
    (hlist : list'.Sublist list) : call.Knows maxRequestNum duration list' clock' pushed := by
  refine ⟨h.1, fun hseen => ?_⟩
  have hknown := h.2 hseen
  obtain ⟨phase, seen⟩ := call
  cases phase with
  | check oldTime =>
    intro now hnow hold
    exact (SlidingWindow.recent_le le_rfl hlist).trans_lt
      (hknown now (hclock.trans hnow) hold)
  | lPush full =>
    cases full with
    | false => exact hlist.length_le.trans_lt hknown
    | true => exact (SlidingWindow.recent_le hclock hlist).trans_lt hknown
  | _ => trivial

/-- What a call has found out is void once another one has pushed. -/
theorem RedisLimiterCall.Knows.pushed {maxRequestNum : ℕ} {duration : ℤ} {list list' : List ℤ}
    {clock clock' : ℤ} {pushed : ℕ} {call : RedisLimiterCall}
    (h : call.Knows maxRequestNum duration list clock pushed) :
    call.Knows maxRequestNum duration list' clock' (pushed + 1) := by
  refine ⟨h.1.trans (Nat.le_succ _), fun hseen => ?_⟩
  have hle := h.1
  omega

namespace RedisLimiter

/-- The list ends the recorded times; those it has lost are at least `duration` seconds old.  It is
no longer than `maxRequestNum` unless a call is about to trim it. -/
structure Inv (maxRequestNum : ℕ) (duration : ℤ) (s : RedisLimiter) : Prop where
  split : ∃ lost, s.recorded = lost ++ (times s.key).reverse ∧
    ∀ t ∈ lost, t ≤ s.clock - duration * 1000
  sorted : s.recorded.Pairwise (· ≤ ·)
  past : ∀ t ∈ s.recorded, t ≤ s.clock
  limit : s.KeepsLimit maxRequestNum duration
  fits : (∀ call ∈ s.calls, call.phase ≠ .lTrim) → (times s.key).length ≤ maxRequestNum
  knows : ∀ call ∈ s.calls,
    call.Knows maxRequestNum duration (times s.key) s.clock s.recorded.length

theorem inv_init (maxRequestNum : ℕ) (duration clock : ℤ) :
    Inv maxRequestNum duration (init clock) :=
  ⟨⟨[], rfl, nofun⟩, List.Pairwise.nil, nofun, SlidingWindow.atMost_nil _ _,
    fun _ => Nat.zero_le _, nofun⟩

variable {maxRequestNum : ℕ} {duration expiration : ℤ} {s : RedisLimiter}

/-- The lists a key has before and after it may have expired. -/
theorem times_live (now : ℤ) (key : Option RedisTimes) :
    times (live now key) = times key ∨ (live now key).isNone ∧ times (live now key) = [] := by
  unfold live
  split
  · split
    · exact Or.inl rfl
    · exact Or.inr ⟨rfl, rfl⟩
  · exact Or.inl rfl

/-- At a later time, after the key may have expired with old times only. -/
theorem Inv.split_live (h : Inv maxRequestNum duration s) {i : ℕ} {now : ℤ}
    (hclock : s.clock ≤ now) (hkeeps : s.KeepsRecent duration (.step i now)) :
    ∃ lost, s.recorded = lost ++ (times (live now s.key)).reverse ∧
      ∀ t ∈ lost, t ≤ now - duration * 1000 := by
  obtain ⟨lost, hrecorded, hold⟩ := h.split
  have hold' : ∀ t ∈ lost, t ≤ now - duration * 1000 := by
    intro t ht
    have hle := hold t ht
    omega
  rcases times_live now s.key with hsame | ⟨hnone, hempty⟩
  · exact ⟨lost, by rw [hsame, hrecorded], hold'⟩
  · refine ⟨s.recorded, by rw [hempty]; simp, fun t ht => ?_⟩
    rw [hrecorded] at ht
    rcases List.mem_append.1 ht with ht | ht
    · exact hold' t ht
    · exact hkeeps hnone t (List.mem_reverse.1 ht)

/-- The times of the list count as all recorded times do. -/
theorem recent_recorded {lost list : List ℤ} {now d : ℤ} (hold : ∀ t ∈ lost, t ≤ now - d) :
    SlidingWindow.recent d now (lost ++ list.reverse) = SlidingWindow.recent d now list := by
  rw [SlidingWindow.recent_append_of_old hold, SlidingWindow.recent_reverse]

theorem sublist_live (now : ℤ) (key : Option RedisTimes) :
    (times (live now key)).Sublist (times key) := by
  rcases times_live now key with hsame | ⟨-, hempty⟩
  · rw [hsame]
  · rw [hempty]
    exact List.nil_sublist _

/-- **A call that was not disturbed finds room**: of the times in the list, fewer than
`maxRequestNum` are less than `duration` seconds old. -/
theorem Inv.room (h : Inv maxRequestNum duration s) {i : ℕ} {now : ℤ} {full : Bool} {seen : ℕ}
    (hclock : s.clock ≤ now) (hc : s.calls[i]? = some ⟨.lPush full, seen⟩)
    (hseen : s.recorded.length = seen) :
    SlidingWindow.recent (duration * 1000) now (times (live now s.key)) < maxRequestNum := by
  have hlive := sublist_live now s.key
  have hknown := (h.knows _ (List.mem_of_getElem? hc)).2 hseen.symm
  cases full with
  | false =>
    calc SlidingWindow.recent (duration * 1000) now (times (live now s.key))
        ≤ (times (live now s.key)).length := SlidingWindow.recent_le_length _ _ _
      _ ≤ (times s.key).length := hlive.length_le
      _ < maxRequestNum := hknown
  | true => exact (SlidingWindow.recent_le hclock hlive).trans_lt hknown

/-- A full list whose oldest time is old has room. -/
theorem recent_lt_of_oldest {list : List ℤ} {oldTime now d : ℤ}
    (hfits : list.length ≤ maxRequestNum) (hlast : list.getLast? = some oldTime)
    (hold : oldTime ≤ now - d) : SlidingWindow.recent d now list < maxRequestNum := by
  obtain ⟨newer, rfl⟩ := List.getLast?_eq_some_iff.1 hlast
  have hnone : SlidingWindow.recent d now [oldTime] = 0 := by
    apply SlidingWindow.recent_eq_zero
    intro t ht
    rwa [List.mem_singleton.1 ht]
  have hnewer := SlidingWindow.recent_le_length d now newer
  rw [List.length_append, List.length_singleton] at hfits
  rw [SlidingWindow.recent_append, hnone]
  omega

/-- What the comparison of the two times says. -/
theorem le_of_seconds {x duration : ℤ} (hpos : 0 < duration) (h : ¬x.tdiv 1000 < duration) :
    duration * 1000 ≤ x := by
  rcases le_or_gt 0 x with hx | hx
  · rw [Int.tdiv_eq_ediv_of_nonneg hx] at h
    omega
  · have hneg : x.tdiv 1000 ≤ 0 := by
      rw [← Int.neg_neg x, Int.neg_tdiv]
      exact Int.neg_nonpos_of_nonneg (Int.tdiv_nonneg (by omega) (by decide))
    omega

/-- The other calls and the one that has moved on. -/
theorem forall_set {P : RedisLimiterCall → Prop} {calls : List RedisLimiterCall} {i : ℕ}
    {new : RedisLimiterCall} (h : ∀ call ∈ calls, P call) (hnew : P new) :
    ∀ call ∈ calls.set i new, P call := by
  intro call hcall
  rcases List.mem_or_eq_of_mem_set hcall with hcall | rfl
  · exact h call hcall
  · exact hnew

theorem forall_of_set {P : RedisLimiterCall → Prop} {calls : List RedisLimiterCall} {i : ℕ}
    {old new : RedisLimiterCall} (hc : calls[i]? = some old) (hold : P old)
    (h : ∀ call ∈ calls.set i new, P call) : ∀ call ∈ calls, P call := by
  intro call hcall
  obtain ⟨j, hj⟩ := List.getElem?_of_mem hcall
  by_cases hij : i = j
  · subst hij
    rw [hc] at hj
    rwa [← Option.some.inj hj]
  · refine h call (List.mem_of_getElem? (i := j) ?_)
    rwa [List.getElem?_set_ne hij]

/-- **A push** of a call that finds room. -/
theorem Inv.push (h : Inv maxRequestNum duration s) {i : ℕ} {now : ℤ} {full : Bool}
    (hclock : s.clock ≤ now) (hc : s.calls[i]? = some ⟨.lPush full, s.recorded.length⟩)
    {lost : List ℤ} (hrecorded : s.recorded = lost ++ (times (live now s.key)).reverse)
    (hold : ∀ t ∈ lost, t ≤ now - duration * 1000) (e : Option ℤ) :
    Inv maxRequestNum duration
      ⟨some ⟨now :: times (live now s.key), e⟩,
        s.calls.set i ⟨if full then .lTrim else .expire true, s.recorded.length⟩, now,
        s.recorded ++ [now]⟩ where
  split := ⟨lost, by simp [hrecorded, times], hold⟩
  sorted := by
    refine List.pairwise_append.2 ⟨h.sorted, List.pairwise_singleton _ _, fun t ht u hu => ?_⟩
    rw [List.mem_singleton.1 hu]
    exact (h.past t ht).trans hclock
  past := by
    intro t ht
    rcases List.mem_append.1 ht with ht | ht
    · exact (h.past t ht).trans hclock
    · exact (List.mem_singleton.1 ht).le
  limit := by
    refine SlidingWindow.AtMost.concat h.limit ?_
    rw [hrecorded, recent_recorded hold]
    exact h.room hclock hc rfl
  fits := by
    intro hnone
    cases full with
    | true =>
      obtain ⟨hi, -⟩ := List.getElem?_eq_some_iff.1 hc
      exact absurd rfl (hnone _ (List.mem_set hi _))
    | false =>
      have hshort := (h.knows _ (List.mem_of_getElem? hc)).2 rfl
      exact Nat.succ_le_of_lt ((sublist_live now s.key).length_le.trans_lt hshort)
  knows := by
    rw [List.length_append, List.length_singleton]
    refine forall_set (fun call hcall => (h.knows call hcall).pushed) ⟨Nat.le_succ _, ?_⟩
    intro hseen
    simp at hseen

/-- **A trim** drops old times only: no more than `maxRequestNum` are recent. -/
theorem Inv.trim (h : Inv maxRequestNum duration s) {now : ℤ} (hclock : s.clock ≤ now)
    {lost list : List ℤ} (hrecorded : s.recorded = lost ++ list.reverse)
    (hold : ∀ t ∈ lost, t ≤ now - duration * 1000) :
    ∃ lost', s.recorded = lost' ++ (list.take maxRequestNum).reverse ∧
      ∀ t ∈ lost', t ≤ now - duration * 1000 := by
  have hrecent : SlidingWindow.recent (duration * 1000) now list ≤ maxRequestNum := by
    rw [← recent_recorded hold, ← hrecorded]
    exact h.limit.recent_le fun t ht => (h.past t ht).trans hclock
  have hlatest : list.Pairwise (· ≥ ·) := by
    have hsorted := h.sorted
    rw [hrecorded] at hsorted
    exact List.pairwise_reverse.1 (List.pairwise_append.1 hsorted).2.1
  refine ⟨lost ++ (list.drop maxRequestNum).reverse, ?_, fun t ht => ?_⟩
  · rw [hrecorded, List.append_assoc, ← List.reverse_append, List.take_append_drop]
  · rcases List.mem_append.1 ht with ht | ht
    · exact hold t ht
    · exact SlidingWindow.old_of_mem_drop hlatest hrecent t (List.mem_reverse.1 ht)

/-- A step that records nothing. -/
theorem Inv.quiet (h : Inv maxRequestNum duration s) {i : ℕ} {now : ℤ} {old new : RedisLimiterCall}
    (hclock : s.clock ≤ now) (hc : s.calls[i]? = some old) {key : Option RedisTimes}
    (hsplit : ∃ lost, s.recorded = lost ++ (times key).reverse ∧
      ∀ t ∈ lost, t ≤ now - duration * 1000)
    (hsub : (times key).Sublist (times s.key))
    (hfits : old.phase = .lTrim → (times key).length ≤ maxRequestNum)
    (hknows : new.Knows maxRequestNum duration (times key) now s.recorded.length) :
    Inv maxRequestNum duration ⟨key, s.calls.set i new, now, s.recorded ++ []⟩ := by
  rw [List.append_nil]
  refine ⟨hsplit, h.sorted, fun t ht => (h.past t ht).trans hclock, h.limit, fun hnone => ?_,
    forall_set (fun call hcall => (h.knows call hcall).mono hclock hsub) hknows⟩
  by_cases htrim : old.phase = .lTrim
  · exact hfits htrim
  · exact hsub.length_le.trans (h.fits (forall_of_set hc htrim hnone))

/-- **One step** of a call that is not disturbed. -/
theorem Inv.step (h : Inv maxRequestNum duration s) (hn : 0 < maxRequestNum)
    {a : RedisLimiterAction} (horder : s.InOrder a) (hkeeps : s.KeepsRecent duration a)
    (halone : s.Undisturbed a) :
    Inv maxRequestNum duration (s.step maxRequestNum duration expiration a) := by
  cases a with
  | begin =>
    refine ⟨h.split, h.sorted, h.past, h.limit, fun hnone => ?_, fun call hcall => ?_⟩
    · exact h.fits fun call hcall => hnone call (List.mem_append_left _ hcall)
    · rcases List.mem_append.1 hcall with hcall | hcall
      · exact h.knows call hcall
      · rw [List.mem_singleton.1 hcall]
        exact ⟨Nat.zero_le _, fun _ => trivial⟩
  | step i now =>
    obtain ⟨lost, hrecorded, hold⟩ := h.split_live horder hkeeps
    have hlive := sublist_live now s.key
    simp only [RedisLimiter.step]
    cases hc : s.calls[i]? with
    | none => exact h
    | some call =>
      obtain ⟨hpush, hindex⟩ := halone call hc
      have hknown := (h.knows call (List.mem_of_getElem? hc)).mono horder hlive
      obtain ⟨phase, seen⟩ := call
      cases phase with
      | lLen =>
        simp only [advance, if_true]
        split
        · exact h.quiet horder hc ⟨lost, hrecorded, hold⟩ hlive nofun ⟨le_rfl, fun _ => ‹_›⟩
        · exact h.quiet horder hc ⟨lost, hrecorded, hold⟩ hlive nofun
            ⟨le_rfl, fun _ => trivial⟩
      | lIndex =>
        simp only [advance, reduceCtorEq, if_false]
        split
        · exact h.quiet horder hc ⟨lost, hrecorded, hold⟩ hlive nofun
            ⟨hknown.1, fun _ => trivial⟩
        · rename_i oldTime hlast
          refine h.quiet horder hc ⟨lost, hrecorded, hold⟩ hlive nofun
            ⟨hknown.1, fun _ now' _ hold' => ?_⟩
          exact recent_lt_of_oldest (hlive.length_le.trans (h.fits (hindex rfl))) hlast hold'
      | check oldTime =>
        simp only [advance, reduceCtorEq, if_false]
        split
        · exact h.quiet horder hc ⟨lost, hrecorded, hold⟩ hlive nofun
            ⟨hknown.1, fun _ => trivial⟩
        · rename_i hlate
          refine h.quiet horder hc ⟨lost, hrecorded, hold⟩ hlive nofun
            ⟨hknown.1, fun hseen => ?_⟩
          rcases le_or_gt duration 0 with hzero | hpos
          · -- in an empty window nothing is recent
            have hnone : SlidingWindow.recent (duration * 1000) now
                (times (live now s.key)) = 0 := by
              apply SlidingWindow.recent_eq_zero
              intro t ht
              have hpast := h.past t (by rw [hrecorded]; simp [ht])
              have horder' : s.clock ≤ now := horder
              omega
            change SlidingWindow.recent _ _ _ < maxRequestNum
            rwa [hnone]
          · have hle := le_of_seconds hpos hlate
            exact hknown.2 hseen now le_rfl (by omega)
      | lPush full =>
        obtain rfl : s.recorded.length = seen := hpush full rfl
        exact h.push horder hc hrecorded hold _
      | lTrim =>
        simp only [advance, reduceCtorEq, if_false]
        cases hkey : live now s.key with
        | none =>
          rw [hkey] at hrecorded hlive
          exact h.quiet horder hc ⟨lost, hrecorded, hold⟩ hlive
            (fun _ => Nat.zero_le _) ⟨hknown.1, fun _ => trivial⟩
        | some list =>
          rw [hkey] at hrecorded hlive
          exact h.quiet horder hc (h.trim horder hrecorded hold)
            ((List.take_sublist _ _).trans hlive)
            (fun _ => List.length_take_le _ _) ⟨hknown.1, fun _ => trivial⟩
      | expire admitted =>
        simp only [advance, reduceCtorEq, if_false]
        have hsame : times ((live now s.key).map fun list =>
            { list with expireAt := some (now + expiration) }) = times (live now s.key) := by
          cases live now s.key <;> rfl
        refine h.quiet horder hc ?_ (by rwa [hsame]) nofun ⟨hknown.1, fun _ => trivial⟩
        rw [hsame]
        exact ⟨lost, hrecorded, hold⟩
      | finished admitted =>
        simp only [advance, reduceCtorEq, if_false]
        exact h.quiet horder hc ⟨lost, hrecorded, hold⟩ hlive nofun
          ⟨hknown.1, fun _ => trivial⟩

/-- **A run** of calls that are not disturbed, on a key that forgets no recent time. -/
theorem Inv.run (h : Inv maxRequestNum duration s) (hn : 0 < maxRequestNum)
    {as : List RedisLimiterAction}
    (horder : Transition.Along (RedisLimiter.step maxRequestNum duration expiration) InOrder s as)
    (hkeeps : Transition.Along (RedisLimiter.step maxRequestNum duration expiration)
      (KeepsRecent duration) s as)
    (halone : Transition.Along (RedisLimiter.step maxRequestNum duration expiration) Undisturbed
      s as) :
    Inv maxRequestNum duration
      (Transition.run (RedisLimiter.step maxRequestNum duration expiration) s as) := by
  induction as generalizing s with
  | nil => exact h
  | cons a as ih =>
    exact ih (h.step hn horder.1 hkeeps.1 halone.1) horder.2 hkeeps.2 halone.2

instance instDecidableInOrder (s : RedisLimiter) (a : RedisLimiterAction) :
    Decidable (s.InOrder a) := by
  cases a <;> unfold InOrder <;> infer_instance

instance instDecidableKeepsRecent (duration : ℤ) (s : RedisLimiter) (a : RedisLimiterAction) :
    Decidable (s.KeepsRecent duration a) := by
  cases a <;> unfold KeepsRecent <;> infer_instance

instance instDecidableUndisturbed (s : RedisLimiter) (a : RedisLimiterAction) :
    Decidable (s.Undisturbed a) := by
  cases a <;> unfold Undisturbed <;> infer_instance

end RedisLimiter

open RedisLimiter in
/-- **At most `maxRequestNum` calls are let through in a window**, whatever the interleaving of the
commands of any number of calls, as long as no call is disturbed between its look at the list and
its push and the key does not expire with a recent time in it. -/
theorem redis_limiter_keeps_limit (maxRequestNum : ℕ) (hn : 0 < maxRequestNum)
    (duration expiration clock : ℤ) (as : List RedisLimiterAction)
    (horder : Transition.Along (step maxRequestNum duration expiration) InOrder (init clock) as)
    (hkeeps : Transition.Along (step maxRequestNum duration expiration) (KeepsRecent duration)
      (init clock) as)
    (halone : Transition.Along (step maxRequestNum duration expiration) Undisturbed
      (init clock) as) :
    (Transition.run (step maxRequestNum duration expiration) (init clock) as).KeepsLimit
      maxRequestNum duration :=
  ((inv_init maxRequestNum duration clock).run hn horder hkeeps halone).limit

/-- Three calls: the second looks between the look and the push of the first and is refused, the
third comes after the window. -/
theorem redis_limiter_keeps_limit_three :
    (Transition.run (RedisLimiter.step 1 60 1200000) (RedisLimiter.init 0)
      [.begin, .step 0 0, .step 0 0, .step 0 0, .begin, .step 1 1000, .step 1 1000, .step 1 1000,
        .step 1 1000, .begin, .step 2 60000, .step 2 60000, .step 2 60000, .step 2 60000,
        .step 2 60000, .step 2 60000]).KeepsLimit 1 60 :=
  redis_limiter_keeps_limit 1 (by decide) 60 1200000 0 _ (by decide) (by decide) (by decide)

/-- **Two calls that look before either pushes are both let through**, where one is allowed. -/
theorem redis_limiter_lets_two_through :
    let as : List RedisLimiterAction :=
      [.begin, .begin, .step 0 0, .step 1 0, .step 0 0, .step 1 0, .step 0 0, .step 1 0]
    let s := Transition.run (RedisLimiter.step 1 1200 1200000) (RedisLimiter.init 0) as
    Transition.Along (RedisLimiter.step 1 1200 1200000) RedisLimiter.InOrder
        (RedisLimiter.init 0) as ∧
      s.calls.map (·.phase) = [.finished true, .finished true] ∧ s.recorded = [0, 0] ∧
      ¬s.KeepsLimit 1 1200 := by
  refine ⟨by decide, by decide, by decide, ?_⟩
  intro hlimit
  have hmany := hlimit 0
  revert hmany
  decide

end NewApi
