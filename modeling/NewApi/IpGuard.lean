/-
**The IP guard, by its rules and on two backends.**

`src/service/ip_guard.go`: a user seen from `DistinctIPLimit` different addresses within
`WindowSeconds` gets a strike and has his tokens disabled; `StrikeLimit` strikes within
`StrikeWindowSec` ban him.  With Redis the addresses are a sorted set and the strikes a counter
that expires; without it both are kept in memory, in a map and a list of times.

The two backends differ at the edges.  The sorted set drops an address seen exactly
`WindowSeconds` ago, the map keeps it.  And the counter lives on with every strike, so it counts
the strikes of a chain without a long pause, of which the first may be long past; the list keeps
the strikes of the window, the one exactly at its edge included.

Main definitions:

* `NewApi.recordIPRedis`, `NewApi.recordIPMemory`, `NewApi.resetIPWindow`, `NewApi.incrStrike`,
  `NewApi.checkIPGuard` — the guard on either backend;
* `NewApi.IPGuardHistory.rule` — what the rules say about a call;
* `NewApi.IPGuardRun` — both backends and the rules side by side.

Main results:

* `NewApi.GuardFollows.result` — what a backend answers, in terms of the history of the user;
* `NewApi.ip_guard_by_the_rules` — **the calls on which both backends follow the rules**.
-/

import NewApi.Lib.LastSeen
import NewApi.Lib.SlidingWindow
import NewApi.Lib.Transition
import Mathlib.Tactic.Ring

set_option autoImplicit false

namespace NewApi

/-! ### The guard -/

/-- `ipGuardConfig`. -/
structure IPGuardConfig where
  enabled : Bool
  windowSeconds : ℤ
  distinctIPLimit : ℤ
  strikeWindowSec : ℤ
  strikeLimit : ℤ

/-- `IPGuardResult`. -/
structure IPGuardResult where
  triggerDisable : Bool
  triggerBan : Bool
  distinctIPs : ℤ
  deriving DecidableEq, Repr

/-- `IPGuardResult{}`. -/
def IPGuardResult.none : IPGuardResult := ⟨false, false, 0⟩

/-- The stores of the guard by user: the Redis keys `ipguard:ips:%d` and `ipguard:strikes:%d`,
each with the time it expires at, `memIPWindows` and `memStrikeTimes`. -/
structure IPGuardStore where
  redisIPs : ℤ → Option (List (String × ℤ) × ℤ)
  redisStrikes : ℤ → Option (ℕ × ℤ)
  memIPWindows : ℤ → Option (List (String × ℤ))
  memStrikeTimes : ℤ → List ℤ

/-- Nothing is stored yet. -/
def IPGuardStore.empty : IPGuardStore where
  redisIPs := fun _ => none
  redisStrikes := fun _ => none
  memIPWindows := fun _ => none
  memStrikeTimes := fun _ => []

/-- The value of a Redis key at a time, unless it has expired. -/
def live {α : Type*} (clock : ℤ) : Option (α × ℤ) → Option α
  | none => none
  | some (value, expireAt) => if clock < expireAt then some value else none

/-- `recordIPRedis`: `ZADD`, `ZREMRANGEBYSCORE` from 0 to the cutoff, `ZCARD` and `EXPIRE`.  The
caller has read the time as `now`; on the server it is `clock`. -/
def recordIPRedis (cfg : IPGuardConfig) (s : IPGuardStore) (userId : ℤ) (clientIP : String)
    (now clock : ℤ) : IPGuardStore × ℕ :=
  let cutoff := now - cfg.windowSeconds
  let added := LastSeen.touch clientIP now ((live clock (s.redisIPs userId)).getD [])
  let kept := added.filter fun e => ¬(0 ≤ e.2 ∧ e.2 ≤ cutoff)
  ({ s with
      redisIPs := Function.update s.redisIPs userId (some (kept, clock + cfg.windowSeconds)) },
    kept.length)

/-- `recordIPMemory`. -/
def recordIPMemory (cfg : IPGuardConfig) (s : IPGuardStore) (userId : ℤ) (clientIP : String)
    (now : ℤ) : IPGuardStore × ℕ :=
  let cutoff := now - cfg.windowSeconds
  let window := LastSeen.touch clientIP now ((s.memIPWindows userId).getD [])
  let kept := window.filter fun e => ¬e.2 < cutoff
  ({ s with memIPWindows := Function.update s.memIPWindows userId (some kept) }, kept.length)

/-- The choice of the backend in `CheckIPGuard`. -/
def recordIP (cfg : IPGuardConfig) (redisEnabled : Bool) (s : IPGuardStore) (userId : ℤ)
    (clientIP : String) (now clock : ℤ) : IPGuardStore × ℕ :=
  if redisEnabled then recordIPRedis cfg s userId clientIP now clock
  else recordIPMemory cfg s userId clientIP now

/-- `resetIPWindow`. -/
def resetIPWindow (redisEnabled : Bool) (s : IPGuardStore) (userId : ℤ) : IPGuardStore :=
  if redisEnabled then { s with redisIPs := Function.update s.redisIPs userId none }
  else { s with memIPWindows := Function.update s.memIPWindows userId none }

/-- `incrStrike`: on Redis `INCR` and `EXPIRE`, in memory a list that is pruned first. -/
def incrStrike (cfg : IPGuardConfig) (redisEnabled : Bool) (s : IPGuardStore) (userId : ℤ)
    (now clock : ℤ) : IPGuardStore × ℕ :=
  if redisEnabled then
    let count := (live clock (s.redisStrikes userId)).getD 0 + 1
    ({ s with
        redisStrikes := Function.update s.redisStrikes userId
          (some (count, clock + cfg.strikeWindowSec)) },
      count)
  else
    let cutoff := now - cfg.strikeWindowSec
    let kept := (s.memStrikeTimes userId).filter (fun ts => ts ≥ cutoff) ++ [now]
    ({ s with memStrikeTimes := Function.update s.memStrikeTimes userId kept }, kept.length)

/-- The calls that `CheckIPGuard` lets pass unrecorded. -/
def IPGuardConfig.skips (cfg : IPGuardConfig) (userId : ℤ) (clientIP : String) : Bool :=
  !cfg.enabled || userId ≤ 0 || clientIP == ""

/-- `CheckIPGuard`.  Disabling the tokens and banning the user change nothing that it reads. -/
def checkIPGuard (cfg : IPGuardConfig) (redisEnabled : Bool) (s : IPGuardStore) (userId : ℤ)
    (clientIP : String) (now : ℤ) : IPGuardStore × IPGuardResult :=
  if cfg.skips userId clientIP then (s, .none)
  else
    let recorded := recordIP cfg redisEnabled s userId clientIP now now
    if (recorded.2 : ℤ) < cfg.distinctIPLimit then (recorded.1, ⟨false, false, recorded.2⟩)
    else
      let struck := incrStrike cfg redisEnabled (resetIPWindow redisEnabled recorded.1 userId)
        userId now now
      (struck.1, ⟨true, decide (cfg.strikeLimit ≤ struck.2), recorded.2⟩)

/-! ### The rules -/

/-- What has happened to the users: the addresses each was seen from since his last trigger, with
the times, and the times of his triggers, the latest first. -/
structure IPGuardHistory where
  seen : ℤ → List (String × ℤ)
  triggers : ℤ → List ℤ

/-- A call of `CheckIPGuard`, with the time it reads. -/
structure IPGuardCall where
  userId : ℤ
  clientIP : String
  now : ℤ

namespace IPGuardHistory

/-- Nothing has happened yet. -/
def empty : IPGuardHistory := ⟨fun _ => [], fun _ => []⟩

/-- The sightings of the user since his last trigger, this call included. -/
def seenWith (h : IPGuardHistory) (c : IPGuardCall) : List (String × ℤ) :=
  h.seen c.userId ++ [(c.clientIP, c.now)]

/-- The answer to a call, if the addresses seen after `lo` count and `strikes` earlier strikes
do. -/
def answer (cfg : IPGuardConfig) (h : IPGuardHistory) (c : IPGuardCall) (lo : ℤ)
    (strikes : ℕ) : IPGuardResult :=
  if cfg.skips c.userId c.clientIP then .none
  else
    let distinct := LastSeen.distinct lo (h.seenWith c)
    if (distinct : ℤ) < cfg.distinctIPLimit then ⟨false, false, distinct⟩
    else ⟨true, decide (cfg.strikeLimit ≤ (strikes + 1 : ℕ)), distinct⟩

/-- **The rules**: the addresses of the last `WindowSeconds` since the last trigger count, and the
strikes of the last `StrikeWindowSec` seconds do. -/
def rule (cfg : IPGuardConfig) (h : IPGuardHistory) (c : IPGuardCall) : IPGuardResult :=
  h.answer cfg c (c.now - cfg.windowSeconds)
    (SlidingWindow.recent cfg.strikeWindowSec c.now (h.triggers c.userId))

/-- The history after a call with a given answer. -/
def next (cfg : IPGuardConfig) (h : IPGuardHistory) (c : IPGuardCall)
    (result : IPGuardResult) : IPGuardHistory :=
  if cfg.skips c.userId c.clientIP then h
  else if result.triggerDisable then
    { seen := Function.update h.seen c.userId []
      triggers := Function.update h.triggers c.userId (c.now :: h.triggers c.userId) }
  else { h with seen := Function.update h.seen c.userId (h.seenWith c) }

end IPGuardHistory

/-- The strikes of a chain that reaches up to `now`: each less than `sw` before the next. -/
def chained (sw : ℤ) : ℤ → List ℤ → ℕ
  | _, [] => 0
  | now, t :: ts => if now < t + sw then chained sw t ts + 1 else 0

/-! ### Both backends side by side -/

/-- The stores with and without Redis, the history by the rules, and the results so far: with
Redis, in memory, and by the rules. -/
structure IPGuardRun where
  redis : IPGuardStore
  memory : IPGuardStore
  history : IPGuardHistory
  clock : ℤ
  results : List (IPGuardResult × IPGuardResult × IPGuardResult)

namespace IPGuardRun

def init : IPGuardRun := ⟨.empty, .empty, .empty, 0, []⟩

/-- One call, made with either backend. -/
def step (cfg : IPGuardConfig) (s : IPGuardRun) (c : IPGuardCall) : IPGuardRun where
  redis := (checkIPGuard cfg true s.redis c.userId c.clientIP c.now).1
  memory := (checkIPGuard cfg false s.memory c.userId c.clientIP c.now).1
  history := s.history.next cfg c (s.history.rule cfg c)
  clock := c.now
  results := s.results ++
    [((checkIPGuard cfg true s.redis c.userId c.clientIP c.now).2,
      (checkIPGuard cfg false s.memory c.userId c.clientIP c.now).2, s.history.rule cfg c)]

/-- Time does not go back. -/
def InOrder (s : IPGuardRun) (c : IPGuardCall) : Prop := s.clock ≤ c.now

/-- Both backends have followed the rules. -/
def ByTheRules (s : IPGuardRun) : Prop := ∀ r ∈ s.results, r.1 = r.2.2 ∧ r.2.1 = r.2.2

/-- **A call at which the edges of the windows make no difference**: no address counts only
because it was seen exactly `WindowSeconds` ago, and where the call triggers, `StrikeLimit` is not
reached only by strikes of the chain that are too old, nor only by one exactly
`StrikeWindowSec` old. -/
def OffTheEdges (cfg : IPGuardConfig) (s : IPGuardRun) (c : IPGuardCall) : Prop :=
  let seen := s.history.seenWith c
  let strikes := s.history.triggers c.userId
  let sw := cfg.strikeWindowSec
  let banned (count : ℕ) : Prop := cfg.strikeLimit ≤ (count + 1 : ℕ)
  cfg.skips c.userId c.clientIP = false →
    LastSeen.distinct (c.now - cfg.windowSeconds - 1) seen =
      LastSeen.distinct (c.now - cfg.windowSeconds) seen ∧
    (cfg.distinctIPLimit ≤ LastSeen.distinct (c.now - cfg.windowSeconds) seen →
      (banned (chained sw c.now strikes) → banned (SlidingWindow.recent sw c.now strikes)) ∧
      (banned (SlidingWindow.recent (sw + 1) c.now strikes) →
        banned (SlidingWindow.recent sw c.now strikes)))

instance instDecidableInOrder (s : IPGuardRun) (c : IPGuardCall) : Decidable (s.InOrder c) := by
  unfold InOrder; infer_instance

instance instDecidableByTheRules (s : IPGuardRun) : Decidable s.ByTheRules := by
  unfold ByTheRules; infer_instance

instance instDecidableOffTheEdges (cfg : IPGuardConfig) (s : IPGuardRun) (c : IPGuardCall) :
    Decidable (s.OffTheEdges cfg c) := by
  unfold OffTheEdges; infer_instance

end IPGuardRun

/-! ### What a backend keeps of the history -/

/-- The addresses a backend has for a user at a time. -/
def IPGuardStore.window (redisEnabled : Bool) (s : IPGuardStore) (userId now : ℤ) :
    List (String × ℤ) :=
  if redisEnabled then (live now (s.redisIPs userId)).getD []
  else (s.memIPWindows userId).getD []

/-- The strikes a backend has for a user at a time. -/
def IPGuardStore.strikes (cfg : IPGuardConfig) (redisEnabled : Bool) (s : IPGuardStore)
    (userId now : ℤ) : ℕ :=
  if redisEnabled then (live now (s.redisStrikes userId)).getD 0
  else SlidingWindow.recent (cfg.strikeWindowSec + 1) now (s.memStrikeTimes userId)

/-- The time after which a backend counts the addresses. -/
def IPGuardConfig.bound (cfg : IPGuardConfig) (redisEnabled : Bool) (now : ℤ) : ℤ :=
  if redisEnabled then now - cfg.windowSeconds else now - cfg.windowSeconds - 1

/-- The earlier strikes a backend counts. -/
def IPGuardConfig.counted (cfg : IPGuardConfig) (redisEnabled : Bool) (now : ℤ)
    (triggers : List ℤ) : ℕ :=
  if redisEnabled then chained cfg.strikeWindowSec now triggers
  else SlidingWindow.recent (cfg.strikeWindowSec + 1) now triggers

/-- A backend follows the history of a user: at any time from `clock` on it has what the history
says it counts. -/
structure GuardFollows (cfg : IPGuardConfig) (redisEnabled : Bool) (s : IPGuardStore)
    (h : IPGuardHistory) (clock userId : ℤ) : Prop where
  window : ∀ now, clock ≤ now →
    LastSeen.Tracks (cfg.bound redisEnabled now) (s.window redisEnabled userId now)
      (h.seen userId)
  nonneg : ∀ now, ∀ e ∈ s.window redisEnabled userId now, 0 ≤ e.2
  strikes : ∀ now, clock ≤ now →
    s.strikes cfg redisEnabled userId now = cfg.counted redisEnabled now (h.triggers userId)

/-- The history of a user is over at `clock`. -/
structure Past (h : IPGuardHistory) (clock userId : ℤ) : Prop where
  seen : ∀ e ∈ h.seen userId, e.2 ≤ clock
  triggers : ∀ t ∈ h.triggers userId, t ≤ clock
  sorted : (h.triggers userId).Pairwise (· ≥ ·)

theorem follows_empty (cfg : IPGuardConfig) (redisEnabled : Bool) (clock userId : ℤ) :
    GuardFollows cfg redisEnabled .empty .empty clock userId := by
  refine ⟨fun now _ => ?_, fun now e he => ?_, fun now _ => ?_⟩ <;> cases redisEnabled
  · exact LastSeen.tracks_nil _
  · exact LastSeen.tracks_nil _
  · cases he
  · cases he
  · rfl
  · rfl

section Backend

variable {cfg : IPGuardConfig} {redisEnabled : Bool} {s s' : IPGuardStore}
  {h h' : IPGuardHistory} {clock now userId : ℤ} {clientIP : String}

/-- What is stored for a user decides whether a backend follows his history, and time may pass. -/
theorem GuardFollows.frame (hf : GuardFollows cfg redisEnabled s h clock userId)
    (hwindow : ∀ t, s'.window redisEnabled userId t = s.window redisEnabled userId t)
    (hstrikes : ∀ t, s'.strikes cfg redisEnabled userId t = s.strikes cfg redisEnabled userId t)
    (hseen : h'.seen userId = h.seen userId) (htriggers : h'.triggers userId = h.triggers userId)
    (hclock : clock ≤ now) : GuardFollows cfg redisEnabled s' h' now userId where
  window := by
    intro t ht
    rw [hwindow, hseen]
    exact hf.window t (hclock.trans ht)
  nonneg := by
    intro t e he
    rw [hwindow] at he
    exact hf.nonneg t e he
  strikes := by
    intro t ht
    rw [hstrikes, htriggers]
    exact hf.strikes t (hclock.trans ht)

/-- Entries are dropped by Redis exactly if they are not after the cutoff, as no time is
negative. -/
theorem filter_redis {table : List (String × ℤ)} (hnonneg : ∀ e ∈ table, 0 ≤ e.2) (cutoff : ℤ) :
    table.filter (fun e => ¬(0 ≤ e.2 ∧ e.2 ≤ cutoff)) = LastSeen.after cutoff table := by
  apply List.filter_congr
  intro e he
  simp [hnonneg e he]

theorem filter_memory (table : List (String × ℤ)) (cutoff : ℤ) :
    table.filter (fun e => ¬e.2 < cutoff) = LastSeen.after (cutoff - 1) table := by
  apply List.filter_congr
  intro e _
  exact decide_eq_decide.2 (by omega)

theorem nonneg_touch {table : List (String × ℤ)} (hnonneg : ∀ e ∈ table, 0 ≤ e.2)
    (hnow : 0 ≤ now) : ∀ e ∈ LastSeen.touch clientIP now table, 0 ≤ e.2 := by
  intro e he
  rcases List.mem_append.1 he with he | he
  · exact hnonneg e (List.mem_filter.1 he).1
  · rw [List.mem_singleton.1 he]
    exact hnow

/-- **Recording an address**: the backend finds the addresses the history has after its bound, and
follows the history with the new sighting. -/
theorem GuardFollows.recordIP (hf : GuardFollows cfg redisEnabled s h clock userId)
    (hpast : Past h clock userId) (hclock : clock ≤ now) (hnow : 0 ≤ now)
    (hseen : h'.seen userId = h.seen userId ++ [(clientIP, now)])
    (htriggers : h'.triggers userId = h.triggers userId) :
    (recordIP cfg redisEnabled s userId clientIP now now).2 =
        LastSeen.distinct (cfg.bound redisEnabled now) (h'.seen userId) ∧
      GuardFollows cfg redisEnabled (recordIP cfg redisEnabled s userId clientIP now now).1 h' now
        userId := by
  have hold : ∀ e ∈ h.seen userId, e.2 ≤ now := fun e he => (hpast.seen e he).trans hclock
  have htouch := (hf.window now hclock).touch hold clientIP
  have hnonneg := @nonneg_touch now clientIP _ (hf.nonneg now) hnow
  rw [← hseen] at htouch
  have hlate : ∀ e ∈ h'.seen userId, e.2 ≤ now := by
    intro e he
    rw [hseen] at he
    rcases List.mem_append.1 he with he | he
    · exact hold e he
    · rw [List.mem_singleton.1 he]
  cases redisEnabled with
  | true =>
    have hkept := filter_redis hnonneg (now - cfg.windowSeconds)
    have htracks := htouch.after le_rfl
    simp only [IPGuardStore.window, IPGuardConfig.bound, if_true] at htouch htracks hkept
    simp only [NewApi.recordIP, recordIPRedis, if_true, hkept]
    refine ⟨htouch.length_after le_rfl, fun t ht => ?_, fun t e he => ?_, fun t ht => ?_⟩
    · simp only [IPGuardStore.window, IPGuardConfig.bound, if_true, Function.update_self, live]
      split
      · exact htracks.mono (by omega)
      · exact LastSeen.tracks_of_old fun e he => by
          have hle := hlate e he
          omega
    · simp only [IPGuardStore.window, if_true, Function.update_self, live] at he
      split at he
      · exact hnonneg e (List.mem_filter.1 he).1
      · cases he
    · rw [htriggers]
      exact hf.strikes t (hclock.trans ht)
  | false =>
    have hkept := filter_memory
      (LastSeen.touch clientIP now ((s.memIPWindows userId).getD [])) (now - cfg.windowSeconds)
    have htracks := htouch.after le_rfl
    simp only [IPGuardStore.window, IPGuardConfig.bound, Bool.false_eq_true, if_false]
      at htouch htracks hnonneg
    simp only [NewApi.recordIP, recordIPMemory, Bool.false_eq_true, if_false, hkept]
    refine ⟨htouch.length_after le_rfl, fun t ht => ?_, fun t e he => ?_, fun t ht => ?_⟩
    · simp only [IPGuardStore.window, IPGuardConfig.bound, Bool.false_eq_true, if_false,
        Function.update_self, Option.getD_some]
      exact htracks.mono (by omega)
    · simp only [IPGuardStore.window, Bool.false_eq_true, if_false, Function.update_self,
        Option.getD_some] at he
      exact hnonneg e (List.mem_filter.1 he).1
    · rw [htriggers]
      exact hf.strikes t (hclock.trans ht)

/-- **A trigger**: the addresses are forgotten, and one strike more is counted. -/
theorem GuardFollows.trigger (hf : GuardFollows cfg redisEnabled s h now userId)
    (hseen : h'.seen userId = []) (htriggers : h'.triggers userId = now :: h.triggers userId) :
    let struck := incrStrike cfg redisEnabled (resetIPWindow redisEnabled s userId) userId now now
    struck.2 = cfg.counted redisEnabled now (h.triggers userId) + 1 ∧
      GuardFollows cfg redisEnabled struck.1 h' now userId := by
  have hcount := hf.strikes now le_rfl
  cases redisEnabled with
  | true =>
    simp only [IPGuardStore.strikes, IPGuardConfig.counted, if_true] at hcount
    simp only [incrStrike, resetIPWindow, IPGuardConfig.counted, if_true, hcount]
    refine ⟨trivial, fun t ht => ?_, fun t e he => ?_, fun t ht => ?_⟩
    · simp only [IPGuardStore.window, if_true, Function.update_self, hseen]
      exact LastSeen.tracks_nil _
    · simp only [IPGuardStore.window, if_true, Function.update_self] at he
      cases he
    · simp only [IPGuardStore.strikes, IPGuardConfig.counted, if_true, Function.update_self,
        htriggers, chained, live]
      split <;> rfl
  | false =>
    simp only [IPGuardStore.strikes, IPGuardConfig.counted, Bool.false_eq_true, if_false]
      at hcount
    simp only [incrStrike, resetIPWindow, IPGuardConfig.counted, Bool.false_eq_true, if_false]
    refine ⟨?_, fun t ht => ?_, fun t e he => ?_, fun t ht => ?_⟩
    · rw [← hcount, List.length_append, List.length_singleton, SlidingWindow.recent,
        List.countP_eq_length_filter]
      congr 3
      funext x
      congr 1
      apply propext
      omega
    · simp only [IPGuardStore.window, Bool.false_eq_true, if_false, Function.update_self, hseen]
      exact LastSeen.tracks_nil _
    · simp only [IPGuardStore.window, Bool.false_eq_true, if_false, Function.update_self] at he
      cases he
    · simp only [IPGuardStore.strikes, IPGuardConfig.counted, Bool.false_eq_true, if_false,
        Function.update_self, htriggers]
      have hrest := hf.strikes t ht
      simp only [IPGuardStore.strikes, IPGuardConfig.counted, Bool.false_eq_true, if_false]
        at hrest
      -- what was pruned would not count at any later time either
      have hpruned : SlidingWindow.recent (cfg.strikeWindowSec + 1) t
          ((s.memStrikeTimes userId).filter fun ts => ts ≥ now - cfg.strikeWindowSec) =
          SlidingWindow.recent (cfg.strikeWindowSec + 1) t (s.memStrikeTimes userId) := by
        rw [SlidingWindow.recent, List.countP_filter]
        apply List.countP_congr
        intro x _
        simp only [Bool.and_eq_true, decide_eq_true_eq]
        omega
      have hcons : now :: h.triggers userId = [now] ++ h.triggers userId := rfl
      rw [SlidingWindow.recent_append, hpruned, hrest, hcons, SlidingWindow.recent_append,
        Nat.add_comm]

/-- **One call**: the backend answers with what it counts of the history, and follows the history
that this answer leads to. -/
theorem GuardFollows.result {c : IPGuardCall}
    (hf : GuardFollows cfg redisEnabled s h clock c.userId) (hpast : Past h clock c.userId)
    (hclock : clock ≤ c.now) (hnow : 0 ≤ c.now) :
    let out := checkIPGuard cfg redisEnabled s c.userId c.clientIP c.now
    out.2 = h.answer cfg c (cfg.bound redisEnabled c.now)
        (cfg.counted redisEnabled c.now (h.triggers c.userId)) ∧
      GuardFollows cfg redisEnabled out.1 (h.next cfg c out.2) c.now c.userId := by
  unfold checkIPGuard IPGuardHistory.answer IPGuardHistory.next
  by_cases hskip : cfg.skips c.userId c.clientIP = true
  · simp only [hskip, if_true]
    exact ⟨trivial, hf.frame (fun _ => rfl) (fun _ => rfl) rfl rfl hclock⟩
  · simp only [hskip, Bool.false_eq_true, if_false]
    let recorded : IPGuardHistory :=
      { h with seen := Function.update h.seen c.userId (h.seenWith c) }
    have hseen : recorded.seen c.userId = h.seenWith c := Function.update_self ..
    have htriggers : recorded.triggers c.userId = h.triggers c.userId := rfl
    obtain ⟨hcount, hrecorded⟩ := hf.recordIP hpast hclock hnow hseen htriggers
    rw [hseen] at hcount
    rw [hcount]
    by_cases hfew : (LastSeen.distinct (cfg.bound redisEnabled c.now) (h.seenWith c) : ℤ) <
        cfg.distinctIPLimit
    · simp only [hfew, if_true, Bool.false_eq_true, if_false]
      exact ⟨trivial, hrecorded⟩
    · simp only [hfew, if_false, if_true]
      let triggered : IPGuardHistory :=
        { seen := Function.update h.seen c.userId []
          triggers := Function.update h.triggers c.userId (c.now :: h.triggers c.userId) }
      have hcleared : triggered.seen c.userId = [] := Function.update_self ..
      have hadded : triggered.triggers c.userId = c.now :: h.triggers c.userId :=
        Function.update_self ..
      obtain ⟨hstrikes, htriggered⟩ := hrecorded.trigger hcleared hadded
      exact ⟨by rw [hstrikes], htriggered⟩

/-- A call for one user leaves the stores of the others alone. -/
theorem checkIPGuard_other {other : ℤ} (h : other ≠ userId) :
    let out := (checkIPGuard cfg redisEnabled s userId clientIP now).1
    (∀ t, out.window redisEnabled other t = s.window redisEnabled other t) ∧
      ∀ t, out.strikes cfg redisEnabled other t = s.strikes cfg redisEnabled other t := by
  unfold checkIPGuard
  split
  · exact ⟨fun _ => rfl, fun _ => rfl⟩
  · dsimp only
    cases redisEnabled <;> split <;>
      simp [NewApi.recordIP, recordIPRedis, recordIPMemory, resetIPWindow, incrStrike,
        IPGuardStore.window, IPGuardStore.strikes, h]

/-- A call for one user leaves the history of the others alone. -/
theorem next_other {c : IPGuardCall} {other : ℤ} (hne : other ≠ c.userId) (r : IPGuardResult) :
    (h.next cfg c r).seen other = h.seen other ∧
      (h.next cfg c r).triggers other = h.triggers other := by
  unfold IPGuardHistory.next
  split
  · exact ⟨rfl, rfl⟩
  · split <;> simp [hne]

/-- The history is over at the time of its last call. -/
theorem Past.next {u : ℤ} (hpast : Past h clock u) {c : IPGuardCall} (hclock : clock ≤ c.now)
    (r : IPGuardResult) : Past (h.next cfg c r) c.now u := by
  have hlater : Past h c.now u :=
    ⟨fun e he => (hpast.seen e he).trans hclock,
      fun t ht => (hpast.triggers t ht).trans hclock, hpast.sorted⟩
  by_cases hu : u = c.userId
  · subst hu
    unfold IPGuardHistory.next
    split
    · exact hlater
    · split
      · refine ⟨?_, ?_, ?_⟩ <;> simp only [Function.update_self]
        · intro e he
          cases he
        · intro t ht
          rcases List.mem_cons.1 ht with rfl | ht
          · exact le_rfl
          · exact hlater.triggers t ht
        · exact List.pairwise_cons.2 ⟨hlater.triggers, hpast.sorted⟩
      · refine ⟨?_, hlater.triggers, hpast.sorted⟩
        simp only [Function.update_self]
        intro e he
        rcases List.mem_append.1 he with he | he
        · exact hlater.seen e he
        · rw [List.mem_singleton.1 he]
  · obtain ⟨hseen, htriggers⟩ := @next_other cfg h c _ hu r
    refine ⟨?_, ?_, ?_⟩
    · rw [hseen]
      exact hlater.seen
    · rw [htriggers]
      exact hlater.triggers
    · rw [htriggers]
      exact hpast.sorted

end Backend

/-! ### The edges of the windows -/

/-- The strikes of the window belong to the chain. -/
theorem recent_le_chained (sw : ℤ) {strikes : List ℤ} (hsorted : strikes.Pairwise (· ≥ ·)) :
    ∀ now, (∀ t ∈ strikes, t ≤ now) →
      SlidingWindow.recent sw now strikes ≤ chained sw now strikes := by
  induction strikes with
  | nil => exact fun _ _ => Nat.zero_le _
  | cons t ts ih =>
    intro now hnow
    obtain ⟨hlatest, hrest⟩ := List.pairwise_cons.1 hsorted
    have htnow : t ≤ now := hnow t List.mem_cons_self
    by_cases hgap : now < t + sw
    · have hih := ih hrest t hlatest
      -- seen from `now`, fewer of the earlier strikes are recent than seen from `t`
      have hfewer : SlidingWindow.recent sw now ts ≤ SlidingWindow.recent sw t ts := by
        apply List.countP_mono_left
        intro x _ hx
        simp only [decide_eq_true_eq] at hx ⊢
        omega
      have hone : SlidingWindow.recent sw now (t :: ts) ≤
          SlidingWindow.recent sw now ts + 1 := by
        rw [SlidingWindow.recent, SlidingWindow.recent, List.countP_cons]
        split <;> omega
      simp only [chained, if_pos hgap]
      omega
    · have hnone : SlidingWindow.recent sw now (t :: ts) = 0 := by
        apply SlidingWindow.recent_eq_zero
        intro x hx
        rcases List.mem_cons.1 hx with rfl | hx
        · omega
        · have hle := hlatest x hx
          omega
      rw [hnone]
      exact Nat.zero_le _

/-- A window that includes its edge holds at least as many strikes. -/
theorem recent_le_recent_edge (sw now : ℤ) (strikes : List ℤ) :
    SlidingWindow.recent sw now strikes ≤ SlidingWindow.recent (sw + 1) now strikes := by
  apply List.countP_mono_left
  intro x _ hx
  simp only [decide_eq_true_eq] at hx ⊢
  omega

namespace IPGuardHistory

/-- When two ways of counting give the same answer. -/
theorem answer_eq_iff (cfg : IPGuardConfig) (h : IPGuardHistory) (c : IPGuardCall)
    (lo lo' : ℤ) (k k' : ℕ) (hskip : cfg.skips c.userId c.clientIP = false) :
    h.answer cfg c lo k = h.answer cfg c lo' k' ↔
      LastSeen.distinct lo (h.seenWith c) = LastSeen.distinct lo' (h.seenWith c) ∧
        (cfg.distinctIPLimit ≤ LastSeen.distinct lo' (h.seenWith c) →
          (cfg.strikeLimit ≤ (k + 1 : ℕ) ↔ cfg.strikeLimit ≤ (k' + 1 : ℕ))) := by
  have hdistinct : ∀ lo k, (h.answer cfg c lo k).distinctIPs =
      LastSeen.distinct lo (h.seenWith c) := by
    intro lo k
    simp only [answer, hskip, Bool.false_eq_true, if_false]
    split <;> rfl
  constructor
  · intro heq
    have hsame : LastSeen.distinct lo (h.seenWith c) = LastSeen.distinct lo' (h.seenWith c) := by
      have hd := congrArg IPGuardResult.distinctIPs heq
      rw [hdistinct, hdistinct] at hd
      exact_mod_cast hd
    refine ⟨hsame, fun hlimit => ?_⟩
    simp only [answer, hskip, Bool.false_eq_true, if_false, hsame, not_lt.2 hlimit] at heq
    simpa using heq
  · rintro ⟨hsame, hban⟩
    simp only [answer, hskip, Bool.false_eq_true, if_false, hsame]
    split
    · rfl
    · rename_i hlimit
      rw [decide_eq_decide.2 (hban (not_lt.1 hlimit))]

end IPGuardHistory

namespace IPGuardRun

variable {cfg : IPGuardConfig}

/-- As long as both backends have followed the rules, both follow the history of every user. -/
structure Inv (cfg : IPGuardConfig) (s : IPGuardRun) : Prop where
  nonneg : 0 ≤ s.clock
  past : ∀ u, Past s.history s.clock u
  redis : ∀ u, GuardFollows cfg true s.redis s.history s.clock u
  memory : ∀ u, GuardFollows cfg false s.memory s.history s.clock u

theorem inv_init (cfg : IPGuardConfig) : Inv cfg init where
  nonneg := le_rfl
  past := by
    intro u
    refine ⟨?_, ?_, List.Pairwise.nil⟩
    · intro e he
      cases he
    · intro t ht
      cases ht
  redis := fun u => follows_empty cfg true 0 u
  memory := fun u => follows_empty cfg false 0 u

/-- **The answers to a call are by the rules exactly if it is off the edges.** -/
theorem Inv.answers {s : IPGuardRun} (hinv : Inv cfg s) {c : IPGuardCall}
    (horder : s.InOrder c) :
    ((checkIPGuard cfg true s.redis c.userId c.clientIP c.now).2 = s.history.rule cfg c ∧
      (checkIPGuard cfg false s.memory c.userId c.clientIP c.now).2 = s.history.rule cfg c) ↔
      s.OffTheEdges cfg c := by
  have hnow : 0 ≤ c.now := hinv.nonneg.trans horder
  have hpast := hinv.past c.userId
  rw [((hinv.redis c.userId).result hpast horder hnow).1,
    ((hinv.memory c.userId).result hpast horder hnow).1]
  unfold IPGuardHistory.rule OffTheEdges
  cases hskip : cfg.skips c.userId c.clientIP with
  | true => simp [IPGuardHistory.answer, hskip]
  | false =>
    have hchain := recent_le_chained cfg.strikeWindowSec hpast.sorted c.now
      fun t ht => (hpast.triggers t ht).trans horder
    have hedge := recent_le_recent_edge cfg.strikeWindowSec c.now
      (s.history.triggers c.userId)
    rw [IPGuardHistory.answer_eq_iff cfg _ c _ _ _ _ hskip,
      IPGuardHistory.answer_eq_iff cfg _ c _ _ _ _ hskip]
    simp only [IPGuardConfig.bound, IPGuardConfig.counted, if_true, Bool.false_eq_true,
      if_false, true_and, forall_const]
    constructor
    · rintro ⟨hredis, hsame, hmemory⟩
      exact ⟨hsame, fun hlimit => ⟨(hredis hlimit).1, (hmemory hlimit).1⟩⟩
    · rintro ⟨hsame, hban⟩
      refine ⟨fun hlimit => ⟨(hban hlimit).1, fun hk => ?_⟩, hsame, fun hlimit =>
        ⟨(hban hlimit).2, fun hk => ?_⟩⟩
      · omega
      · omega

/-- **One call** off the edges. -/
theorem Inv.step {s : IPGuardRun} (hinv : Inv cfg s) {c : IPGuardCall} (horder : s.InOrder c)
    (hoff : s.OffTheEdges cfg c) : Inv cfg (s.step cfg c) := by
  have hnow : 0 ≤ c.now := hinv.nonneg.trans horder
  obtain ⟨hredis, hmemory⟩ := (hinv.answers horder).2 hoff
  refine ⟨hnow, fun u => (hinv.past u).next horder _, fun u => ?_, fun u => ?_⟩
  · by_cases hu : u = c.userId
    · subst hu
      have hnext := ((hinv.redis c.userId).result (hinv.past c.userId) horder hnow).2
      rw [hredis] at hnext
      exact hnext
    · obtain ⟨hwindow, hstrikes⟩ := @checkIPGuard_other cfg true s.redis c.now _ c.clientIP _ hu
      obtain ⟨hseen, htriggers⟩ := @next_other cfg s.history c _ hu (s.history.rule cfg c)
      exact (hinv.redis u).frame hwindow hstrikes hseen htriggers horder
  · by_cases hu : u = c.userId
    · subst hu
      have hnext := ((hinv.memory c.userId).result (hinv.past c.userId) horder hnow).2
      rw [hmemory] at hnext
      exact hnext
    · obtain ⟨hwindow, hstrikes⟩ := @checkIPGuard_other cfg false s.memory c.now _ c.clientIP _ hu
      obtain ⟨hseen, htriggers⟩ := @next_other cfg s.history c _ hu (s.history.rule cfg c)
      exact (hinv.memory u).frame hwindow hstrikes hseen htriggers horder

theorem byTheRules_step {s : IPGuardRun} (hinv : Inv cfg s) (hrules : s.ByTheRules)
    {c : IPGuardCall} (horder : s.InOrder c) :
    (s.step cfg c).ByTheRules ↔ s.OffTheEdges cfg c := by
  rw [← hinv.answers horder]
  constructor
  · intro h
    exact h _ (List.mem_append_right _ (List.mem_singleton.2 rfl))
  · intro h r hr
    rcases List.mem_append.1 hr with hr | hr
    · exact hrules r hr
    · rw [List.mem_singleton.1 hr]
      exact h

/-- The results of a run begin with those it started from. -/
theorem results_run (cfg : IPGuardConfig) (s : IPGuardRun) (calls : List IPGuardCall) :
    s.results <+: (Transition.run (step cfg) s calls).results := by
  induction calls generalizing s with
  | nil => exact List.prefix_refl _
  | cons c calls ih => exact (List.prefix_append s.results _).trans (ih (s.step cfg c))

/-- **A run** from a state the backends follow. -/
theorem byTheRules_run {s : IPGuardRun} (hinv : Inv cfg s) (hrules : s.ByTheRules)
    {calls : List IPGuardCall} (horder : Transition.Along (step cfg) InOrder s calls) :
    (Transition.run (step cfg) s calls).ByTheRules ↔
      Transition.Along (step cfg) (OffTheEdges cfg) s calls := by
  induction calls generalizing s with
  | nil => exact iff_of_true hrules trivial
  | cons c calls ih =>
    have hone := byTheRules_step hinv hrules horder.1
    constructor
    · intro h
      have hstep : (s.step cfg c).ByTheRules := fun r hr =>
        h r ((results_run cfg (s.step cfg c) calls).subset hr)
      have hoff := hone.1 hstep
      exact ⟨hoff, (ih (hinv.step horder.1 hoff) hstep horder.2).1 h⟩
    · rintro ⟨hoff, hrest⟩
      exact (ih (hinv.step horder.1 hoff) (hone.2 hoff) horder.2).2 hrest

end IPGuardRun

/-- **The IP guard triggers by its rules, and alike on both backends, in exactly the runs whose
calls are all off the edges of the windows**: for every configuration, and every sequence of calls
for any users and addresses at times that do not go back. -/
theorem ip_guard_by_the_rules (cfg : IPGuardConfig) (calls : List IPGuardCall)
    (horder : Transition.Along (IPGuardRun.step cfg) IPGuardRun.InOrder IPGuardRun.init calls) :
    (Transition.run (IPGuardRun.step cfg) IPGuardRun.init calls).ByTheRules ↔
      Transition.Along (IPGuardRun.step cfg) (IPGuardRun.OffTheEdges cfg) IPGuardRun.init
        calls :=
  IPGuardRun.byTheRules_run (IPGuardRun.inv_init cfg) (fun r hr => by cases hr) horder

/-- The configuration without environment variables: three addresses in half an hour, three strikes
in a day. -/
def IPGuardConfig.default : IPGuardConfig := ⟨true, 1800, 3, 86400, 3⟩

/-- Seen from three addresses in one second. -/
def burst (userId now : ℤ) : List IPGuardCall :=
  [⟨userId, "a", now⟩, ⟨userId, "b", now⟩, ⟨userId, "c", now⟩]

/-- Three bursts in a day: the third one bans on both backends. -/
theorem ip_guard_by_the_rules_day :
    (Transition.run (IPGuardRun.step .default) IPGuardRun.init
      (burst 1 0 ++ burst 1 30000 ++ burst 1 60000)).ByTheRules :=
  (ip_guard_by_the_rules .default _ (by decide)).2 (by decide)

/-- **Three bursts, each twenty hours after the one before, ban with Redis.**  Only two of the
strikes are of the last day; in memory, and by the rules, the user is not banned. -/
theorem ip_guard_counts_the_chain :
    let calls := burst 1 0 ++ burst 1 72000 ++ burst 1 144000
    let s := Transition.run (IPGuardRun.step .default) IPGuardRun.init calls
    Transition.Along (IPGuardRun.step .default) IPGuardRun.InOrder IPGuardRun.init calls ∧
      s.results.getLast? = some (⟨true, true, 3⟩, ⟨true, false, 3⟩, ⟨true, false, 3⟩) ∧
      ¬s.ByTheRules := by
  decide +kernel

end NewApi
