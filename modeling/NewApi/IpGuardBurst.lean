/-
**The IP guard under parallel requests.**

`CheckIPGuard` (`src/service/ip_guard.go`) records the address, then resets the addresses of the
user, then records a strike; each is one step, and the calls of parallel requests interleave.  A
call that records between the call that reaches `DistinctIPLimit` and its reset finds the limit
reached already, triggers as well, and strikes once more.  So the number of parallel requests, not
that of addresses, may decide on a ban.

If no call records in between, there are no more strikes than times at which the addresses recorded
since the last reset reach the limit.  Requests from exactly `DistinctIPLimit` addresses then cost
one strike, unless the reset comes so early that the addresses reach the limit once more.

Main definitions:

* `NewApi.GuardBurst` — the stores and the calls in progress, with the addresses recorded since the
  last reset and the number of strikes and of times the limit was reached;
* `NewApi.GuardBurst.step` — one step of any call;
* `NewApi.GuardBurst.ResetsFirst`, `NewApi.GuardBurst.StaysBelow` — the conditions;
* `NewApi.GuardBurst.Burst` — requests from exactly `DistinctIPLimit` addresses in one window.

Main results:

* `NewApi.GuardBurst.Inv.step` — a call strikes for a limit that was reached since the last reset;
* `NewApi.GuardBurst.BurstInv.step` — in a burst it strikes for every such limit;
* `NewApi.one_burst_one_strike` — **one strike each time the limit is reached**.
-/

import NewApi.IpGuard

set_option autoImplicit false

namespace NewApi

/-! ### Calls in progress -/

/-- How far a call of `CheckIPGuard` has come. -/
inductive GuardPhase where
  /-- it is about to record the address -/
  | recordIP
  /-- it has triggered and is about to reset the addresses -/
  | resetIPWindow
  /-- it is about to record a strike -/
  | incrStrike
  | finished
  deriving DecidableEq

/-- A call that has triggered and has not recorded its strike. -/
def GuardPhase.struckSoon : GuardPhase → Bool
  | .recordIP => false
  | .resetIPWindow => true
  | .incrStrike => true
  | .finished => false

/-- A call that has triggered and has not reset the addresses. -/
def GuardPhase.resetSoon : GuardPhase → Bool
  | .recordIP => false
  | .resetIPWindow => true
  | .incrStrike => false
  | .finished => false

/-- A call in progress, with the time it has read. -/
structure GuardCall extends IPGuardCall where
  phase : GuardPhase

/-- The stores and the calls, and for each user the addresses recorded since the last reset, the
strikes recorded, how often those addresses have reached `DistinctIPLimit`, and whether a call
returned `TriggerBan`. -/
structure GuardBurst where
  store : IPGuardStore
  calls : List GuardCall
  since : ℤ → List String
  strikes : ℤ → ℕ
  reached : ℤ → ℕ
  banned : ℤ → Bool

/-- A call begins, or the `i`-th call takes its next step, at a time of the Redis server. -/
inductive GuardAction where
  | begin (call : IPGuardCall)
  | step (i : ℕ) (clock : ℤ)

/-- Addresses that reach the limit. -/
def IPGuardConfig.full (cfg : IPGuardConfig) (ips : List String) : Bool :=
  !ips.isEmpty && decide (cfg.distinctIPLimit ≤ ips.length)

namespace GuardBurst

def init : GuardBurst :=
  ⟨.empty, [], fun _ => [], fun _ => 0, fun _ => 0, fun _ => false⟩

/-- The next step of a call. -/
def advance (cfg : IPGuardConfig) (redisEnabled : Bool) (s : GuardBurst) (i : ℕ) (c : GuardCall)
    (clock : ℤ) : GuardBurst :=
  match c.phase with
  | .recordIP =>
    let out := recordIP cfg redisEnabled s.store c.userId c.clientIP c.now clock
    let phase := if cfg.distinctIPLimit ≤ out.2 then .resetIPWindow else .finished
    let since := (s.since c.userId).insert c.clientIP
    { s with
      store := out.1
      calls := s.calls.set i { c with phase := phase }
      since := Function.update s.since c.userId since
      reached := if cfg.full since && !cfg.full (s.since c.userId) then
          Function.update s.reached c.userId (s.reached c.userId + 1)
        else s.reached }
  | .resetIPWindow =>
    { s with
      store := resetIPWindow redisEnabled s.store c.userId
      calls := s.calls.set i { c with phase := .incrStrike }
      since := Function.update s.since c.userId [] }
  | .incrStrike =>
    let out := incrStrike cfg redisEnabled s.store c.userId c.now clock
    { s with
      store := out.1
      calls := s.calls.set i { c with phase := .finished }
      strikes := Function.update s.strikes c.userId (s.strikes c.userId + 1)
      banned := if cfg.strikeLimit ≤ out.2 then Function.update s.banned c.userId true
        else s.banned }
  | .finished => s

/-- One step of any call. -/
def step (cfg : IPGuardConfig) (redisEnabled : Bool) (s : GuardBurst) : GuardAction → GuardBurst
  | .begin call =>
    let phase := if cfg.skips call.userId call.clientIP then .finished else .recordIP
    { s with calls := s.calls ++ [{ call with phase := phase }] }
  | .step i clock =>
    match s.calls[i]? with
    | none => s
    | some c => s.advance cfg redisEnabled i c clock

/-! ### The conditions -/

/-- The call of the user that a step lets record its address. -/
def recording (userId : ℤ) (s : GuardBurst) : GuardAction → Option GuardCall
  | .begin _ => none
  | .step i _ => (s.calls[i]?).filter fun c => c.userId = userId && c.phase = .recordIP

/-- **A call that triggers resets first**: no call of the user records its address while another
one has triggered and has still to reset the addresses. -/
def ResetsFirst (userId : ℤ) (s : GuardBurst) (a : GuardAction) : Prop :=
  (s.recording userId a).isSome = true →
    ∀ c ∈ s.calls, c.userId = userId → c.phase.resetSoon = false

/-- **The addresses do not reach the limit once more**: after they have reached it, too few are
recorded from the reset on. -/
def StaysBelow (cfg : IPGuardConfig) (userId : ℤ) (s : GuardBurst) (a : GuardAction) : Prop :=
  ∀ c ∈ s.recording userId a, 0 < s.reached userId →
    cfg.full ((s.since userId).insert c.clientIP) = false

instance instDecidableResetsFirst (userId : ℤ) (s : GuardBurst) (a : GuardAction) :
    Decidable (s.ResetsFirst userId a) := by
  unfold ResetsFirst
  infer_instance

instance instDecidableStaysBelow (cfg : IPGuardConfig) (userId : ℤ) (s : GuardBurst)
    (a : GuardAction) : Decidable (s.StaysBelow cfg userId a) := by
  unfold StaysBelow
  infer_instance

/-- An action of a burst that begins at `start`: the calls of the user are guarded and read times
of one window, and the server is in it as well. -/
def InWindow (cfg : IPGuardConfig) (userId start : ℤ) : GuardAction → Prop
  | .begin call => call.userId = userId → cfg.skips call.userId call.clientIP = false ∧
      start ≤ call.now ∧ call.now < start + cfg.windowSeconds
  | .step _ clock => start ≤ clock ∧ clock < start + cfg.windowSeconds

instance instDecidableInWindow (cfg : IPGuardConfig) (userId start : ℤ) (a : GuardAction) :
    Decidable (InWindow cfg userId start a) := by
  cases a <;> unfold InWindow <;> infer_instance

/-- **A burst**: the requests of the user come from exactly `DistinctIPLimit` addresses, all within
one window. -/
structure Burst (cfg : IPGuardConfig) (userId start : ℤ) (ips : List String)
    (as : List GuardAction) : Prop where
  nonempty : ips ≠ []
  nodup : ips.Nodup
  exact : (ips.length : ℤ) = cfg.distinctIPLimit
  called : ∀ ip, ip ∈ ips ↔
    ∃ call : IPGuardCall, .begin call ∈ as ∧ call.userId = userId ∧ call.clientIP = ip
  inWindow : ∀ a ∈ as, InWindow cfg userId start a

/-- Every call of the user has returned. -/
def Quiet (s : GuardBurst) (userId : ℤ) : Prop :=
  ∀ c ∈ s.calls, c.userId = userId → c.phase = .finished

/-! ### Counting calls -/

/-- The calls of the user in certain phases. -/
def count (p : GuardPhase → Bool) (calls : List GuardCall) (userId : ℤ) : ℕ :=
  calls.countP fun c => c.userId = userId && p c.phase

theorem count_eq_zero {p : GuardPhase → Bool} {calls : List GuardCall} {userId : ℤ}
    (h : ∀ c ∈ calls, c.userId = userId → p c.phase = false) : count p calls userId = 0 := by
  apply List.countP_eq_zero.2
  intro c hc
  by_cases hu : c.userId = userId
  · simp [h c hc hu]
  · simp [hu]

/-- A call moves on. -/
theorem count_set (p : GuardPhase → Bool) {calls : List GuardCall} {i : ℕ} {c : GuardCall}
    (hc : calls[i]? = some c) (phase : GuardPhase) (userId : ℤ) :
    count p (calls.set i { c with phase := phase }) userId +
        (if c.userId = userId ∧ p c.phase = true then 1 else 0) =
      count p calls userId + (if c.userId = userId ∧ p phase = true then 1 else 0) := by
  obtain ⟨hi, hget⟩ := List.getElem?_eq_some_iff.1 hc
  have hle := List.boole_getElem_le_countP
    (p := fun c : GuardCall => c.userId = userId && p c.phase) hi
  unfold count
  rw [List.countP_set hi]
  rw [hget] at hle ⊢
  simp only [Bool.and_eq_true, decide_eq_true_eq] at hle ⊢
  omega

/-- A call of another user moves on. -/
theorem count_set_of_ne (p : GuardPhase → Bool) {calls : List GuardCall} {i : ℕ} {c : GuardCall}
    (hc : calls[i]? = some c) (phase : GuardPhase) {userId : ℤ} (hu : c.userId ≠ userId) :
    count p (calls.set i { c with phase := phase }) userId = count p calls userId := by
  simpa [hu] using count_set p hc phase userId

/-- A call begins that is in none of the phases. -/
theorem count_begin {p : GuardPhase → Bool} (hr : p .recordIP = false) (hf : p .finished = false)
    (calls : List GuardCall) (call : IPGuardCall) (skips : Bool) (userId : ℤ) :
    count p (calls ++ [{ call with phase := if skips then .finished else .recordIP }]) userId =
      count p calls userId := by
  cases skips <;> simp [count, hr, hf]

end GuardBurst

/-! ### What a backend has stored for a user -/

namespace IPGuardStore

/-- The addresses stored for a user. -/
def members (redisEnabled : Bool) (s : IPGuardStore) (userId : ℤ) : List (String × ℤ) :=
  if redisEnabled then ((s.redisIPs userId).map Prod.fst).getD []
  else (s.memIPWindows userId).getD []

/-- The strikes stored for a user. -/
def struck (redisEnabled : Bool) (s : IPGuardStore) (userId : ℤ) : ℕ :=
  if redisEnabled then ((s.redisStrikes userId).map Prod.fst).getD 0
  else (s.memStrikeTimes userId).length

end IPGuardStore

section Store

variable (cfg : IPGuardConfig) (redisEnabled : Bool) (s : IPGuardStore) (userId now clock : ℤ)
  (clientIP : String)

/-- What is live under a key is what is stored, or nothing. -/
theorem live_getD_sublist (stored : Option (List (String × ℤ) × ℤ)) :
    ((live clock stored).getD []).Sublist ((stored.map Prod.fst).getD []) := by
  cases stored with
  | none => exact List.Sublist.refl _
  | some v =>
    obtain ⟨value, e⟩ := v
    simp only [live]
    split
    · exact List.Sublist.refl _
    · exact List.nil_sublist _

/-- **A recording**: addresses may be dropped before and after it. -/
theorem members_recordIP : ∃ found keep,
    found.Sublist (s.members redisEnabled userId) ∧
      (recordIP cfg redisEnabled s userId clientIP now clock).1.members redisEnabled userId =
        (LastSeen.touch clientIP now found).filter keep ∧
      (recordIP cfg redisEnabled s userId clientIP now clock).2 =
        ((LastSeen.touch clientIP now found).filter keep).length := by
  cases redisEnabled with
  | true =>
    refine ⟨_, _, live_getD_sublist clock (s.redisIPs userId), ?_, rfl⟩
    simp [recordIP, recordIPRedis, IPGuardStore.members]
  | false =>
    refine ⟨_, _, List.Sublist.refl _, ?_, rfl⟩
    simp [recordIP, recordIPMemory, IPGuardStore.members]

variable {start other : ℤ}

/-- A recording while everything that is stored is from the present window. -/
theorem members_recordIP_of_fresh (hnow : now < start + cfg.windowSeconds)
    (hclock : clock < start + cfg.windowSeconds) (hstart : start ≤ now)
    (hfresh : ∀ e ∈ s.members redisEnabled userId, start ≤ e.2)
    (hlasts : ∀ members e, s.redisIPs userId = some (members, e) → start + cfg.windowSeconds ≤ e) :
    (recordIP cfg redisEnabled s userId clientIP now clock).1.members redisEnabled userId =
      LastSeen.touch clientIP now (s.members redisEnabled userId) := by
  have htouch : ∀ e ∈ LastSeen.touch clientIP now (s.members redisEnabled userId),
      start ≤ e.2 := by
    intro e he
    rcases List.mem_append.1 he with he | he
    · exact hfresh e (List.mem_filter.1 he).1
    · rw [List.mem_singleton.1 he]
      exact hstart
  cases redisEnabled with
  | true =>
    have hlive : (live clock (s.redisIPs userId)).getD [] = s.members true userId := by
      cases hstored : s.redisIPs userId with
      | none => simp [live, IPGuardStore.members, hstored]
      | some v =>
        have hlast := hlasts v.1 v.2 hstored
        simp [live, IPGuardStore.members, hstored, hclock.trans_le hlast]
    simp only [recordIP, recordIPRedis, hlive, if_true]
    simp only [IPGuardStore.members, if_true, Function.update_self, Option.map_some,
      Option.getD_some]
    refine List.filter_eq_self.2 fun e he => ?_
    have hge := htouch e he
    simp only [decide_eq_true_eq]
    omega
  | false =>
    simp only [recordIP, recordIPMemory, Bool.false_eq_true, if_false]
    simp only [IPGuardStore.members, Bool.false_eq_true, if_false, Function.update_self,
      Option.getD_some]
    refine List.filter_eq_self.2 fun e he => ?_
    have hge := htouch e he
    simp only [decide_eq_true_eq]
    omega

/-- When the addresses of any user expire, after a recording. -/
theorem lasts_recordIP (hclock : start ≤ clock)
    (hlasts : ∀ members e, s.redisIPs other = some (members, e) → start + cfg.windowSeconds ≤ e) :
    ∀ members e, (recordIP cfg redisEnabled s userId clientIP now clock).1.redisIPs other =
      some (members, e) → start + cfg.windowSeconds ≤ e := by
  intro members e hstored
  cases redisEnabled with
  | true =>
    by_cases hu : other = userId
    · subst hu
      simp only [recordIP, recordIPRedis, if_true, Function.update_self, Option.some.injEq,
        Prod.mk.injEq] at hstored
      omega
    · simp only [recordIP, recordIPRedis, if_true, Function.update_of_ne hu] at hstored
      exact hlasts members e hstored
  | false => exact hlasts members e hstored

theorem members_recordIP_of_ne (h : other ≠ userId) :
    (recordIP cfg redisEnabled s userId clientIP now clock).1.members redisEnabled other =
      s.members redisEnabled other := by
  cases redisEnabled <;>
    simp [recordIP, recordIPRedis, recordIPMemory, IPGuardStore.members, h]

theorem struck_recordIP (other : ℤ) :
    (recordIP cfg redisEnabled s userId clientIP now clock).1.struck redisEnabled other =
      s.struck redisEnabled other := by
  cases redisEnabled <;> rfl

/-- **A reset.** -/
theorem members_resetIPWindow :
    (resetIPWindow redisEnabled s userId).members redisEnabled userId = [] := by
  cases redisEnabled <;> simp [resetIPWindow, IPGuardStore.members]

theorem lasts_resetIPWindow
    (hlasts : ∀ members e, s.redisIPs other = some (members, e) → start + cfg.windowSeconds ≤ e) :
    ∀ members e, (resetIPWindow redisEnabled s userId).redisIPs other = some (members, e) →
      start + cfg.windowSeconds ≤ e := by
  intro members e hstored
  cases redisEnabled with
  | true =>
    by_cases hu : other = userId
    · subst hu
      simp [resetIPWindow] at hstored
    · simp only [resetIPWindow, if_true, Function.update_of_ne hu] at hstored
      exact hlasts members e hstored
  | false => exact hlasts members e hstored

theorem members_resetIPWindow_of_ne (h : other ≠ userId) :
    (resetIPWindow redisEnabled s userId).members redisEnabled other =
      s.members redisEnabled other := by
  cases redisEnabled <;> simp [resetIPWindow, IPGuardStore.members, h]

theorem struck_resetIPWindow (other : ℤ) :
    (resetIPWindow redisEnabled s userId).struck redisEnabled other =
      s.struck redisEnabled other := by
  cases redisEnabled <;> rfl

/-- **A strike** is counted once at most. -/
theorem incrStrike_le : (incrStrike cfg redisEnabled s userId now clock).2 ≤
    s.struck redisEnabled userId + 1 := by
  cases redisEnabled with
  | true =>
    cases hstored : s.redisStrikes userId with
    | none => simp [incrStrike, IPGuardStore.struck, live, hstored]
    | some v =>
      obtain ⟨n, e⟩ := v
      simp only [incrStrike, IPGuardStore.struck, live, hstored, if_true, Option.map_some,
        Option.getD_some]
      split <;> simp
  | false =>
    have hpruned := List.length_filter_le
      (fun ts => decide (ts ≥ now - cfg.strikeWindowSec)) (s.memStrikeTimes userId)
    simp only [incrStrike, IPGuardStore.struck, Bool.false_eq_true, if_false, List.length_append,
      List.length_singleton]
    omega

theorem struck_incrStrike :
    (incrStrike cfg redisEnabled s userId now clock).1.struck redisEnabled userId =
      (incrStrike cfg redisEnabled s userId now clock).2 := by
  cases redisEnabled <;> simp [incrStrike, IPGuardStore.struck]

theorem struck_incrStrike_of_ne (h : other ≠ userId) :
    (incrStrike cfg redisEnabled s userId now clock).1.struck redisEnabled other =
      s.struck redisEnabled other := by
  cases redisEnabled <;> simp [incrStrike, IPGuardStore.struck, h]

theorem members_incrStrike (other : ℤ) :
    (incrStrike cfg redisEnabled s userId now clock).1.members redisEnabled other =
      s.members redisEnabled other := by
  cases redisEnabled <;> rfl

end Store

namespace GuardBurst

/-! ### Strikes and limits reached -/

variable {cfg : IPGuardConfig} {redisEnabled : Bool} {userId : ℤ}

/-- Whether the addresses recorded since the last reset have reached the limit. -/
def current (cfg : IPGuardConfig) (ips : List String) : ℕ := if cfg.full ips then 1 else 0

theorem current_le_one (cfg : IPGuardConfig) (ips : List String) : current cfg ips ≤ 1 := by
  unfold current
  split <;> omega

theorem full_insert {ips : List String} (h : cfg.full ips = true) (ip : String) :
    cfg.full (ips.insert ip) = true := by
  simp only [IPGuardConfig.full, Bool.and_eq_true, Bool.not_eq_true', decide_eq_true_eq,
    List.isEmpty_eq_false_iff] at h ⊢
  have hle : ips.length ≤ (ips.insert ip).length := by
    by_cases hmem : ip ∈ ips
    · rw [List.insert_of_mem hmem]
    · rw [List.insert_of_not_mem hmem]
      exact Nat.le_succ _
  refine ⟨List.ne_nil_of_mem List.mem_insert_self, by omega⟩

/-- **What holds of a user along any run**: the addresses stored are among those recorded since the
last reset, and strikes are recorded, or to come, for times the limit was reached only. -/
structure Inv (cfg : IPGuardConfig) (redisEnabled : Bool) (userId : ℤ) (s : GuardBurst) :
    Prop where
  nodup : ((s.store.members redisEnabled userId).map Prod.fst).Nodup
  recorded : ∀ ip ∈ (s.store.members redisEnabled userId).map Prod.fst, ip ∈ s.since userId
  struck : s.store.struck redisEnabled userId ≤ s.strikes userId
  banned : s.banned userId = true → cfg.strikeLimit ≤ s.strikes userId
  resetting : count GuardPhase.resetSoon s.calls userId ≤ current cfg (s.since userId)
  balance : s.strikes userId + count GuardPhase.struckSoon s.calls userId + current cfg (s.since userId) ≤
    s.reached userId + count GuardPhase.resetSoon s.calls userId

theorem inv_init (cfg : IPGuardConfig) (redisEnabled : Bool) (userId : ℤ) :
    Inv cfg redisEnabled userId init := by
  cases redisEnabled <;>
    exact ⟨List.nodup_nil, nofun, le_rfl, nofun, Nat.zero_le _, le_rfl⟩

/-- A recording counts no more addresses than were recorded since the last reset. -/
theorem Inv.recordIP_le {s : GuardBurst} (h : Inv cfg redisEnabled userId s) (clientIP : String)
    (now clock : ℤ) :
    let out := recordIP cfg redisEnabled s.store userId clientIP now clock
    ((out.1.members redisEnabled userId).map Prod.fst).Nodup ∧
      (∀ ip ∈ (out.1.members redisEnabled userId).map Prod.fst,
        ip ∈ (s.since userId).insert clientIP) ∧
      out.2 ≤ ((s.since userId).insert clientIP).length := by
  intro out
  obtain ⟨found, keep, hfound, hmembers, hcount⟩ :=
    members_recordIP cfg redisEnabled s.store userId now clock clientIP
  have hnodup : (((LastSeen.touch clientIP now found).filter keep).map Prod.fst).Nodup :=
    (LastSeen.nodup_touch (h.nodup.sublist (hfound.map _)) clientIP now).sublist
      (List.filter_sublist.map _)
  have hmem : ∀ ip ∈ ((LastSeen.touch clientIP now found).filter keep).map Prod.fst,
      ip ∈ (s.since userId).insert clientIP := by
    intro ip hip
    obtain ⟨e, he, rfl⟩ := List.mem_map.1 hip
    rcases List.mem_append.1 (List.mem_filter.1 he).1 with he | he
    · have hold : e ∈ s.store.members redisEnabled userId :=
        hfound.subset (List.mem_filter.1 he).1
      exact List.mem_insert_of_mem (h.recorded _ (List.mem_map_of_mem hold))
    · rw [List.mem_singleton.1 he]
      exact List.mem_insert_self
  refine ⟨by rwa [hmembers], by rwa [hmembers], ?_⟩
  rw [hcount, ← List.length_map (f := Prod.fst)]
  exact (hnodup.subperm hmem).length_le

/-- The times the limit was reached, after a recording. -/
theorem reached_recordIP (s : GuardBurst) (userId : ℤ) (ip : String) :
    (if cfg.full ((s.since userId).insert ip) && !cfg.full (s.since userId) then
        Function.update s.reached userId (s.reached userId + 1) else s.reached) userId +
        current cfg (s.since userId) =
      s.reached userId + current cfg ((s.since userId).insert ip) := by
  unfold current
  cases hbefore : cfg.full (s.since userId) with
  | true => simp [full_insert hbefore]
  | false => cases hafter : cfg.full ((s.since userId).insert ip) <;> simp

variable {i : ℕ} {c : GuardCall} {a : GuardAction} {as : List GuardAction} {start : ℤ}

/-- What concerns a user is the same in two states. -/
structure SameFor (redisEnabled : Bool) (userId : ℤ) (s s' : GuardBurst) : Prop where
  members : s'.store.members redisEnabled userId = s.store.members redisEnabled userId
  struck : s'.store.struck redisEnabled userId = s.store.struck redisEnabled userId
  since : s'.since userId = s.since userId
  strikes : s'.strikes userId = s.strikes userId
  reached : s'.reached userId = s.reached userId
  banned : s'.banned userId = s.banned userId
  counts : ∀ p, count p s'.calls userId = count p s.calls userId
  calls : ∀ c ∈ s'.calls, c.userId = userId → c ∈ s.calls

/-- A step of a call of another user. -/
theorem sameFor_advance {s : GuardBurst} (hc : s.calls[i]? = some c) (clock : ℤ)
    (hu : c.userId ≠ userId) :
    SameFor redisEnabled userId s (s.advance cfg redisEnabled i c clock) := by
  have hne : userId ≠ c.userId := Ne.symm hu
  have hcalls : ∀ phase, ∀ c' ∈ s.calls.set i { c with phase := phase }, c'.userId = userId →
      c' ∈ s.calls := by
    intro phase c' hc' hu'
    rcases List.mem_or_eq_of_mem_set hc' with hc' | rfl
    · exact hc'
    · exact absurd hu' hu
  have hcounts := fun phase p => count_set_of_ne p hc phase hu
  unfold advance
  split
  · refine ⟨members_recordIP_of_ne _ _ _ _ _ _ _ hne, struck_recordIP _ _ _ _ _ _ _ _,
      Function.update_of_ne hne _ _, rfl, ?_, rfl, hcounts _, hcalls _⟩
    dsimp only
    split
    · exact Function.update_of_ne hne _ _
    · rfl
  · exact ⟨members_resetIPWindow_of_ne _ _ _ hne, struck_resetIPWindow _ _ _ _,
      Function.update_of_ne hne _ _, rfl, rfl, rfl, hcounts _, hcalls _⟩
  · refine ⟨members_incrStrike _ _ _ _ _ _ _, struck_incrStrike_of_ne _ _ _ _ _ _ hne, rfl,
      Function.update_of_ne hne _ _, rfl, ?_, hcounts _, hcalls _⟩
    dsimp only
    split
    · exact Function.update_of_ne hne _ _
    · rfl
  · exact ⟨rfl, rfl, rfl, rfl, rfl, rfl, fun _ => rfl, fun _ hc' _ => hc'⟩

theorem Inv.of_same {s s' : GuardBurst} (h : Inv cfg redisEnabled userId s)
    (hsame : SameFor redisEnabled userId s s') : Inv cfg redisEnabled userId s' := by
  obtain ⟨hmembers, hstruck, hsince, hstrikes, hreached, hbanned, hcounts, -⟩ := hsame
  constructor <;> simp only [hmembers, hstruck, hsince, hstrikes, hreached, hbanned, hcounts]
  exacts [h.nodup, h.recorded, h.struck, h.banned, h.resetting, h.balance]

/-- **A step of a call of the user**, which records only if no other is about to reset. -/
theorem Inv.advance_self {s : GuardBurst} (h : Inv cfg redisEnabled c.userId s)
    (hc : s.calls[i]? = some c) (clock : ℤ)
    (hreset : c.phase = .recordIP → count GuardPhase.resetSoon s.calls c.userId = 0) :
    Inv cfg redisEnabled c.userId (s.advance cfg redisEnabled i c clock) := by
  have hsoon := fun phase => count_set GuardPhase.struckSoon hc phase c.userId
  have hset := fun phase => count_set GuardPhase.resetSoon hc phase c.userId
  have hresetting := h.resetting
  have hbalance := h.balance
  unfold advance
  split
  · -- it records its address, and no other call is about to reset
    rename_i hphase
    obtain ⟨hnodup, hrecorded, hle⟩ := h.recordIP_le c.clientIP c.now clock
    have hreached := @reached_recordIP cfg s c.userId c.clientIP
    have hzero := hreset hphase
    have hgrow : current cfg (s.since c.userId) ≤
        current cfg ((s.since c.userId).insert c.clientIP) := by
      unfold current
      cases hbefore : cfg.full (s.since c.userId) with
      | true => simp [full_insert hbefore]
      | false => simp
    simp only [hphase, GuardPhase.struckSoon, GuardPhase.resetSoon] at hsoon hset
    by_cases htrig :
        cfg.distinctIPLimit ≤ ((recordIP cfg redisEnabled s.store c.userId c.clientIP c.now clock).2
          : ℤ)
    · -- the addresses that were counted have been recorded since the last reset
      have hfull : current cfg ((s.since c.userId).insert c.clientIP) = 1 := by
        have hne : (s.since c.userId).insert c.clientIP ≠ [] :=
          List.ne_nil_of_mem List.mem_insert_self
        have hmany : cfg.distinctIPLimit ≤ ((s.since c.userId).insert c.clientIP).length := by
          omega
        simp [current, IPGuardConfig.full, hne, hmany]
      have hsoon' := hsoon .resetIPWindow
      have hset' := hset .resetIPWindow
      simp only [Bool.false_eq_true, and_false, if_false, and_self, if_true] at hsoon' hset'
      refine ⟨hnodup, ?_, ?_, h.banned, ?_, ?_⟩
      · simpa only [Function.update_self] using hrecorded
      · exact (struck_recordIP _ _ _ _ _ _ _ _).trans_le h.struck
      · simp only [Function.update_self, if_pos htrig]
        omega
      · simp only [Function.update_self, if_pos htrig]
        omega
    · -- below the limit it is done
      have hsoon' := hsoon .finished
      have hset' := hset .finished
      simp only [Bool.false_eq_true, and_false, if_false] at hsoon' hset'
      refine ⟨hnodup, ?_, ?_, h.banned, ?_, ?_⟩
      · simpa only [Function.update_self] using hrecorded
      · exact (struck_recordIP _ _ _ _ _ _ _ _).trans_le h.struck
      · simp only [Function.update_self, if_neg htrig]
        omega
      · simp only [Function.update_self, if_neg htrig]
        omega
  · -- the reset empties the window, and the strike for it is to come
    rename_i hphase
    have hsoon' := hsoon .incrStrike
    have hset' := hset .incrStrike
    simp only [hphase, GuardPhase.struckSoon, GuardPhase.resetSoon, and_self, if_true,
      Bool.false_eq_true, and_false, if_false] at hsoon' hset'
    have hone := current_le_one cfg (s.since c.userId)
    have hnone : current cfg [] = 0 := rfl
    refine ⟨?_, ?_, ?_, h.banned, ?_, ?_⟩
    · simp [members_resetIPWindow]
    · simp [members_resetIPWindow]
    · exact (struck_resetIPWindow _ _ _ _).trans_le h.struck
    · simp only [Function.update_self, hnone]
      omega
    · simp only [Function.update_self, hnone]
      omega
  · -- the strike that was to come is recorded
    rename_i hphase
    have hsoon' := hsoon .finished
    have hset' := hset .finished
    simp only [hphase, GuardPhase.struckSoon, GuardPhase.resetSoon, and_self, if_true,
      Bool.false_eq_true, and_false, if_false] at hsoon' hset'
    have hcount := incrStrike_le cfg redisEnabled s.store c.userId c.now clock
    have hstruck := h.struck
    refine ⟨?_, ?_, ?_, ?_, ?_, ?_⟩
    · rw [members_incrStrike]
      exact h.nodup
    · rw [members_incrStrike]
      exact h.recorded
    · simp only [struck_incrStrike, Function.update_self]
      omega
    · intro hban
      dsimp only at hban ⊢
      rw [Function.update_self]
      split at hban
      · omega
      · have hlimit := h.banned hban
        omega
    · dsimp only
      omega
    · dsimp only
      rw [Function.update_self]
      omega
  · exact h

/-- **One step.** -/
theorem Inv.step {s : GuardBurst} (h : Inv cfg redisEnabled userId s)
    (hreset : s.ResetsFirst userId a) :
    Inv cfg redisEnabled userId (s.step cfg redisEnabled a) := by
  cases a with
  | begin call =>
    have hsoon := count_begin (p := GuardPhase.struckSoon) rfl rfl s.calls call
      (cfg.skips call.userId call.clientIP) userId
    have hset := count_begin (p := GuardPhase.resetSoon) rfl rfl s.calls call
      (cfg.skips call.userId call.clientIP) userId
    refine ⟨h.nodup, h.recorded, h.struck, h.banned, ?_, ?_⟩
    · exact hset.trans_le h.resetting
    · simpa only [GuardBurst.step, hsoon, hset] using h.balance
  | step i clock =>
    simp only [GuardBurst.step]
    cases hc : s.calls[i]? with
    | none => exact h
    | some c =>
      by_cases hu : c.userId = userId
      · subst hu
        refine h.advance_self hc clock fun hphase => count_eq_zero (hreset ?_)
        simp [recording, hc, hphase]
      · exact h.of_same (sameFor_advance hc clock hu)

theorem Inv.run {s : GuardBurst} (h : Inv cfg redisEnabled userId s)
    (hreset : Transition.Along (GuardBurst.step cfg redisEnabled) (ResetsFirst userId) s as) :
    Inv cfg redisEnabled userId (Transition.run (GuardBurst.step cfg redisEnabled) s as) :=
  Transition.run_invariant (fun _ _ h => h.step) h hreset

/-! ### A burst -/

/-- **What holds of a user in a burst** besides: everything recorded since the last reset is stored
and counts, strikes are recorded, or to come, for all times the limit was reached, and until it is
reached the addresses of the calls that have returned are stored. -/
structure BurstInv (cfg : IPGuardConfig) (redisEnabled : Bool) (userId start : ℤ)
    (s : GuardBurst) : Prop extends Inv cfg redisEnabled userId s where
  fresh : ∀ e ∈ s.store.members redisEnabled userId, start ≤ e.2
  lasts : ∀ members e, s.store.redisIPs userId = some (members, e) →
    start + cfg.windowSeconds ≤ e
  stored : ∀ ip ∈ s.since userId, ip ∈ (s.store.members redisEnabled userId).map Prod.fst
  nodupSince : (s.since userId).Nodup
  called : ∀ c ∈ s.calls, c.userId = userId →
    start ≤ c.now ∧ c.now < start + cfg.windowSeconds
  same : count GuardPhase.resetSoon s.calls userId = current cfg (s.since userId)
  exact : s.strikes userId + count GuardPhase.struckSoon s.calls userId = s.reached userId
  kept : s.reached userId = 0 → ∀ c ∈ s.calls, c.userId = userId → c.phase ≠ .recordIP →
    c.clientIP ∈ s.since userId

theorem burstInv_init (cfg : IPGuardConfig) (redisEnabled : Bool) (userId start : ℤ) :
    BurstInv cfg redisEnabled userId start init :=
  { inv_init cfg redisEnabled userId with
    fresh := by cases redisEnabled <;> exact nofun
    lasts := nofun
    stored := nofun
    nodupSince := List.nodup_nil
    called := nofun
    same := rfl
    exact := rfl
    kept := fun _ => nofun }

/-- The other calls and the one that has moved on. -/
theorem forall_calls_set {P : GuardCall → Prop} {calls : List GuardCall} {new : GuardCall}
    (h : ∀ c ∈ calls, P c) (hnew : P new) : ∀ c ∈ calls.set i new, P c := by
  intro c hc
  rcases List.mem_or_eq_of_mem_set hc with hc | rfl
  · exact h c hc
  · exact hnew

/-- A step of a call of another user. -/
theorem BurstInv.advance_of_ne {s : GuardBurst} (h : BurstInv cfg redisEnabled userId start s)
    (hc : s.calls[i]? = some c) {clock : ℤ} (hclock : start ≤ clock) (hu : c.userId ≠ userId) :
    BurstInv cfg redisEnabled userId start (s.advance cfg redisEnabled i c clock) := by
  have hsame := @sameFor_advance cfg redisEnabled userId _ _ s hc clock hu
  have hlasts : ∀ members e,
      (s.advance cfg redisEnabled i c clock).store.redisIPs userId = some (members, e) →
        start + cfg.windowSeconds ≤ e := by
    unfold advance
    split
    · exact lasts_recordIP _ _ _ _ _ _ _ hclock h.lasts
    · exact lasts_resetIPWindow _ _ _ _ h.lasts
    · cases redisEnabled <;> exact h.lasts
    · exact h.lasts
  refine ⟨h.toInv.of_same hsame, ?_, hlasts, ?_, ?_, ?_, ?_, ?_, ?_⟩
  · rw [hsame.members]
    exact h.fresh
  · rw [hsame.since, hsame.members]
    exact h.stored
  · rw [hsame.since]
    exact h.nodupSince
  · exact fun c' hc' hu' => h.called c' (hsame.calls c' hc' hu') hu'
  · rw [hsame.counts, hsame.since]
    exact h.same
  · rw [hsame.strikes, hsame.counts, hsame.reached]
    exact h.exact
  · rw [hsame.reached, hsame.since]
    exact fun hzero c' hc' hu' => h.kept hzero c' (hsame.calls c' hc' hu') hu'

/-- A recording in a burst counts the addresses recorded since the last reset. -/
theorem BurstInv.recordIP_eq {s : GuardBurst} (h : BurstInv cfg redisEnabled userId start s)
    (clientIP : String) {now clock : ℤ} (hstart : start ≤ now)
    (hnow : now < start + cfg.windowSeconds) (hclock : clock < start + cfg.windowSeconds) :
    let out := recordIP cfg redisEnabled s.store userId clientIP now clock
    (∀ e ∈ out.1.members redisEnabled userId, start ≤ e.2) ∧
      (∀ ip ∈ (s.since userId).insert clientIP,
        ip ∈ (out.1.members redisEnabled userId).map Prod.fst) ∧
      out.2 = ((s.since userId).insert clientIP).length := by
  intro out
  have hmembers : out.1.members redisEnabled userId =
      LastSeen.touch clientIP now (s.store.members redisEnabled userId) :=
    members_recordIP_of_fresh cfg redisEnabled s.store userId now clock clientIP hnow hclock
      hstart h.fresh h.lasts
  have hstored : ∀ ip ∈ (s.since userId).insert clientIP,
      ip ∈ (out.1.members redisEnabled userId).map Prod.fst := by
    intro ip hip
    rw [hmembers]
    by_cases heq : ip = clientIP
    · subst heq
      simp [LastSeen.touch]
    · have hold := (List.mem_insert_iff.1 hip).resolve_left heq
      obtain ⟨e, he, rfl⟩ := List.mem_map.1 (h.stored ip hold)
      exact List.mem_map_of_mem
        (List.mem_append_left _ (List.mem_filter.2 ⟨he, by simpa using heq⟩))
  refine ⟨?_, hstored, ?_⟩
  · intro e he
    rw [hmembers] at he
    rcases List.mem_append.1 he with he | he
    · exact h.fresh e (List.mem_filter.1 he).1
    · rw [List.mem_singleton.1 he]
      exact hstart
  · refine le_antisymm (h.recordIP_le clientIP now clock).2.2 ?_
    obtain ⟨found, keep, -, hkept, hcount⟩ :=
      members_recordIP cfg redisEnabled s.store userId now clock clientIP
    have hlen : out.2 = ((out.1.members redisEnabled userId).map Prod.fst).length := by
      rw [List.length_map]
      exact hcount.trans (congrArg List.length hkept).symm
    rw [hlen]
    exact (h.nodupSince.insert.subperm hstored).length_le

/-- **A step of a call of the user** in a burst. -/
theorem BurstInv.advance_self {s : GuardBurst} (h : BurstInv cfg redisEnabled c.userId start s)
    (hc : s.calls[i]? = some c) {clock : ℤ}
    (hclock : start ≤ clock ∧ clock < start + cfg.windowSeconds)
    (hreset : c.phase = .recordIP → count GuardPhase.resetSoon s.calls c.userId = 0) :
    BurstInv cfg redisEnabled c.userId start (s.advance cfg redisEnabled i c clock) := by
  have hinv := h.toInv.advance_self hc clock hreset
  have hsoon := fun phase => count_set GuardPhase.struckSoon hc phase c.userId
  have hset := fun phase => count_set GuardPhase.resetSoon hc phase c.userId
  obtain ⟨hstart, hnow⟩ := h.called c (List.mem_of_getElem? hc) rfl
  have hcalled : ∀ phase, ∀ c' ∈ s.calls.set i { c with phase := phase }, c'.userId = c.userId →
      start ≤ c'.now ∧ c'.now < start + cfg.windowSeconds := fun _ =>
    forall_calls_set h.called fun _ => ⟨hstart, hnow⟩
  have hsame := h.same
  have hexact := h.exact
  unfold advance at hinv ⊢
  split
  · rename_i hphase
    simp only [hphase, GuardPhase.struckSoon, GuardPhase.resetSoon] at hsoon hset
    rw [hphase] at hinv
    obtain ⟨hfresh, hstored, hcount⟩ := h.recordIP_eq c.clientIP hstart hnow hclock.2
    have hreached := @reached_recordIP cfg s c.userId c.clientIP
    have hzero := hreset hphase
    have hne : ((s.since c.userId).insert c.clientIP).isEmpty = false :=
      List.isEmpty_eq_false_iff.2 (List.ne_nil_of_mem List.mem_insert_self)
    have hlasts := lasts_recordIP cfg redisEnabled s.store c.userId c.now clock c.clientIP
      hclock.1 h.lasts
    have hkept : s.reached c.userId = 0 → ∀ phase,
        ∀ c' ∈ s.calls.set i { c with phase := phase }, c'.userId = c.userId →
          c'.phase ≠ .recordIP → c'.clientIP ∈ (s.since c.userId).insert c.clientIP :=
      fun hnone _ => forall_calls_set
        (fun c' hc' hu hp => List.mem_insert_of_mem (h.kept hnone c' hc' hu hp))
        fun _ _ => List.mem_insert_self
    by_cases htrig :
        cfg.distinctIPLimit ≤ ((recordIP cfg redisEnabled s.store c.userId c.clientIP c.now clock).2
          : ℤ)
    · -- nothing expires within a burst, so what is counted is what has been recorded
      have hfull : current cfg ((s.since c.userId).insert c.clientIP) = 1 := by
        rw [hcount] at htrig
        simp only [current, IPGuardConfig.full, hne, htrig, Bool.not_false, decide_true,
          Bool.and_self, if_true]
      have hsoon' := hsoon .resetIPWindow
      have hset' := hset .resetIPWindow
      simp only [Bool.false_eq_true, and_false, if_false, and_self, if_true] at hsoon' hset'
      refine ⟨hinv, hfresh, hlasts, ?_, ?_, hcalled _, ?_, ?_, ?_⟩
      · simpa only [Function.update_self] using hstored
      · simpa only [Function.update_self] using h.nodupSince.insert
      · simp only [Function.update_self, if_pos htrig]
        omega
      · simp only [if_pos htrig]
        omega
      · intro hnone
        dsimp only at hnone
        omega
    · have hfull : current cfg ((s.since c.userId).insert c.clientIP) = 0 := by
        rw [hcount] at htrig
        simp only [current, IPGuardConfig.full, htrig, decide_false, Bool.and_false,
          Bool.false_eq_true, if_false]
      have hsoon' := hsoon .finished
      have hset' := hset .finished
      simp only [Bool.false_eq_true, and_false, if_false] at hsoon' hset'
      refine ⟨hinv, hfresh, hlasts, ?_, ?_, hcalled _, ?_, ?_, ?_⟩
      · simpa only [Function.update_self] using hstored
      · simpa only [Function.update_self] using h.nodupSince.insert
      · simp only [Function.update_self, if_neg htrig]
        omega
      · simp only [if_neg htrig]
        omega
      · intro hnone
        dsimp only at hnone ⊢
        rw [Function.update_self]
        exact hkept (by omega) _
  · -- the reset empties the window, and the strike for it is to come
    rename_i hphase
    have hsoon' := hsoon .incrStrike
    have hset' := hset .incrStrike
    simp only [hphase, GuardPhase.struckSoon, GuardPhase.resetSoon, and_self, if_true,
      Bool.false_eq_true, and_false, if_false] at hsoon' hset'
    rw [hphase] at hinv
    have hone := current_le_one cfg (s.since c.userId)
    have hnone : current cfg [] = 0 := rfl
    have hempty := members_resetIPWindow redisEnabled s.store c.userId
    have hpending : 0 < count GuardPhase.struckSoon s.calls c.userId :=
      List.countP_pos_iff.2 ⟨c, List.mem_of_getElem? hc, by simp [hphase, GuardPhase.struckSoon]⟩
    refine ⟨hinv, ?_, lasts_resetIPWindow _ _ _ _ h.lasts, ?_, ?_, hcalled _, ?_, ?_, ?_⟩
    · simp [hempty]
    · simp
    · simp
    · simp only [Function.update_self, hnone]
      omega
    · dsimp only
      omega
    · intro hzero
      dsimp only at hzero
      omega
  · -- the strike that was to come is recorded
    rename_i hphase
    have hsoon' := hsoon .finished
    have hset' := hset .finished
    simp only [hphase, GuardPhase.struckSoon, GuardPhase.resetSoon, and_self, if_true,
      Bool.false_eq_true, and_false, if_false] at hsoon' hset'
    rw [hphase] at hinv
    refine ⟨hinv, ?_, ?_, ?_, h.nodupSince, hcalled _, ?_, ?_, fun hzero => ?_⟩
    · rw [members_incrStrike]
      exact h.fresh
    · cases redisEnabled <;> exact h.lasts
    · rw [members_incrStrike]
      exact h.stored
    · dsimp only
      omega
    · dsimp only
      rw [Function.update_self]
      omega
    · exact forall_calls_set (h.kept hzero) fun _ _ =>
        h.kept hzero c (List.mem_of_getElem? hc) rfl (by simp [hphase])
  · exact h

/-- **One step** in a burst. -/
theorem BurstInv.step {s : GuardBurst} (h : BurstInv cfg redisEnabled userId start s)
    (hreset : s.ResetsFirst userId a) (hin : InWindow cfg userId start a) :
    BurstInv cfg redisEnabled userId start (s.step cfg redisEnabled a) := by
  cases a with
  | begin call =>
    have hinv := h.toInv.step hreset
    have hsoon := count_begin (p := GuardPhase.struckSoon) rfl rfl s.calls call
      (cfg.skips call.userId call.clientIP) userId
    have hset := count_begin (p := GuardPhase.resetSoon) rfl rfl s.calls call
      (cfg.skips call.userId call.clientIP) userId
    refine ⟨hinv, h.fresh, h.lasts, h.stored, h.nodupSince, ?_, ?_, ?_, ?_⟩
    · intro c hc hu
      rcases List.mem_append.1 hc with hc | hc
      · exact h.called c hc hu
      · rw [List.mem_singleton.1 hc] at hu ⊢
        exact (hin hu).2
    · exact hset.trans h.same
    · simpa only [GuardBurst.step, hsoon] using h.exact
    · intro hzero c hc hu hp
      rcases List.mem_append.1 hc with hc | hc
      · exact h.kept hzero c hc hu hp
      · -- a guarded call has still to record its address
        rw [List.mem_singleton.1 hc] at hu hp
        have hguarded := (hin hu).1
        simp [hguarded] at hp
  | step i clock =>
    simp only [GuardBurst.step]
    cases hc : s.calls[i]? with
    | none => exact h
    | some c =>
      by_cases hu : c.userId = userId
      · subst hu
        refine h.advance_self hc hin fun hphase => count_eq_zero (hreset ?_)
        simp [recording, hc, hphase]
      · exact h.advance_of_ne hc hin.1 hu

/-! ### Runs -/

/-- What a step does to the times the limit was reached. -/
theorem reached_advance (s : GuardBurst) (i : ℕ) (c : GuardCall) (clock userId : ℤ) :
    s.reached userId ≤ (s.advance cfg redisEnabled i c clock).reached userId := by
  unfold advance
  split
  · dsimp only
    split
    · by_cases hu : userId = c.userId
      · subst hu
        rw [Function.update_self]
        exact Nat.le_succ _
      · rw [Function.update_of_ne hu]
    · exact le_rfl
  · exact le_rfl
  · exact le_rfl
  · exact le_rfl

theorem reached_step (s : GuardBurst) (a : GuardAction) (userId : ℤ) :
    s.reached userId ≤ (s.step cfg redisEnabled a).reached userId := by
  cases a with
  | begin call => exact le_rfl
  | step i clock =>
    simp only [GuardBurst.step]
    split
    · exact le_rfl
    · exact reached_advance s _ _ _ _

theorem reached_run (s : GuardBurst) (as : List GuardAction) (userId : ℤ) :
    s.reached userId ≤
      (Transition.run (GuardBurst.step cfg redisEnabled) s as).reached userId := by
  induction as generalizing s with
  | nil => exact le_rfl
  | cons a as ih => exact (reached_step s a userId).trans (ih _)

/-- A step that records no address of the user reaches no limit of his. -/
theorem reached_step_of_none {s : GuardBurst} (hnone : s.recording userId a = none) :
    (s.step cfg redisEnabled a).reached userId = s.reached userId := by
  cases a with
  | begin call => rfl
  | step i clock =>
    simp only [GuardBurst.step]
    cases hc : s.calls[i]? with
    | none => rfl
    | some c =>
      dsimp only
      unfold advance
      split
      · rename_i hphase
        have hu : userId ≠ c.userId := by
          rintro rfl
          simp [recording, hc, hphase] at hnone
        dsimp only
        split
        · exact Function.update_of_ne hu _ _
        · rfl
      · rfl
      · rfl
      · rfl

/-- In a burst the limit is reached once more by exactly the recordings that do not stay below. -/
theorem BurstInv.reached_le_one {s : GuardBurst} (h : BurstInv cfg redisEnabled userId start s)
    (hreset : s.ResetsFirst userId a) (hone : s.reached userId ≤ 1) :
    (s.step cfg redisEnabled a).reached userId ≤ 1 ↔ s.StaysBelow cfg userId a := by
  cases hrec : s.recording userId a with
  | none =>
    rw [reached_step_of_none hrec]
    exact iff_of_true hone fun c hc => absurd (hrec.symm.trans hc) (by simp)
  | some c =>
    cases a with
    | begin call => cases hrec
    | step i clock =>
      obtain ⟨hc, hcond⟩ := Option.filter_eq_some_iff.1 hrec
      simp only [Bool.and_eq_true, decide_eq_true_eq] at hcond
      obtain ⟨rfl, hphase⟩ := hcond
      have hzero : count GuardPhase.resetSoon s.calls c.userId = 0 :=
        count_eq_zero (hreset (by rw [hrec]; rfl))
      have hsame := h.same
      have hstep : (s.step cfg redisEnabled (.step i clock)).reached c.userId =
          s.reached c.userId + current cfg ((s.since c.userId).insert c.clientIP) := by
        have hreached := @reached_recordIP cfg s c.userId c.clientIP
        simp only [GuardBurst.step, hc, advance, hphase]
        omega
      rw [hstep]
      simp only [StaysBelow, hrec, Option.mem_def, Option.some.injEq, forall_eq', current]
      cases hfull : cfg.full ((s.since c.userId).insert c.clientIP) with
      | true =>
        simp only [if_true, Bool.true_eq_false, imp_false]
        omega
      | false =>
        simp only [Bool.false_eq_true, if_false, implies_true, iff_true]
        omega

/-- **A run** in a burst. -/
theorem BurstInv.run {s : GuardBurst} (h : BurstInv cfg redisEnabled userId start s)
    (hreset : Transition.Along (GuardBurst.step cfg redisEnabled) (ResetsFirst userId) s as)
    (hin : ∀ a ∈ as, InWindow cfg userId start a) :
    BurstInv cfg redisEnabled userId start
      (Transition.run (GuardBurst.step cfg redisEnabled) s as) := by
  refine @Transition.run_invariant _ _ _ _ (BurstInv cfg redisEnabled userId start) ?_ _ _ h
    (Transition.along_and_forall hreset hin)
  intro s a hs hok
  exact hs.step hok.1 hok.2

/-- The limit is reached once at most in exactly the runs that stay below. -/
theorem BurstInv.run_reached {s : GuardBurst} (h : BurstInv cfg redisEnabled userId start s)
    (hreset : Transition.Along (GuardBurst.step cfg redisEnabled) (ResetsFirst userId) s as)
    (hin : ∀ a ∈ as, InWindow cfg userId start a) (hone : s.reached userId ≤ 1) :
    (Transition.run (GuardBurst.step cfg redisEnabled) s as).reached userId ≤ 1 ↔
      Transition.Along (GuardBurst.step cfg redisEnabled) (StaysBelow cfg userId) s as := by
  induction as generalizing s with
  | nil => exact iff_of_true hone trivial
  | cons a as ih =>
    obtain ⟨hfirst, hrest⟩ := hreset
    have hnext := h.step hfirst (hin a List.mem_cons_self)
    have hiff : (s.step cfg redisEnabled a).reached userId ≤ 1 ↔ s.StaysBelow cfg userId a :=
      h.reached_le_one hfirst hone
    rw [Transition.run_cons, Transition.along_cons, ← hiff]
    by_cases hle : (s.step cfg redisEnabled a).reached userId ≤ 1
    · have hrun := ih hnext hrest (fun b hb => hin b (List.mem_cons_of_mem a hb)) hle
      exact hrun.trans (and_iff_right hle).symm
    · -- the times do not become fewer
      have hmore := @reached_run cfg redisEnabled (s.step cfg redisEnabled a) as userId
      exact iff_of_false (by omega) fun hboth => hle hboth.1

/-- A call that has begun is in progress or has returned. -/
theorem begun_step {s : GuardBurst} (a : GuardAction) {call : IPGuardCall}
    (h : a = .begin call ∨ call ∈ s.calls.map (·.toIPGuardCall)) :
    call ∈ (s.step cfg redisEnabled a).calls.map (·.toIPGuardCall) := by
  cases a with
  | begin call' =>
    simp only [GuardBurst.step, List.map_append, List.map_cons, List.map_nil, List.mem_append,
      List.mem_singleton]
    rcases h with h | h
    · exact Or.inr (GuardAction.begin.inj h).symm
    · exact Or.inl h
  | step i clock =>
    have hmem := h.resolve_left nofun
    simp only [GuardBurst.step]
    cases hc : s.calls[i]? with
    | none => exact hmem
    | some c =>
      have hsame : ∀ phase, (s.calls.set i { c with phase := phase }).map (·.toIPGuardCall) =
          s.calls.map (·.toIPGuardCall) := by
        intro phase
        have hget : (s.calls.map (·.toIPGuardCall))[i]? = some c.toIPGuardCall := by
          rw [List.getElem?_map, hc]
          rfl
        obtain ⟨hi, hget⟩ := List.getElem?_eq_some_iff.1 hget
        rw [List.map_set, ← hget, List.set_getElem_self]
      simp only [advance]
      split
      · rwa [hsame]
      · rwa [hsame]
      · rwa [hsame]
      · exact hmem

theorem begun_run {s : GuardBurst} {call : IPGuardCall}
    (h : .begin call ∈ as ∨ call ∈ s.calls.map (·.toIPGuardCall)) :
    call ∈ (Transition.run (GuardBurst.step cfg redisEnabled) s as).calls.map
      (·.toIPGuardCall) := by
  induction as generalizing s with
  | nil => exact h.resolve_left nofun
  | cons a as ih =>
    apply ih
    rcases h with h | h
    · rcases List.mem_cons.1 h with heq | h
      · exact Or.inr (begun_step a (Or.inl heq.symm))
      · exact Or.inl h
    · exact Or.inr (begun_step a (Or.inr h))

/-- **A burst reaches the limit.** -/
theorem Burst.reached_pos {ips : List String} (hburst : Burst cfg userId start ips as)
    (hinv : BurstInv cfg redisEnabled userId start
      (Transition.run (GuardBurst.step cfg redisEnabled) init as))
    (hquiet : (Transition.run (GuardBurst.step cfg redisEnabled) init as).Quiet userId) :
    0 < (Transition.run (GuardBurst.step cfg redisEnabled) init as).reached userId := by
  rcases Nat.eq_zero_or_pos
    ((Transition.run (GuardBurst.step cfg redisEnabled) init as).reached userId) with hzero | hpos
  · -- all addresses have been recorded since the beginning
    have hall : ∀ ip ∈ ips,
        ip ∈ (Transition.run (GuardBurst.step cfg redisEnabled) init as).since userId := by
      intro ip hip
      obtain ⟨call, hbegin, hu, rfl⟩ := (hburst.called ip).1 hip
      obtain ⟨c, hc, rfl⟩ := List.mem_map.1 (begun_run (s := init) (Or.inl hbegin))
      refine hinv.kept hzero c hc hu ?_
      rw [hquiet c hc hu]
      exact nofun
    have hmany := (hburst.nodup.subperm hall).length_le
    have hne := List.ne_nil_of_mem (hall _ (List.head_mem hburst.nonempty))
    have hexact := hburst.exact
    have hfull : cfg.full
        ((Transition.run (GuardBurst.step cfg redisEnabled) init as).since userId) = true := by
      simp only [IPGuardConfig.full, Bool.and_eq_true, Bool.not_eq_true', decide_eq_true_eq,
        List.isEmpty_eq_false_iff]
      exact ⟨hne, by omega⟩
    -- so a call is about to reset them
    have hsame := hinv.same
    have hnone := @count_eq_zero GuardPhase.resetSoon _ userId
      fun c hc hu => by rw [hquiet c hc hu]; rfl
    rw [hnone, current, hfull] at hsame
    simp at hsame
  · exact hpos

end GuardBurst

open GuardBurst in
/-- **One strike each time the limit is reached**, in the runs in which every call that triggers
resets before another one records: the strikes never exceed the times the addresses recorded since
the last reset have reached the limit.  A burst costs exactly one strike, and does not ban, exactly
if its addresses do not reach the limit once more after the reset. -/
theorem one_burst_one_strike (cfg : IPGuardConfig) (redisEnabled : Bool) (userId : ℤ)
    (as : List GuardAction)
    (hreset : Transition.Along (step cfg redisEnabled) (ResetsFirst userId) init as) :
    let s := Transition.run (step cfg redisEnabled) init as
    s.strikes userId ≤ s.reached userId ∧
      ∀ start ips, Burst cfg userId start ips as → s.Quiet userId →
        (s.strikes userId = 1 ↔
          Transition.Along (step cfg redisEnabled) (StaysBelow cfg userId) init as) ∧
        (s.strikes userId = 1 → 1 < cfg.strikeLimit → s.banned userId = false) := by
  intro s
  have hinv : Inv cfg redisEnabled userId s := (inv_init cfg redisEnabled userId).run hreset
  have hbalance := hinv.balance
  have hresetting := hinv.resetting
  refine ⟨by omega, fun start ips hburst hquiet => ⟨?_, fun hone hlimit => ?_⟩⟩
  · have hfull := (burstInv_init cfg redisEnabled userId start).run hreset hburst.inWindow
    have hiff := (burstInv_init cfg redisEnabled userId start).run_reached hreset hburst.inWindow
      (Nat.zero_le 1)
    have hpos : 0 < s.reached userId := hburst.reached_pos hfull hquiet
    have hexact : s.strikes userId + count GuardPhase.struckSoon s.calls userId =
        s.reached userId := hfull.exact
    have hnone : count GuardPhase.struckSoon s.calls userId = 0 :=
      count_eq_zero fun c hc hu => by rw [hquiet c hc hu]; rfl
    rw [← hiff]
    change s.strikes userId = 1 ↔ s.reached userId ≤ 1
    omega
  · cases hban : s.banned userId with
    | false => rfl
    | true =>
      have hle := hinv.banned hban
      omega

/-- The calls of a user from the given addresses, one after the other. -/
def begins (userId : ℤ) (ips : List String) : List GuardAction :=
  ips.map fun ip => .begin ⟨userId, ip, 0⟩

/-- Four requests from three addresses, the last after the reset: one strike. -/
theorem one_burst_one_strike_three :
    let as := begins 1 ["a", "b", "c", "c"] ++
      [GuardAction.step 0 0, .step 1 0, .step 2 0, .step 2 0, .step 3 0, .step 2 0]
    let s := Transition.run (GuardBurst.step .default true) GuardBurst.init as
    s.strikes 1 ≤ s.reached 1 ∧ s.strikes 1 = 1 ∧ s.banned 1 = false := by
  intro as s
  have hburst : GuardBurst.Burst .default 1 0 ["a", "b", "c"] as := by
    refine ⟨by decide, by decide, by decide, fun ip => ?_, fun a ha => ?_⟩
    · simp [as, begins, eq_comm]
    · revert a ha
      decide
  obtain ⟨hle, hone⟩ := one_burst_one_strike .default true 1 as (by decide)
  obtain ⟨hiff, hban⟩ := hone 0 _ hburst (by unfold GuardBurst.Quiet; decide)
  have hstrike := hiff.2 (by decide)
  exact ⟨hle, hstrike, hban hstrike (by decide)⟩

/-- **Five parallel requests from three addresses ban**: all record their address before the first
reset, so three of them trigger and strike, where the limit was reached once. -/
theorem parallel_requests_strike :
    let as := begins 1 ["a", "b", "c", "c", "c"] ++
      [GuardAction.step 0 0, .step 1 0, .step 2 0, .step 3 0, .step 4 0,
        .step 2 0, .step 3 0, .step 4 0, .step 2 0, .step 3 0, .step 4 0]
    let s := Transition.run (GuardBurst.step .default true) GuardBurst.init as
    let s' := Transition.run (GuardBurst.step .default false) GuardBurst.init as
    (s.reached 1 = 1 ∧ s.strikes 1 = 3 ∧ s.banned 1 = true) ∧
      s'.reached 1 = 1 ∧ s'.strikes 1 = 3 ∧ s'.banned 1 = true := by
  decide

end NewApi
