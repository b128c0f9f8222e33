/-
**Retrying a request on other channels.**

A request is first sent to the channel that was selected for it before it reached the relay, and, as
long as it fails in a way that is worth a retry, to other channels.  A token of the group `auto`
goes through the automatic groups of its user: the position of the group at hand is kept with the
request, and the number of retries starts again with each group.  The function that selects a
channel changes both: it moves on when a group has no channel left, and sets a flag that keeps the
next count at zero when the group at hand has had all its retries.

Main definitions:

* `NewApi.RetryParam` — the count of retries and the flag;
* `NewApi.cacheGetRandomSatisfiedChannel` — the selection of the next channel;
* `NewApi.distribute` — the selection of the first channel;
* `NewApi.shouldRetry`, `NewApi.relayRound` — whether to go on, and one round of the relay loop.

Main results:

* `NewApi.relay_retry_bounded` — **the loop stops after at most one round for each retry of each
  group, and does not go back to an earlier group**, but for a first channel that was preferred;
* `NewApi.preferred_first_goes_back` — after a preferred channel the loop starts with the first
  group.
-/

import NewApi.Channel
import NewApi.Lib.Transition

set_option autoImplicit false

namespace NewApi

/-! ### The count of retries -/

/-- The count of retries and whether the next increase is left out.  The count is behind a pointer
that may be missing. -/
structure RetryParam where
  retry : Option ℕ
  resetNextTry : Bool
deriving DecidableEq, Repr

namespace RetryParam

def getRetry (p : RetryParam) : ℕ := p.retry.getD 0

def setRetry (retry : ℕ) (p : RetryParam) : RetryParam := { p with retry := some retry }

def increaseRetry (p : RetryParam) : RetryParam :=
  if p.resetNextTry then { p with resetNextTry := false }
  else { p with retry := some (p.getRetry + 1) }

def resetRetryNextTry (p : RetryParam) : RetryParam := { p with resetNextTry := true }

@[simp] theorem getRetry_setRetry (p : RetryParam) (retry : ℕ) :
    (p.setRetry retry).getRetry = retry := rfl

@[simp] theorem resetNextTry_setRetry (p : RetryParam) (retry : ℕ) :
    (p.setRetry retry).resetNextTry = p.resetNextTry := rfl

end RetryParam

/-! ### Selecting a channel -/

/-- What is fixed during a request: the groups and options, and the user's usable groups. -/
structure RelayConfig where
  tokenGroup : String
  modelName : String
  settingAutoGroups : List String
  usable : String → Bool
  crossGroupRetry : Bool
  retryTimes : ℕ

/-- `GetUserAutoGroup`: the automatic groups the user may use. -/
def RelayConfig.autoGroups (cfg : RelayConfig) : List String :=
  cfg.settingAutoGroups.filter cfg.usable

/-- What selections keep with the request: the group last selected, the position to go on from, and
the count of retries. -/
structure SelectState where
  autoGroup : Option String
  autoGroupIndex : Option ℕ
  param : RetryParam
deriving DecidableEq, Repr

/-- What `GetRandomSatisfiedChannel` answers for the group at a position, given its name and the
number of retries.  Channels come and go between two calls, so nothing is said about how two answers
are related; a channel may come with an error. -/
abbrev Lookup := ℕ → String → ℕ → Option Channel × Option String

/-- The result of a selection.  `used` are the position of the group and the number of retries the
channel was looked up with; the program does not return them. -/
structure Selection where
  channel : Option Channel
  selectGroup : String
  err : Option String
  used : Option (ℕ × ℕ)
deriving DecidableEq

/-- The loop over the automatic groups, from position `i` on; it was entered at `start`. -/
def selectFrom (cfg : RelayConfig) (lookup : Lookup) (start : ℕ) :
    ℕ → List String → SelectState → Selection × SelectState
  | _, [], st => (⟨none, cfg.tokenGroup, none, none⟩, st)
  | i, autoGroup :: rest, st =>
    let priorityRetry := if start < i then 0 else st.param.getRetry
    match (lookup i autoGroup priorityRetry).1 with
    | none =>
      -- the group has no channel left: try the next one, and count from zero
      selectFrom cfg lookup start (i + 1) rest
        { st with autoGroupIndex := some (i + 1), param := st.param.setRetry 0 }
    | some channel =>
      let selection : Selection := ⟨some channel, autoGroup, none, some (i, priorityRetry)⟩
      if cfg.crossGroupRetry ∧ cfg.retryTimes ≤ priorityRetry then
        -- this request still uses the group, the next one will not
        (selection, ⟨some autoGroup, some (i + 1), (st.param.setRetry 0).resetRetryNextTry⟩)
      else (selection, ⟨some autoGroup, some i, st.param⟩)

def cacheGetRandomSatisfiedChannel (cfg : RelayConfig) (lookup : Lookup) (st : SelectState) :
    Selection × SelectState :=
  if cfg.tokenGroup = "auto" then
    if cfg.settingAutoGroups.length = 0 then
      (⟨none, cfg.tokenGroup, some "auto groups is not enabled", none⟩, st)
    else
      let start := st.autoGroupIndex.getD 0
      selectFrom cfg lookup start start (cfg.autoGroups.drop start) st
  else
    match lookup 0 cfg.tokenGroup st.param.getRetry with
    | (_, some err) => (⟨none, cfg.tokenGroup, some err, none⟩, st)
    | (channel, none) => (⟨channel, cfg.tokenGroup, none, none⟩, st)

/-! ### The first channel -/

/-- How the first channel was found: the token names it, it is the one the client was served by
before, in the group at a position, or it was selected. -/
inductive FirstChannel where
  | specific (channel : Channel)
  | preferred (channel : Channel) (group : String) (index : Option ℕ)
  | selected (channel : Channel) (group : String) (index : Option ℕ)
deriving DecidableEq

/-- The group of a preferred channel, and its position among the automatic ones. -/
def preferredGroup (cfg : RelayConfig) (enabled : String → Bool) :
    Option (String × Option ℕ) :=
  if cfg.tokenGroup = "auto" then
    (cfg.autoGroups.findIdx? enabled).map fun i => (cfg.autoGroups.getD i "", some i)
  else if enabled cfg.tokenGroup then some (cfg.tokenGroup, none)
  else none

/-- The first channel, and what its selection has left with the request.  `specific` is the channel
the token names and `preferred` the one the client was served by before, if it is enabled at all;
`enabled` are the groups it is enabled for.  There is none if the request is refused. -/
def distribute (cfg : RelayConfig) (specific preferred : Option Channel)
    (enabled : String → Bool) (lookup : Lookup) : Option (FirstChannel × SelectState) :=
  let fresh : SelectState := ⟨none, none, ⟨some 0, false⟩⟩
  match specific with
  | some channel => some (.specific channel, fresh)
  | none =>
    match preferred, preferredGroup cfg enabled with
    | some channel, some (group, index) =>
      some (.preferred channel group index,
        if cfg.tokenGroup = "auto" then { fresh with autoGroup := some group } else fresh)
    | _, _ =>
      match cacheGetRandomSatisfiedChannel cfg lookup fresh with
      | (⟨some channel, group, none, used⟩, st) =>
        -- the relay counts its retries from zero, the rest stays with the request
        some (.selected channel group (used.map (·.1)), { st with param := fresh.param })
      | _ => none

/-! ### Whether to go on -/

structure StatusCodeRange where
  start : ℤ
  stop : ℤ
deriving DecidableEq, Repr

/-- What the decision to go on depends on besides the error. -/
structure RetryPolicy where
  affinitySkipRetry : Bool
  specificChannel : Bool
  automaticRetryStatusCodeRanges : List StatusCodeRange
deriving DecidableEq, Repr

def isAlwaysSkipRetryStatusCode (code : ℤ) : Bool := code = 504 || code = 524

def isAlwaysSkipRetryCode (errorCode : String) : Bool := errorCode = "bad_response_body"

/-- Whether a code is in one of the ranges, which are in order. -/
def matchRanges (code : ℤ) : List StatusCodeRange → Bool
  | [] => false
  | r :: rest =>
    if code < r.start then false else if code ≤ r.stop then true else matchRanges code rest

def shouldMatchStatusCodeRanges (ranges : List StatusCodeRange) (code : ℤ) : Bool :=
  if code < 100 ∨ 599 < code then false else matchRanges code ranges

def shouldRetryByStatusCode (ranges : List StatusCodeRange) (code : ℤ) : Bool :=
  if isAlwaysSkipRetryStatusCode code then false else shouldMatchStatusCodeRanges ranges code

def shouldRetry (policy : RetryPolicy) (err : Option RelayError) (retryTimes : ℤ) : Bool :=
  match err with
  | none => false
  | some e =>
    if policy.affinitySkipRetry then false
    else if hasPrefix e.errorCode "channel:" then true
    else if e.skipRetry then false
    else if retryTimes ≤ 0 then false
    else if policy.specificChannel then false
    else if 200 ≤ e.statusCode ∧ e.statusCode < 300 then false
    else if e.statusCode < 100 ∨ 599 < e.statusCode then true
    else if isAlwaysSkipRetryCode e.errorCode then false
    else shouldRetryByStatusCode policy.automaticRetryStatusCodeRanges e.statusCode

/-! ### The relay loop -/

/-- A use of a channel, with the group that was reported for it and the group's position among the
automatic ones. -/
structure RelayAttempt where
  channel : Channel
  group : Option String
  index : Option ℕ
deriving DecidableEq

/-- What a round of the loop meets: the answers of its lookups, the errors of the setup of the
channel and of the request's body, and the error the channel answers with, if any. -/
structure RelayRound where
  lookup : Lookup
  setupErr : Option RelayError
  bodyErr : Option RelayError
  answer : Option RelayError

/-- The state of the loop.  `channelMeta` says whether a channel has been used, and `attempts` are
the uses of channels so far. -/
structure RelayLoop where
  select : SelectState
  channelMeta : Bool
  newAPIError : Option RelayError
  stopped : Bool
  attempts : List RelayAttempt
deriving DecidableEq

namespace RelayLoop

/-- The loop is left. -/
def stop (err : Option RelayError) (s : RelayLoop) : RelayLoop :=
  { s with newAPIError := err, stopped := true }

/-- A channel is used. -/
def use (attempt : RelayAttempt) (s : RelayLoop) : RelayLoop :=
  { s with attempts := s.attempts ++ [attempt], channelMeta := true }

/-- The retry is counted, and the next round begins. -/
def next (err : RelayError) (s : RelayLoop) : RelayLoop :=
  { s with
    newAPIError := some err
    select := { s.select with param := s.select.param.increaseRetry } }

/-- What is left of a selection is kept with the request. -/
def keep (select : SelectState) (s : RelayLoop) : RelayLoop := { s with select := select }

end RelayLoop

def FirstChannel.attempt : FirstChannel → RelayAttempt
  | .specific channel => ⟨channel, none, none⟩
  | .preferred channel group index => ⟨channel, some group, index⟩
  | .selected channel group index => ⟨channel, some group, index⟩

/-- The channel of a round: the first one, or one that is selected now. -/
def getChannel (cfg : RelayConfig) (first : FirstChannel) (s : RelayLoop) (r : RelayRound) :
    Except RelayError RelayAttempt × SelectState :=
  if s.channelMeta = false then (.ok first.attempt, s.select)
  else
    match cacheGetRandomSatisfiedChannel cfg r.lookup s.select with
    | (⟨_, group, some err, _⟩, st) =>
      (.error (getChannelFailed ("获取分组 " ++ group ++ " 下模型 " ++ cfg.modelName ++
        " 的可用渠道失败（retry）: " ++ err)), st)
    | (⟨none, group, none, _⟩, st) =>
      (.error (getChannelFailed ("分组 " ++ group ++ " 下模型 " ++ cfg.modelName ++
        " 的可用渠道不存在（retry）")), st)
    | (⟨some channel, group, none, used⟩, st) =>
      match r.setupErr with
      | some err => (.error err, st)
      | none => (.ok ⟨channel, some group, used.map (·.1)⟩, st)

/-- What becomes of a round in which a channel is used. -/
def relayAnswer (cfg : RelayConfig) (policy : RetryPolicy) (r : RelayRound) (used : RelayLoop) :
    RelayLoop :=
  match r.bodyErr with
  | some err => used.stop (some err)
  | none =>
    match r.answer with
    | none => used.stop none
    | some err =>
      if shouldRetry policy (some err)
          ((cfg.retryTimes : ℤ) - used.select.param.getRetry) then used.next err
      else used.stop (some err)

/-- One round of the loop. -/
def relayRound (cfg : RelayConfig) (policy : RetryPolicy) (first : FirstChannel) (s : RelayLoop)
    (r : RelayRound) : RelayLoop :=
  if s.stopped then s
  else if cfg.retryTimes < s.select.param.getRetry then s.stop s.newAPIError
  else
    match getChannel cfg first s r with
    | (.error err, st) => (s.keep st).stop (some err)
    | (.ok attempt, st) => relayAnswer cfg policy r ((s.keep st).use attempt)

/-- The loop before its first round. -/
def RelayLoop.start (select : SelectState) : RelayLoop where
  select := select
  channelMeta := false
  newAPIError := none
  stopped := false
  attempts := []

/-! ### What a selection finds -/

variable {cfg : RelayConfig} {lookup : Lookup}

/-- A channel was found in the group at position `j`, looked up with `p` retries: the group is the
one reported, and the next round goes on in it with one retry more, or in the next one with none. -/
structure FoundAt (cfg : RelayConfig) (lookup : Lookup) (channel : Channel)
    (r : Selection × SelectState) (j p : ℕ) : Prop where
  found : r.1 = ⟨some channel, r.1.selectGroup, none, some (j, p)⟩
  group : cfg.autoGroups[j]? = some r.1.selectGroup
  answered : (lookup j r.1.selectGroup p).1 = some channel
  reported : r.2.autoGroup = some r.1.selectGroup
  left : (r.2.autoGroupIndex = some j ∧ r.2.param.increaseRetry = ⟨some (p + 1), false⟩) ∨
    (r.2.autoGroupIndex = some (j + 1) ∧ r.2.param.increaseRetry = ⟨some 0, false⟩)

/-- The loop over the groups finds a channel in the group it begins with, at the present count of
retries, or in a later one, at none. -/
theorem selectFrom_found {start i : ℕ} {groups : List String} {st : SelectState}
    (hgroups : groups = cfg.autoGroups.drop i) (hflag : st.param.resetNextTry = false)
    (hlater : start < i → st.param.getRetry = 0) {channel : Channel}
    (h : (selectFrom cfg lookup start i groups st).1.channel = some channel) :
    ∃ j p, FoundAt cfg lookup channel (selectFrom cfg lookup start i groups st) j p ∧
      ((j = i ∧ p = st.param.getRetry) ∨ (i < j ∧ p = 0)) := by
  induction groups generalizing i st with
  | nil => cases h
  | cons autoGroup rest ih =>
    have hgroup : cfg.autoGroups[i]? = some autoGroup := by
      have hhead := congrArg (fun l => l[0]?) hgroups
      simpa using hhead.symm
    have hrest : rest = cfg.autoGroups.drop (i + 1) := by
      have htail := congrArg List.tail hgroups
      simpa using htail
    have hretry : (if start < i then 0 else st.param.getRetry) = st.param.getRetry := by
      split
      · rename_i hlt
        exact (hlater hlt).symm
      · rfl
    unfold selectFrom at h ⊢
    simp only [hretry] at h ⊢
    cases hlookup : (lookup i autoGroup st.param.getRetry).1 with
    | none =>
      simp only [hlookup] at h ⊢
      obtain ⟨j, p, hfound, hjp⟩ := ih hrest (by simpa using hflag) (fun _ => rfl) h
      refine ⟨j, p, hfound, .inr ?_⟩
      rcases hjp with ⟨rfl, rfl⟩ | ⟨hlt, rfl⟩
      · exact ⟨Nat.lt_succ_self i, rfl⟩
      · exact ⟨Nat.lt_of_succ_lt hlt, rfl⟩
    | some found =>
      simp only [hlookup] at h ⊢
      obtain rfl : found = channel := by
        split at h <;> exact Option.some.inj h
      refine ⟨i, st.param.getRetry, ?_, .inl ⟨rfl, rfl⟩⟩
      split
      · exact ⟨rfl, hgroup, hlookup, rfl, .inr ⟨rfl, rfl⟩⟩
      · refine ⟨rfl, hgroup, hlookup, rfl, .inl ⟨rfl, ?_⟩⟩
        simp [RetryParam.increaseRetry, hflag]

/-- A selection that does not stop at an error finds a channel in the group it goes on from, or in
a later one. -/
theorem cacheGetRandomSatisfiedChannel_found (hauto : cfg.tokenGroup = "auto") {st : SelectState}
    (hflag : st.param.resetNextTry = false) {channel : Channel}
    (h : (cacheGetRandomSatisfiedChannel cfg lookup st).1.channel = some channel) :
    ∃ j p, FoundAt cfg lookup channel (cacheGetRandomSatisfiedChannel cfg lookup st) j p ∧
      ((j = st.autoGroupIndex.getD 0 ∧ p = st.param.getRetry) ∨
        (st.autoGroupIndex.getD 0 < j ∧ p = 0)) := by
  unfold cacheGetRandomSatisfiedChannel at h ⊢
  rw [if_pos hauto] at h ⊢
  split at h
  · cases h
  · rename_i hgroups
    rw [if_neg hgroups]
    exact selectFrom_found rfl hflag (fun hlt => absurd hlt (lt_irrefl _)) h

/-! ### The loop -/

/-- The first channel is one the client was served by before. -/
def FirstChannel.IsPreferred : FirstChannel → Prop
  | .preferred _ _ _ => True
  | .specific _ | .selected _ _ _ => False

/-- The positions of the groups that have been used, in order. -/
def groupIndices (attempts : List RelayAttempt) : List ℕ := attempts.filterMap (·.index)

/-- The rounds there are: one for each retry of each group, and one for a first channel that comes
from none. -/
def RelayConfig.maxAttempts (cfg : RelayConfig) : ℕ :=
  max 1 ((cfg.retryTimes + 1) * cfg.autoGroups.length)

/-- What holds of the loop.  The attempts that may have been made come to at most one for each retry
of each group before the one at hand, and one for each retry counted in it. -/
structure RelayInv (cfg : RelayConfig) (first : FirstChannel) (s : RelayLoop) : Prop where
  bound : s.attempts.length ≤ cfg.maxAttempts
  ordered : (groupIndices s.attempts.tail).Pairwise (· ≤ ·)
  orderedFirst : ¬ first.IsPreferred → (groupIndices s.attempts).Pairwise (· ≤ ·)
  unused : s.channelMeta = false → s.attempts = []
  firstReached : s.channelMeta = false → ¬ first.IsPreferred → ∀ j, first.attempt.index = some j →
    j ≤ s.select.autoGroupIndex.getD 0
  flag : s.stopped = false → s.select.param.resetNextTry = false
  count : s.stopped = false → s.attempts.length ≤
    s.select.autoGroupIndex.getD 0 * (cfg.retryTimes + 1) + s.select.param.getRetry
  reached : s.stopped = false → ∀ j ∈ groupIndices s.attempts.tail,
    j ≤ s.select.autoGroupIndex.getD 0
  reachedFirst : s.stopped = false → ¬ first.IsPreferred → ∀ j ∈ groupIndices s.attempts,
    j ≤ s.select.autoGroupIndex.getD 0

theorem groupIndices_append (attempts : List RelayAttempt) (a : RelayAttempt) :
    groupIndices (attempts ++ [a]) = groupIndices attempts ++ a.index.toList := by
  cases h : a.index with
  | none => simp [groupIndices, h]
  | some j => simp [groupIndices, h]

/-- A group that is not before those that have been used can be used next. -/
theorem pairwise_groupIndices {attempts : List RelayAttempt} {a : RelayAttempt} {j : ℕ}
    (h : (groupIndices attempts).Pairwise (· ≤ ·)) (ha : a.index = some j)
    (hle : ∀ k ∈ groupIndices attempts, k ≤ j) :
    (groupIndices (attempts ++ [a])).Pairwise (· ≤ ·) := by
  rw [groupIndices_append, ha, List.pairwise_append]
  refine ⟨h, List.pairwise_singleton _ _, ?_⟩
  intro k hk k' hk'
  rw [Option.toList_some, List.mem_singleton] at hk'
  exact hk' ▸ hle k hk

theorem mem_groupIndices_append {attempts : List RelayAttempt} {a : RelayAttempt} {j m k : ℕ}
    (ha : a.index = some j) (hj : j ≤ m) (hle : ∀ k ∈ groupIndices attempts, k ≤ m)
    (hk : k ∈ groupIndices (attempts ++ [a])) : k ≤ m := by
  rw [groupIndices_append, ha, List.mem_append, Option.toList_some, List.mem_singleton] at hk
  rcases hk with hk | rfl
  · exact hle k hk
  · exact hj

namespace RelayInv

variable {first : FirstChannel} {s : RelayLoop}

/-- Leaving the loop keeps what holds of the attempts. -/
theorem stop (h : RelayInv cfg first s) (err : Option RelayError) :
    RelayInv cfg first (s.stop err) where
  bound := h.bound
  ordered := h.ordered
  orderedFirst := h.orderedFirst
  unused := h.unused
  firstReached := h.firstReached
  flag hrun := by cases hrun
  count hrun := by cases hrun
  reached hrun := by cases hrun
  reachedFirst hrun := by cases hrun

/-- Once the first channel is used, a loop with these attempts can be left with any selection. -/
theorem left (h : RelayInv cfg first s) {s' : RelayLoop} (hattempts : s'.attempts = s.attempts)
    (hused : s'.channelMeta = true) (hstop : s'.stopped = true) : RelayInv cfg first s' where
  bound := by rw [hattempts]; exact h.bound
  ordered := by rw [hattempts]; exact h.ordered
  orderedFirst := by rw [hattempts]; exact h.orderedFirst
  unused hunused := absurd (hunused.symm.trans hused) (by decide)
  firstReached hunused := absurd (hunused.symm.trans hused) (by decide)
  flag hrun := absurd (hrun.symm.trans hstop) (by decide)
  count hrun := absurd (hrun.symm.trans hstop) (by decide)
  reached hrun := absurd (hrun.symm.trans hstop) (by decide)
  reachedFirst hrun := absurd (hrun.symm.trans hstop) (by decide)

/-- The first channel is used. -/
theorem useFirst (h : RelayInv cfg first s) (hrun : s.stopped = false)
    (hunused : s.channelMeta = false) (err : RelayError) :
    RelayInv cfg first ((s.use first.attempt).next err) := by
  have hflag := h.flag hrun
  have hattempts : ((s.use first.attempt).next err).attempts = [first.attempt] := by
    change s.attempts ++ [first.attempt] = _
    rw [h.unused hunused, List.nil_append]
  have hparam : s.select.param.increaseRetry = ⟨some (s.select.param.getRetry + 1), false⟩ := by
    simp [RetryParam.increaseRetry, hflag]
  have hindices : groupIndices [first.attempt] = first.attempt.index.toList :=
    groupIndices_append [] first.attempt
  constructor
  · rw [hattempts]
    exact le_max_left _ _
  · rw [hattempts]
    exact List.Pairwise.nil
  · intro _
    rw [hattempts, hindices]
    cases first.attempt.index with
    | none => exact List.Pairwise.nil
    | some j => exact List.pairwise_singleton _ _
  · intro hfalse
    cases hfalse
  · intro hfalse
    cases hfalse
  · intro _
    exact congrArg RetryParam.resetNextTry hparam
  · intro _
    have hretry : ((s.use first.attempt).next err).select.param.getRetry =
        s.select.param.getRetry + 1 := congrArg RetryParam.getRetry hparam
    rw [hattempts, hretry, List.length_singleton]
    omega
  · intro _ j hj
    rw [hattempts] at hj
    cases hj
  · intro _ hfirst j hj
    rw [hattempts, hindices, Option.mem_toList] at hj
    exact h.firstReached hunused hfirst j hj

/-- A channel that has been selected is used. -/
theorem useSelected (h : RelayInv cfg first s) (hrun : s.stopped = false)
    (hle : s.select.param.getRetry ≤ cfg.retryTimes) {channel : Channel} {st : SelectState}
    {selection : Selection} {j p : ℕ} (hfound : FoundAt cfg lookup channel (selection, st) j p)
    (hjp : (j = s.select.autoGroupIndex.getD 0 ∧ p = s.select.param.getRetry) ∨
      (s.select.autoGroupIndex.getD 0 < j ∧ p = 0)) {a : RelayAttempt} (ha : a.index = some j)
    (err : RelayError) : RelayInv cfg first (((s.keep st).use a).next err) := by
  have hlt : j < cfg.autoGroups.length := by
    have hgroup := hfound.group
    exact (List.getElem?_eq_some_iff.1 hgroup).1
  have hcount := h.count hrun
  have hidx : s.select.autoGroupIndex.getD 0 ≤ j := by
    rcases hjp with ⟨rfl, _⟩ | ⟨hlt, _⟩
    · exact le_rfl
    · exact hlt.le
  -- the attempts made so far come before retry `p` of group `j`
  have hbefore : s.attempts.length ≤ j * (cfg.retryTimes + 1) + p ∧ p ≤ cfg.retryTimes := by
    rcases hjp with ⟨rfl, rfl⟩ | ⟨hlater, rfl⟩
    · exact ⟨hcount, hle⟩
    · have hmul := Nat.mul_le_mul_right (cfg.retryTimes + 1) (Nat.succ_le_of_lt hlater)
      rw [Nat.succ_mul] at hmul
      exact ⟨by omega, Nat.zero_le _⟩
  have hnext : (j + 1) * (cfg.retryTimes + 1) = j * (cfg.retryTimes + 1) + (cfg.retryTimes + 1) :=
    Nat.succ_mul j (cfg.retryTimes + 1)
  have hattempts : (((s.keep st).use a).next err).attempts = s.attempts ++ [a] := rfl
  have hlength : (((s.keep st).use a).next err).attempts.length = s.attempts.length + 1 := by
    rw [hattempts, List.length_append, List.length_singleton]
  have hgroup : j ≤ (((s.keep st).use a).next err).select.autoGroupIndex.getD 0 := by
    rcases hfound.left with ⟨hindex, _⟩ | ⟨hindex, _⟩
    · exact (congrArg (·.getD 0) hindex).ge
    · exact (Nat.le_succ j).trans (congrArg (·.getD 0) hindex).ge
  have hbefore' : ∀ k ∈ groupIndices s.attempts.tail, k ≤ j := fun k hk =>
    (h.reached hrun k hk).trans hidx
  constructor
  · have hgroups : (j + 1) * (cfg.retryTimes + 1) ≤ cfg.autoGroups.length * (cfg.retryTimes + 1) :=
      Nat.mul_le_mul_right (cfg.retryTimes + 1) hlt
    rw [hlength, RelayConfig.maxAttempts, Nat.mul_comm (cfg.retryTimes + 1)]
    refine le_trans ?_ (le_max_right _ _)
    omega
  · rw [hattempts]
    cases hlist : s.attempts with
    | nil => exact List.Pairwise.nil
    | cons b l =>
      have hordered := h.ordered
      rw [hlist] at hordered hbefore'
      exact pairwise_groupIndices hordered ha hbefore'
  · intro hfirst
    exact pairwise_groupIndices (h.orderedFirst hfirst) ha fun k hk =>
      (h.reachedFirst hrun hfirst k hk).trans hidx
  · intro hfalse
    cases hfalse
  · intro hfalse
    cases hfalse
  · intro _
    rcases hfound.left with ⟨_, hparam⟩ | ⟨_, hparam⟩
    · exact congrArg RetryParam.resetNextTry hparam
    · exact congrArg RetryParam.resetNextTry hparam
  · intro _
    rw [hlength]
    rcases hfound.left with ⟨hindex, hparam⟩ | ⟨hindex, hparam⟩
    · have hretry : (((s.keep st).use a).next err).select.param.getRetry = p + 1 :=
        congrArg RetryParam.getRetry hparam
      have hat : (((s.keep st).use a).next err).select.autoGroupIndex.getD 0 = j :=
        congrArg (·.getD 0) hindex
      rw [hretry, hat]
      omega
    · have hretry : (((s.keep st).use a).next err).select.param.getRetry = 0 :=
        congrArg RetryParam.getRetry hparam
      have hat : (((s.keep st).use a).next err).select.autoGroupIndex.getD 0 = j + 1 :=
        congrArg (·.getD 0) hindex
      rw [hretry, hat]
      omega
  · intro _ k hk
    rw [hattempts] at hk
    cases hlist : s.attempts with
    | nil =>
      rw [hlist] at hk
      cases hk
    | cons b l =>
      rw [hlist] at hk hbefore'
      exact mem_groupIndices_append ha hgroup (fun k hk => (hbefore' k hk).trans hgroup) hk
  · intro _ hfirst k hk
    rw [hattempts] at hk
    refine mem_groupIndices_append ha hgroup (fun k hk => ?_) hk
    exact ((h.reachedFirst hrun hfirst k hk).trans hidx).trans hgroup

end RelayInv

/-- The channel of a round is the first one, or one that has been selected, or there is none. -/
theorem getChannel_cases (first : FirstChannel) (s : RelayLoop) (r : RelayRound) :
    (s.channelMeta = false ∧ getChannel cfg first s r = (.ok first.attempt, s.select)) ∨
      s.channelMeta = true ∧ ((∃ err st, getChannel cfg first s r = (.error err, st)) ∨
        ∃ channel selection st, getChannel cfg first s r =
            (.ok ⟨channel, some selection.selectGroup, selection.used.map (·.1)⟩, st) ∧
          cacheGetRandomSatisfiedChannel cfg r.lookup s.select = (selection, st) ∧
          selection.channel = some channel) := by
  unfold getChannel
  cases hmeta : s.channelMeta with
  | false => exact .inl ⟨rfl, rfl⟩
  | true =>
    refine .inr ⟨rfl, ?_⟩
    simp only [Bool.true_eq_false, if_false]
    split
    · exact .inl ⟨_, _, rfl⟩
    · exact .inl ⟨_, _, rfl⟩
    · rename_i channel group used st hselect
      cases r.setupErr with
      | some err => exact .inl ⟨_, _, rfl⟩
      | none => exact .inr ⟨channel, _, st, rfl, hselect, rfl⟩

/-- What a round can do. -/
inductive RelayMove (cfg : RelayConfig) (policy : RetryPolicy) (first : FirstChannel)
    (s : RelayLoop) (r : RelayRound) : RelayLoop → Prop
  | stay (hstopped : s.stopped = true) : RelayMove cfg policy first s r s
  | giveUp : RelayMove cfg policy first s r (s.stop s.newAPIError)
  | fail (st : SelectState) (err : RelayError) (hused : s.channelMeta = true) :
      RelayMove cfg policy first s r ((s.keep st).stop (some err))
  | useFirst (hrun : s.stopped = false) (hunused : s.channelMeta = false) :
      RelayMove cfg policy first s r (relayAnswer cfg policy r (s.use first.attempt))
  | useSelected (channel : Channel) (selection : Selection) (st : SelectState) (j p : ℕ)
      (hrun : s.stopped = false) (hle : s.select.param.getRetry ≤ cfg.retryTimes)
      (hfound : FoundAt cfg r.lookup channel (selection, st) j p)
      (hjp : (j = s.select.autoGroupIndex.getD 0 ∧ p = s.select.param.getRetry) ∨
        (s.select.autoGroupIndex.getD 0 < j ∧ p = 0)) :
      RelayMove cfg policy first s r (relayAnswer cfg policy r
        ((s.keep st).use ⟨channel, some selection.selectGroup, some j⟩))

/-- **A round does one of these things.** -/
theorem relayRound_move (hauto : cfg.tokenGroup = "auto") (policy : RetryPolicy)
    (first : FirstChannel) {s : RelayLoop}
    (hflag : s.stopped = false → s.select.param.resetNextTry = false) (r : RelayRound) :
    RelayMove cfg policy first s r (relayRound cfg policy first s r) := by
  unfold relayRound
  cases hrun : s.stopped with
  | true => exact .stay hrun
  | false =>
    simp only [Bool.false_eq_true, if_false]
    split
    · exact .giveUp
    · rename_i hle
      rcases getChannel_cases first s r with ⟨hunused, hget⟩ | ⟨hused, ⟨err, st, hget⟩ | hget⟩
      · rw [hget]
        exact .useFirst hrun hunused
      · rw [hget]
        exact .fail st err hused
      · obtain ⟨channel, selection, st, hget, hselect, hchannel⟩ := hget
        have hchosen : (cacheGetRandomSatisfiedChannel cfg r.lookup s.select).1.channel =
            some channel := by rw [hselect, hchannel]
        obtain ⟨j, p, hfound, hjp⟩ :=
          cacheGetRandomSatisfiedChannel_found hauto (hflag hrun) hchosen
        rw [hselect] at hfound
        have hused : selection.used = some (j, p) := congrArg Selection.used hfound.found
        rw [hget, hused]
        exact .useSelected channel selection st j p hrun (Nat.le_of_not_lt hle) hfound hjp

theorem relayAnswer_inv {first : FirstChannel} {s : RelayLoop} (policy : RetryPolicy)
    (r : RelayRound) (hused : s.channelMeta = true)
    (hnext : ∀ err, RelayInv cfg first (s.next err)) :
    RelayInv cfg first (relayAnswer cfg policy r s) := by
  have hstop : ∀ err, RelayInv cfg first (s.stop err) := fun err =>
    (hnext (getChannelFailed "")).left rfl hused rfl
  unfold relayAnswer
  split
  · exact hstop _
  · split
    · exact hstop _
    · split
      · exact hnext _
      · exact hstop _

/-- **A round keeps what holds of the loop.** -/
theorem relayRound_inv {first : FirstChannel} {s : RelayLoop} (hauto : cfg.tokenGroup = "auto")
    (policy : RetryPolicy) (h : RelayInv cfg first s) (r : RelayRound) :
    RelayInv cfg first (relayRound cfg policy first s r) := by
  have hmove := relayRound_move hauto policy first h.flag r
  generalize relayRound cfg policy first s r = s' at hmove ⊢
  cases hmove with
  | stay => exact h
  | giveUp => exact h.stop s.newAPIError
  | fail st err hused => exact h.left rfl hused rfl
  | useFirst hrun hunused => exact relayAnswer_inv policy r rfl (h.useFirst hrun hunused)
  | useSelected channel selection st j p hrun hle hfound hjp =>
    exact relayAnswer_inv policy r rfl (h.useSelected hrun hle hfound hjp rfl)

/-! ### Whole runs -/

theorem attempts_relayAnswer (policy : RetryPolicy) (r : RelayRound) (s : RelayLoop) :
    (relayAnswer cfg policy r s).attempts = s.attempts := by
  unfold relayAnswer
  split
  · rfl
  · split
    · rfl
    · split <;> rfl

/-- A round that does not leave the loop uses a channel. -/
theorem relayRound_running {policy : RetryPolicy} {first : FirstChannel} {s : RelayLoop}
    {r : RelayRound} (hrun : (relayRound cfg policy first s r).stopped = false) :
    (relayRound cfg policy first s r).attempts.length = s.attempts.length + 1 := by
  unfold relayRound at hrun ⊢
  by_cases hstopped : s.stopped = true
  · rw [if_pos hstopped, hstopped] at hrun
    cases hrun
  · rw [if_neg hstopped] at hrun ⊢
    split at hrun
    · cases hrun
    · rename_i hle
      rw [if_neg hle]
      split at hrun
      · cases hrun
      · rename_i a st hget
        rw [attempts_relayAnswer]
        exact List.length_append

theorem relayRound_stopped {policy : RetryPolicy} {first : FirstChannel} {s : RelayLoop}
    (hstopped : s.stopped = true) (r : RelayRound) : relayRound cfg policy first s r = s := by
  unfold relayRound
  rw [if_pos hstopped]

/-- As long as the loop goes on, every round uses a channel. -/
theorem run_running {policy : RetryPolicy} {first : FirstChannel} {s : RelayLoop}
    {rounds : List RelayRound}
    (hrun : (Transition.run (relayRound cfg policy first) s rounds).stopped = false) :
    (Transition.run (relayRound cfg policy first) s rounds).attempts.length =
      s.attempts.length + rounds.length := by
  induction rounds generalizing s with
  | nil => rfl
  | cons r rounds ih =>
    rw [Transition.run_cons] at hrun ⊢
    have hfirst : (relayRound cfg policy first s r).stopped = false := by
      by_contra hstopped
      rw [Bool.not_eq_false] at hstopped
      rw [Transition.run_of_frozen (relayRound_stopped hstopped), hstopped] at hrun
      cases hrun
    rw [ih hrun, relayRound_running hfirst, List.length_cons]
    omega

/-- The group reported with an attempt is the one whose channel was returned. -/
def Reported (cfg : RelayConfig) (lookup : Lookup) (a : RelayAttempt) : Prop :=
  ∃ j group p, a.index = some j ∧ a.group = some group ∧ cfg.autoGroups[j]? = some group ∧
    (lookup j group p).1 = some a.channel

/-- A round adds at most an attempt with the first channel, or one with a channel its own lookups
have returned. -/
theorem relayRound_attempts {policy : RetryPolicy} {first : FirstChannel} {s : RelayLoop}
    (hauto : cfg.tokenGroup = "auto") (h : RelayInv cfg first s) (r : RelayRound) :
    ∀ a ∈ (relayRound cfg policy first s r).attempts,
      a ∈ s.attempts ∨ a = first.attempt ∨ Reported cfg r.lookup a := by
  have hmove := relayRound_move hauto policy first h.flag r
  generalize relayRound cfg policy first s r = s' at hmove ⊢
  intro a
  cases hmove with
  | stay => exact fun ha => .inl ha
  | giveUp => exact fun ha => .inl ha
  | fail => exact fun ha => .inl ha
  | useFirst =>
    rw [attempts_relayAnswer]
    intro ha
    rcases List.mem_append.1 ha with ha | ha
    · exact .inl ha
    · exact .inr (.inl (List.mem_singleton.1 ha))
  | useSelected channel selection st j p hrun hle hfound hjp =>
    rw [attempts_relayAnswer]
    intro ha
    rcases List.mem_append.1 ha with ha | ha
    · exact .inl ha
    · obtain rfl := List.mem_singleton.1 ha
      exact .inr (.inr ⟨j, selection.selectGroup, p, rfl, rfl, hfound.group, hfound.answered⟩)

/-! ### The first channel -/

theorem relayInv_start {first : FirstChannel} {select : SelectState}
    (hparam : select.param = ⟨some 0, false⟩)
    (hreached : ¬ first.IsPreferred → ∀ j, first.attempt.index = some j →
      j ≤ select.autoGroupIndex.getD 0) : RelayInv cfg first (.start select) where
  bound := Nat.zero_le _
  ordered := List.Pairwise.nil
  orderedFirst _ := List.Pairwise.nil
  unused _ := rfl
  firstReached _ := hreached
  flag _ := congrArg RetryParam.resetNextTry hparam
  count _ := Nat.zero_le _
  reached _ j hj := by cases hj
  reachedFirst _ _ j hj := by cases hj

/-- A first channel that has been selected was found like any other, and the loop goes on from
where its selection has left off. -/
theorem distribute_start (hauto : cfg.tokenGroup = "auto") {specific preferred : Option Channel}
    {enabled : String → Bool} {first : FirstChannel} {select : SelectState}
    (h : distribute cfg specific preferred enabled lookup = some (first, select)) :
    RelayInv cfg first (.start select) ∧
      ∀ channel group index, first = .selected channel group index →
        Reported cfg lookup first.attempt := by
  unfold distribute at h
  simp only at h
  split at h
  · obtain ⟨rfl, rfl⟩ := Prod.mk.inj (Option.some.inj h)
    refine ⟨relayInv_start rfl fun _ j hj => ?_, fun channel group index hfirst => ?_⟩
    · cases hj
    · cases hfirst
  · split at h
    · rw [if_pos hauto] at h
      obtain ⟨rfl, rfl⟩ := Prod.mk.inj (Option.some.inj h)
      refine ⟨relayInv_start rfl fun hfirst => absurd trivial hfirst, ?_⟩
      intro channel group index hfirst
      cases hfirst
    · split at h
      · rename_i channel group used st hselect
        obtain ⟨rfl, rfl⟩ := Prod.mk.inj (Option.some.inj h)
        have hchosen : (cacheGetRandomSatisfiedChannel cfg lookup
            ⟨none, none, ⟨some 0, false⟩⟩).1.channel = some channel := by rw [hselect]
        obtain ⟨j, p, hfound, _⟩ := cacheGetRandomSatisfiedChannel_found hauto rfl hchosen
        rw [hselect] at hfound
        have hused : used = some (j, p) := congrArg Selection.used hfound.found
        have hreach : j ≤ st.autoGroupIndex.getD 0 := by
          rcases hfound.left with ⟨hindex, _⟩ | ⟨hindex, _⟩
          · exact (congrArg (·.getD 0) hindex).ge
          · exact (Nat.le_succ j).trans (congrArg (·.getD 0) hindex).ge
        subst hused
        refine ⟨relayInv_start rfl fun _ k hk => ?_, fun _ _ _ _ => ?_⟩
        · obtain rfl : j = k := Option.some.inj hk
          exact hreach
        · exact ⟨j, group, p, rfl, rfl, hfound.group, hfound.answered⟩
      · cases h

/-- **Retries are bounded and in order.**  The loop uses a channel at most once for each retry of
each group, and has stopped after as many rounds; it does not go back to an earlier group, but for a
first channel that was preferred; and the group reported with a channel is the one it was found
in. -/
theorem relay_retry_bounded (cfg : RelayConfig) (hauto : cfg.tokenGroup = "auto")
    (policy : RetryPolicy) (specific preferred : Option Channel) (enabled : String → Bool)
    (lookup : Lookup) (first : FirstChannel) (select : SelectState)
    (hfirst : distribute cfg specific preferred enabled lookup = some (first, select))
    (rounds : List RelayRound) :
    let s := Transition.run (relayRound cfg policy first) (.start select) rounds
    s.attempts.length ≤ cfg.maxAttempts ∧
      (cfg.maxAttempts < rounds.length → s.stopped = true) ∧
      (groupIndices s.attempts.tail).Pairwise (· ≤ ·) ∧
      (¬ first.IsPreferred → (groupIndices s.attempts).Pairwise (· ≤ ·)) ∧
      (∀ channel group index, first = .selected channel group index →
        Reported cfg lookup first.attempt) ∧
      ∀ a ∈ s.attempts, a = first.attempt ∨ ∃ r ∈ rounds, Reported cfg r.lookup a := by
  intro s
  obtain ⟨hstart, hselected⟩ := distribute_start hauto hfirst
  have hstep : ∀ s r, RelayInv cfg first s → RelayInv cfg first (relayRound cfg policy first s r) :=
    fun s r h => relayRound_inv hauto policy h r
  have hinv : RelayInv cfg first s := Transition.run_invariant_always hstep hstart rounds
  refine ⟨hinv.bound, fun hlong => ?_, hinv.ordered, hinv.orderedFirst, hselected, ?_⟩
  · by_contra hrun
    have hlength : s.attempts.length = 0 + rounds.length :=
      run_running (Bool.not_eq_true _ ▸ hrun)
    have hbound := hinv.bound
    omega
  · have hreported : ∀ s r, (RelayInv cfg first s ∧ ∀ a ∈ s.attempts, a = first.attempt ∨
        ∃ r ∈ rounds, Reported cfg r.lookup a) → r ∈ rounds →
        (RelayInv cfg first (relayRound cfg policy first s r) ∧
          ∀ a ∈ (relayRound cfg policy first s r).attempts, a = first.attempt ∨
            ∃ r ∈ rounds, Reported cfg r.lookup a) := by
      rintro s r ⟨h, hattempts⟩ hr
      refine ⟨hstep s r h, fun a ha => ?_⟩
      rcases relayRound_attempts hauto h r a ha with ha | rfl | ha
      · exact hattempts a ha
      · exact .inl rfl
      · exact .inr ⟨r, hr, ha⟩
    have hempty : ∀ a ∈ (RelayLoop.start select).attempts, a = first.attempt ∨
        ∃ r ∈ rounds, Reported cfg r.lookup a := by
      intro a ha
      cases ha
    exact (Transition.run_invariant hreported ⟨hstart, hempty⟩
      (Transition.along_of_forall fun r hr => hr)).2

/-! ### Runs -/

/-- Two automatic groups, each with one retry. -/
def twoGroups : RelayConfig where
  tokenGroup := "auto"
  modelName := "gpt-4o"
  settingAutoGroups := ["a", "b"]
  usable _ := true
  crossGroupRetry := true
  retryTimes := 1

/-- The status codes that are retried unless the settings say otherwise. -/
def defaultRetryPolicy : RetryPolicy where
  affinitySkipRetry := false
  specificChannel := false
  automaticRetryStatusCodeRanges :=
    [⟨100, 199⟩, ⟨300, 399⟩, ⟨401, 407⟩, ⟨409, 499⟩, ⟨500, 503⟩, ⟨505, 523⟩, ⟨525, 599⟩]

def plainChannel (id : ℤ) : Channel where
  id := id
  key := "k"
  status := channelStatusEnabled
  weight := none
  models := "gpt-4o"
  group := "a,b"
  priority := none
  otherInfo := ⟨none, none⟩
  channelInfo := ⟨false, ∅, ∅, ∅, 0, .unknown⟩
  keys := []

/-- Every group has a channel. -/
def everywhere : Lookup := fun _ _ _ => (some (plainChannel 1), none)

/-- A round in which the channel answers with an error that is retried. -/
def failingRound : RelayRound where
  lookup := everywhere
  setupErr := none
  bodyErr := none
  answer := some ⟨"", "bad_response_status_code", 500, false⟩

/-- When every channel fails each group is used twice, and the fifth round leaves the loop. -/
theorem relay_retry_bounded_all_fail :
    let first := FirstChannel.selected (plainChannel 1) "a" (some 0)
    let s := Transition.run (relayRound twoGroups defaultRetryPolicy first)
      (.start ⟨some "a", some 0, ⟨some 0, false⟩⟩) (List.replicate 5 failingRound)
    groupIndices s.attempts = [0, 0, 1, 1] ∧ s.stopped = true ∧
      (groupIndices s.attempts).Pairwise (· ≤ ·) := by
  have hbounded := relay_retry_bounded twoGroups rfl defaultRetryPolicy none none (fun _ => false)
    everywhere (.selected (plainChannel 1) "a" (some 0)) ⟨some "a", some 0, ⟨some 0, false⟩⟩
    (by rfl) (List.replicate 5 failingRound)
  exact ⟨by decide, hbounded.2.1 (by decide), hbounded.2.2.2.1 id⟩

/-- A preferred channel of the second group is followed by one of the first; and a channel the token
names is used although there is no automatic group. -/
theorem preferred_first_goes_back :
    let first := FirstChannel.preferred (plainChannel 2) "b" (some 1)
    let select : SelectState := ⟨some "b", none, ⟨some 0, false⟩⟩
    let s := Transition.run (relayRound twoGroups defaultRetryPolicy first) (.start select)
      [failingRound, failingRound]
    let noGroups := { twoGroups with settingAutoGroups := [] }
    let named := FirstChannel.specific (plainChannel 2)
    let s' := relayRound noGroups defaultRetryPolicy named
      (.start ⟨none, none, ⟨some 0, false⟩⟩) failingRound
    (distribute twoGroups none (some (plainChannel 2)) (· = "b") everywhere = some (first, select) ∧
      groupIndices s.attempts = [1, 0] ∧ ¬ (groupIndices s.attempts).Pairwise (· ≤ ·)) ∧
      distribute noGroups (some (plainChannel 2)) none (fun _ => false) everywhere =
        some (named, ⟨none, none, ⟨some 0, false⟩⟩) ∧
      (noGroups.retryTimes + 1) * noGroups.autoGroups.length < s'.attempts.length := by
  refine ⟨⟨by rfl, ?_⟩, by rfl, ?_⟩
  · decide
  · decide

end NewApi
