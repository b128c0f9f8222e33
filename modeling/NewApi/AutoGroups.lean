/-
**The priorities of the automatic groups.**

The comment of `CacheGetRandomSatisfiedChannel` says that a request that fails goes through the
priorities of a group, the highest first, and then through those of the next group.  The function
moves on when a group has been tried once for each retry, and the choice of a channel stays at the
lowest priority when the count goes beyond it.  A group with fewer priorities than tries has the
lowest one tried again, and one with more is left before its lowest.

Main definitions:

* `NewApi.cacheLookup` — the answers of the cache of channels;
* `NewApi.documentedLevels` — the groups and priorities in the order of the comment;
* `NewApi.triedLevels` — those that have been tried;
* `NewApi.LevelsMatchRetries` — the condition.

Main results:

* `NewApi.triedLevels_run` — what a run tries whose attempts all fail;
* `NewApi.levels_in_documented_order` — **the priorities are tried in the order of the comment
  exactly if there are as many as tries**, or more in the last group.
-/

import NewApi.ChannelDatabase
import NewApi.RelayRetry
import NewApi.Lib.Blocks

set_option autoImplicit false

namespace NewApi

/-! ### What is tried -/

/-- The answers of the cache.  `intn` gives the random numbers. -/
def cacheLookup (cache : ChannelCache) (model : String) (intn : ℤ → ℤ) : Lookup :=
  fun _ group retry =>
    match getRandomSatisfiedChannel cache group model retry intn with
    | .ok channel => (channel, none)
    | .error err => (none, some err)

/-- The priorities that serve a group and a model, the highest first. -/
def ChannelCache.levels (cache : ChannelCache) (group model : String) : List ℤ :=
  Levels.descending ((cache.channels group model).map Channel.getPriority)

/-- The positions of the groups and their priorities, in the order of the comment. -/
def documentedLevels (cfg : RelayConfig) (cache : ChannelCache) : List (ℕ × ℤ) :=
  Blocks.numbered 0 (cfg.autoGroups.map fun group => cache.levels group cfg.modelName)

/-- The positions of the groups and the priorities that have been tried. -/
def triedLevels (attempts : List RelayAttempt) : List (ℕ × ℤ) :=
  attempts.filterMap fun a => a.index.map fun i => (i, a.channel.getPriority)

/-- A round that reads the cache and in which the channel fails in a way that is worth a retry as
long as there are retries. -/
structure FailingRound (cfg : RelayConfig) (policy : RetryPolicy) (cache : ChannelCache)
    (r : RelayRound) : Prop where
  lookup : ∃ intn, IsIntn intn ∧ r.lookup = cacheLookup cache cfg.modelName intn
  setup : r.setupErr = none
  body : r.bodyErr = none
  failed : ∃ err, r.answer = some err ∧
    ∀ retryTimes : ℤ, 0 < retryTimes → shouldRetry policy (some err) retryTimes = true

/-- What the comment promises: nothing else is tried than the priorities in their order, and as many
as there are retries. -/
structure InDocumentedOrder (cfg : RelayConfig) (cache : ChannelCache) (rounds : ℕ)
    (attempts : List RelayAttempt) : Prop where
  inOrder : triedLevels attempts <+: documentedLevels cfg cache
  asMany : min rounds (min (cfg.retryTimes + 1) (documentedLevels cfg cache).length) ≤
    (triedLevels attempts).length

/-- **The condition**: there are no retries, or every group has as many priorities as tries, and the
last one at least as many. -/
def LevelsMatchRetries (cfg : RelayConfig) (cache : ChannelCache) : Prop :=
  cfg.retryTimes = 0 ∨
    (∀ group ∈ cfg.autoGroups.dropLast,
      (cache.levels group cfg.modelName).length = cfg.retryTimes + 1) ∧
    ∀ group ∈ cfg.autoGroups.getLast?,
      cfg.retryTimes + 1 ≤ (cache.levels group cfg.modelName).length

/-- What is tried in a group: one priority for each try, and the last one when there are no more. -/
def retriedLevels (retryTimes : ℕ) (levels : List ℤ) : List ℤ :=
  (List.range (retryTimes + 1)).map fun retry => levels.getD (min retry (levels.length - 1)) 0

/-- What is tried in all groups. -/
def retriedBlocks (cfg : RelayConfig) (cache : ChannelCache) : List (List ℤ) :=
  cfg.autoGroups.map fun group => retriedLevels cfg.retryTimes (cache.levels group cfg.modelName)

@[simp] theorem length_retriedLevels (retryTimes : ℕ) (levels : List ℤ) :
    (retriedLevels retryTimes levels).length = retryTimes + 1 := by
  rw [retriedLevels, List.length_map, List.length_range]

/-- With as many priorities as tries these are the first ones. -/
theorem retriedLevels_eq_take {retryTimes : ℕ} {levels : List ℤ}
    (h : retryTimes + 1 ≤ levels.length) :
    retriedLevels retryTimes levels = levels.take (retryTimes + 1) := by
  refine List.ext_getElem (by simpa using h) fun retry hretry hretry' => ?_
  have hlt : retry < retryTimes + 1 := by simpa using hretry
  have hmin : min retry (levels.length - 1) = retry := by omega
  have hlevel : retry < levels.length := by omega
  simp only [retriedLevels, List.getElem_map, List.getElem_range, List.getElem_take, hmin]
  exact List.getD_eq_getElem levels 0 hlevel

theorem retriedLevels_eq_iff {retryTimes : ℕ} {levels : List ℤ} :
    retriedLevels retryTimes levels = levels ↔ levels.length = retryTimes + 1 := by
  constructor
  · intro h
    rw [← h, length_retriedLevels]
  · intro h
    rw [retriedLevels_eq_take h.ge, ← h, List.take_length]

theorem retriedLevels_prefix_iff {retryTimes : ℕ} {levels : List ℤ} :
    retriedLevels retryTimes levels <+: levels ↔ retryTimes + 1 ≤ levels.length := by
  constructor
  · intro h
    have hle := h.length_le
    rwa [length_retriedLevels] at hle
  · intro h
    rw [retriedLevels_eq_take h]
    exact List.take_prefix _ _

/-- **All that is tried is in the order of the comment** exactly under the condition. -/
theorem retriedBlocks_prefix_iff (cfg : RelayConfig) (cache : ChannelCache) :
    Blocks.numbered 0 (retriedBlocks cfg cache) <+: documentedLevels cfg cache ↔
      (∀ group ∈ cfg.autoGroups.dropLast,
        (cache.levels group cfg.modelName).length = cfg.retryTimes + 1) ∧
      ∀ group ∈ cfg.autoGroups.getLast?,
        cfg.retryTimes + 1 ≤ (cache.levels group cfg.modelName).length := by
  have hne : ∀ group ∈ cfg.autoGroups,
      retriedLevels cfg.retryTimes (cache.levels group cfg.modelName) ≠ [] := by
    intro group _
    exact List.ne_nil_of_length_pos (by rw [length_retriedLevels]; omega)
  unfold retriedBlocks documentedLevels
  rw [Blocks.numbered_prefix_iff hne]
  simp only [retriedLevels_eq_iff, retriedLevels_prefix_iff]

/-! ### One try -/

section Try

variable {cfg : RelayConfig} {cache : ChannelCache}

/-- **The cache answers with a channel of the priority that is to be tried.** -/
theorem cacheLookup_level (h : cache.Consistent)
    (hweights : ∀ id channel, cache.channelsIDM id = some channel → 0 ≤ channel.getWeight)
    {intn : ℤ → ℤ} (hintn : IsIntn intn) {group model : String}
    (hserved : cache.candidates group model ≠ []) (i retry : ℕ) :
    ∃ channel, cacheLookup cache model intn i group retry = (some channel, none) ∧
      channel.getPriority = (cache.levels group model).getD
        (min retry ((cache.levels group model).length - 1)) 0 := by
  have hchannels := h.channels_ne_nil hserved
  have hpriorities : priorities (cache.channels group model) ≠ ∅ := by
    intro hempty
    rw [priorities, List.toFinset_eq_empty_iff] at hempty
    exact hchannels (List.map_eq_nil_iff.1 hempty)
  obtain ⟨channel, hchannel, hlevel⟩ :=
    @cachedChoice_level group model retry cache h hweights intn hintn hpriorities
  refine ⟨channel, by rw [cacheLookup, hchannel], ?_⟩
  have hlength : (cache.levels group model).length =
      (priorities (cache.channels group model)).card :=
    Levels.length_descending _
  have hcard := Finset.card_pos.2 (Finset.nonempty_iff_ne_empty.2 hpriorities)
  have hlt : min retry ((cache.levels group model).length - 1) <
      (cache.levels group model).length := by omega
  have hplace := Levels.isLevel_getElem
    (Levels.descending_pairwise ((cache.channels group model).map Channel.getPriority)) hlt
  rw [Levels.toFinset_descending] at hplace
  rw [List.getD_eq_getElem _ _ hlt]
  rw [← hlength] at hlevel
  exact hlevel.unique hplace

/-- A selection in the group at hand, if it has a channel. -/
theorem selection_at (hauto : cfg.tokenGroup = "auto") (hcross : cfg.crossGroupRetry = true)
    {lookup : Lookup} {st : SelectState} {i p : ℕ} {group : String} {channel : Channel}
    (hgroup : cfg.autoGroups[i]? = some group) (hindex : st.autoGroupIndex.getD 0 = i)
    (hretry : st.param.getRetry = p) (hlookup : lookup i group p = (some channel, none)) :
    cacheGetRandomSatisfiedChannel cfg lookup st =
      (⟨some channel, group, none, some (i, p)⟩,
        if cfg.retryTimes ≤ p then
          ⟨some group, some (i + 1), (st.param.setRetry 0).resetRetryNextTry⟩
        else ⟨some group, some i, st.param⟩) := by
  have hsome : cfg.settingAutoGroups.length ≠ 0 := by
    intro hnil
    have hempty : cfg.autoGroups = [] := by
      rw [RelayConfig.autoGroups, List.length_eq_zero_iff.1 hnil, List.filter_nil]
    rw [hempty] at hgroup
    cases hgroup
  unfold cacheGetRandomSatisfiedChannel
  rw [if_pos hauto, if_neg hsome]
  simp only [hindex, Blocks.drop_of_getElem? hgroup]
  unfold selectFrom
  simp only [lt_irrefl, if_false, hretry, hlookup, hcross, true_and]
  split
  · rfl
  · rfl

/-- After the last group there is no channel. -/
theorem selection_after_last (hauto : cfg.tokenGroup = "auto") {lookup : Lookup} {st : SelectState}
    (hlast : cfg.autoGroups.length ≤ st.autoGroupIndex.getD 0)
    (hsome : cfg.settingAutoGroups.length ≠ 0) :
    cacheGetRandomSatisfiedChannel cfg lookup st = (⟨none, cfg.tokenGroup, none, none⟩, st) := by
  unfold cacheGetRandomSatisfiedChannel
  rw [if_pos hauto, if_neg hsome]
  simp only [List.drop_eq_nil_of_le hlast]
  rfl

theorem triedLevels_append (attempts : List RelayAttempt) (channel : Channel) (group : String)
    (i : ℕ) : triedLevels (attempts ++ [⟨channel, some group, some i⟩]) =
      triedLevels attempts ++ [(i, channel.getPriority)] := by
  rw [triedLevels, triedLevels, List.filterMap_append]
  rfl

/-- The loop is at retry `p` of the group at position `i`. -/
structure Trying (cfg : RelayConfig) (i p : ℕ) (s : RelayLoop) : Prop where
  running : s.stopped = false
  used : s.channelMeta = true
  index : s.select.autoGroupIndex = some i
  param : s.select.param = ⟨some p, false⟩
  within : p ≤ cfg.retryTimes

/-- What a failing attempt leads to while there are retries. -/
theorem relayAnswer_next {policy : RetryPolicy} {r : RelayRound}
    (hr : FailingRound cfg policy cache r) {s : RelayLoop}
    (hleft : s.select.param.getRetry < cfg.retryTimes) :
    ∃ err, relayAnswer cfg policy r s = s.next err := by
  obtain ⟨err, hanswer, hretry⟩ := hr.failed
  refine ⟨err, ?_⟩
  unfold relayAnswer
  simp only [hr.body, hanswer]
  rw [if_pos (hretry _ (by omega))]

/-- The place after retry `p` of the group at position `i`. -/
def nextPlace (cfg : RelayConfig) (i p : ℕ) : ℕ × ℕ :=
  if cfg.retryTimes ≤ p then (i + 1, 0) else (i, p + 1)

/-- **A failing round tries the priority at hand**, and the loop goes on at the next place. -/
theorem relayRound_trying (h : cache.Consistent)
    (hweights : ∀ id channel, cache.channelsIDM id = some channel → 0 ≤ channel.getWeight)
    (hauto : cfg.tokenGroup = "auto") (hcross : cfg.crossGroupRetry = true)
    (hretries : 0 < cfg.retryTimes) {policy : RetryPolicy} (first : FirstChannel) {s : RelayLoop}
    {r : RelayRound} (hr : FailingRound cfg policy cache r) {i p : ℕ} (hs : Trying cfg i p s)
    {group : String} (hgroup : cfg.autoGroups[i]? = some group)
    (hserved : cache.candidates group cfg.modelName ≠ []) :
    Trying cfg (nextPlace cfg i p).1 (nextPlace cfg i p).2 (relayRound cfg policy first s r) ∧
      triedLevels (relayRound cfg policy first s r).attempts = triedLevels s.attempts ++
        [(i, (cache.levels group cfg.modelName).getD
          (min p ((cache.levels group cfg.modelName).length - 1)) 0)] := by
  obtain ⟨intn, hintn, hlookup⟩ := hr.lookup
  obtain ⟨channel, hchannel, hpriority⟩ := cacheLookup_level h hweights hintn hserved i p
  have hcount : s.select.param.getRetry = p := by rw [hs.param]; rfl
  have hselect := selection_at hauto hcross hgroup (by rw [hs.index]; rfl) hcount hchannel
  rw [← hlookup] at hselect
  have hget : getChannel cfg first s r = (.ok ⟨channel, some group, some i⟩,
      if cfg.retryTimes ≤ p then
        ⟨some group, some (i + 1), (s.select.param.setRetry 0).resetRetryNextTry⟩
      else ⟨some group, some i, s.select.param⟩) := by
    unfold getChannel
    rw [hs.used, if_neg (by decide), hselect]
    simp only [hr.setup, Option.map_some]
  have hround : relayRound cfg policy first s r = relayAnswer cfg policy r
      ((s.keep (if cfg.retryTimes ≤ p then
        ⟨some group, some (i + 1), (s.select.param.setRetry 0).resetRetryNextTry⟩
      else ⟨some group, some i, s.select.param⟩)).use ⟨channel, some group, some i⟩) := by
    unfold relayRound
    rw [hs.running, if_neg (by decide), if_neg (by have := hs.within; omega), hget]
  have hattempts : triedLevels (relayRound cfg policy first s r).attempts =
      triedLevels s.attempts ++ [(i, channel.getPriority)] := by
    rw [hround, attempts_relayAnswer]
    exact triedLevels_append s.attempts channel group i
  refine ⟨?_, by rw [hattempts, hpriority]⟩
  rw [hround]
  by_cases hlast : cfg.retryTimes ≤ p
  · -- the last retry of the group: the count begins again
    rw [if_pos hlast, nextPlace, if_pos hlast]
    obtain ⟨err, hnext⟩ := @relayAnswer_next cfg cache policy r hr
      ((s.keep ⟨some group, some (i + 1), (s.select.param.setRetry 0).resetRetryNextTry⟩).use
        ⟨channel, some group, some i⟩) hretries
    rw [hnext]
    exact ⟨hs.running, rfl, rfl, rfl, Nat.zero_le _⟩
  · rw [if_neg hlast, nextPlace, if_neg hlast]
    obtain ⟨err, hnext⟩ := @relayAnswer_next cfg cache policy r hr
      ((s.keep ⟨some group, some i, s.select.param⟩).use ⟨channel, some group, some i⟩)
      (by
        change s.select.param.getRetry < cfg.retryTimes
        omega)
    rw [hnext]
    refine ⟨hs.running, rfl, rfl, ?_, ?_⟩
    · change s.select.param.increaseRetry = _
      rw [hs.param]
      rfl
    · change p + 1 ≤ cfg.retryTimes
      omega

/-- After the last group the loop is left. -/
theorem relayRound_after_last (hauto : cfg.tokenGroup = "auto")
    (hsome : cfg.settingAutoGroups.length ≠ 0) {policy : RetryPolicy} (first : FirstChannel)
    {s : RelayLoop} (r : RelayRound) {i p : ℕ} (hs : Trying cfg i p s)
    (hlast : cfg.autoGroups.length ≤ i) :
    (relayRound cfg policy first s r).stopped = true ∧
      (relayRound cfg policy first s r).attempts = s.attempts := by
  have hselect := @selection_after_last cfg hauto r.lookup s.select (by rw [hs.index]; exact hlast)
    hsome
  have hretry : s.select.param.getRetry = p := by rw [hs.param]; rfl
  unfold relayRound
  rw [hs.running, if_neg (by decide), if_neg (by have := hs.within; omega)]
  unfold getChannel
  rw [hs.used, if_neg (by decide), hselect]
  exact ⟨rfl, rfl⟩

end Try

/-! ### A whole run -/

section Run

variable {cfg : RelayConfig} {cache : ChannelCache} {policy : RetryPolicy} {first : FirstChannel}

/-- What comes after a try. -/
theorem after_nextPlace {i p : ℕ} {group : String} (hgroup : cfg.autoGroups[i]? = some group)
    (hp : p ≤ cfg.retryTimes) :
    Blocks.after (retriedBlocks cfg cache) i p =
      (i, (cache.levels group cfg.modelName).getD
        (min p ((cache.levels group cfg.modelName).length - 1)) 0) ::
          Blocks.after (retriedBlocks cfg cache) (nextPlace cfg i p).1 (nextPlace cfg i p).2 := by
  have hblock : (retriedBlocks cfg cache)[i]? =
      some (retriedLevels cfg.retryTimes (cache.levels group cfg.modelName)) := by
    rw [retriedBlocks, List.getElem?_map, hgroup, Option.map_some]
  have hlt : p < (retriedLevels cfg.retryTimes (cache.levels group cfg.modelName)).length := by
    rw [length_retriedLevels]
    omega
  have hget : (retriedLevels cfg.retryTimes (cache.levels group cfg.modelName))[p] =
      (cache.levels group cfg.modelName).getD
        (min p ((cache.levels group cfg.modelName).length - 1)) 0 := by
    simp only [retriedLevels, List.getElem_map, List.getElem_range]
  rw [Blocks.after_eq_cons hblock hlt, hget]
  by_cases hlast : cfg.retryTimes ≤ p
  · have hnext := Blocks.after_length hblock
    rw [length_retriedLevels] at hnext
    rw [nextPlace, if_pos hlast, ← hnext, le_antisymm hlast hp]
  · rw [nextPlace, if_neg hlast]

/-- **From a try on**, a run whose attempts all fail tries what comes next. -/
theorem triedLevels_from (h : cache.Consistent)
    (hweights : ∀ id channel, cache.channelsIDM id = some channel → 0 ≤ channel.getWeight)
    (hauto : cfg.tokenGroup = "auto") (hcross : cfg.crossGroupRetry = true)
    (hretries : 0 < cfg.retryTimes) (hsome : cfg.settingAutoGroups.length ≠ 0)
    (hserved : ∀ group ∈ cfg.autoGroups, cache.candidates group cfg.modelName ≠ [])
    {rounds : List RelayRound} (hrounds : ∀ r ∈ rounds, FailingRound cfg policy cache r)
    {s : RelayLoop} {i p : ℕ} (hs : Trying cfg i p s) :
    triedLevels (Transition.run (relayRound cfg policy first) s rounds).attempts =
      triedLevels s.attempts ++
        (Blocks.after (retriedBlocks cfg cache) i p).take rounds.length := by
  induction rounds generalizing s i p with
  | nil => rw [Transition.run_nil, List.length_nil, List.take_zero, List.append_nil]
  | cons r rounds ih =>
    rw [Transition.run_cons]
    have hr := hrounds r List.mem_cons_self
    have hrest : ∀ r ∈ rounds, FailingRound cfg policy cache r :=
      fun r' hr' => hrounds r' (List.mem_cons_of_mem r hr')
    cases hgroup : cfg.autoGroups[i]? with
    | none =>
      have hlast : cfg.autoGroups.length ≤ i := List.getElem?_eq_none_iff.1 hgroup
      obtain ⟨hstopped, hattempts⟩ := relayRound_after_last hauto hsome first r hs hlast
      have hempty : Blocks.after (retriedBlocks cfg cache) i p = [] :=
        Blocks.after_of_length_le (by rwa [retriedBlocks, List.length_map])
      rw [Transition.run_of_frozen (relayRound_stopped hstopped), hattempts, hempty,
        List.take_nil, List.append_nil]
    | some group =>
      have hmem : group ∈ cfg.autoGroups := List.mem_of_getElem? hgroup
      obtain ⟨hnext, hattempts⟩ := relayRound_trying h hweights hauto hcross hretries first hr
        hs hgroup (hserved group hmem)
      rw [ih hrest hnext, hattempts, after_nextPlace hgroup hs.within, List.length_cons,
        List.take_succ_cons, List.append_assoc, List.singleton_append]

/-- The first channel is one of the highest priority of the first group. -/
theorem distribute_first (h : cache.Consistent)
    (hweights : ∀ id channel, cache.channelsIDM id = some channel → 0 ≤ channel.getWeight)
    (hauto : cfg.tokenGroup = "auto") (hcross : cfg.crossGroupRetry = true) {group : String}
    (hgroup : cfg.autoGroups[0]? = some group) (hserved : cache.candidates group cfg.modelName ≠ [])
    {intn : ℤ → ℤ} (hintn : IsIntn intn) {enabled : String → Bool} {select : SelectState}
    (hfirst : distribute cfg none none enabled (cacheLookup cache cfg.modelName intn) =
      some (first, select)) :
    select.param = ⟨some 0, false⟩ ∧
      (0 < cfg.retryTimes → select.autoGroupIndex = some 0) ∧
      ∃ channel, first = .selected channel group (some 0) ∧
        channel.getPriority = (cache.levels group cfg.modelName).getD
          (min 0 ((cache.levels group cfg.modelName).length - 1)) 0 := by
  obtain ⟨channel, hchannel, hpriority⟩ := cacheLookup_level h hweights hintn hserved 0 0
  have hselect := @selection_at cfg hauto hcross _ ⟨none, none, ⟨some 0, false⟩⟩ 0 0 group channel
    hgroup rfl rfl hchannel
  unfold distribute at hfirst
  simp only [hselect, Option.map_some] at hfirst
  obtain ⟨rfl, rfl⟩ := Prod.mk.inj (Option.some.inj hfirst)
  refine ⟨rfl, ?_, channel, rfl, hpriority⟩
  intro hretries
  have hnot : ¬ cfg.retryTimes ≤ 0 := by omega
  simp only [if_neg hnot]

/-- The first round uses the first channel. -/
theorem relayRound_first {select : SelectState} (hparam : select.param = ⟨some 0, false⟩)
    (r : RelayRound) :
    relayRound cfg policy first (.start select) r =
      relayAnswer cfg policy r ((RelayLoop.start select).use first.attempt) := by
  have hcount : ¬ cfg.retryTimes < (RelayLoop.start select).select.param.getRetry := by
    change ¬ cfg.retryTimes < select.param.getRetry
    rw [hparam]
    exact Nat.not_lt_zero _
  unfold relayRound
  rw [if_neg (by exact Bool.false_ne_true), if_neg hcount]
  rfl

/-- Without retries nothing follows the first attempt. -/
theorem run_without_retries (hretries : cfg.retryTimes = 0) {select : SelectState}
    (hparam : select.param = ⟨some 0, false⟩) {r : RelayRound}
    (hr : FailingRound cfg policy cache r) (rounds : List RelayRound) :
    (Transition.run (relayRound cfg policy first)
      (relayRound cfg policy first (.start select) r) rounds).attempts = [first.attempt] := by
  have hattempts : (relayRound cfg policy first (.start select) r).attempts = [first.attempt] := by
    rw [relayRound_first hparam, attempts_relayAnswer]
    rfl
  cases rounds with
  | nil => exact hattempts
  | cons r' rounds =>
    rw [Transition.run_cons]
    have hstop : (relayRound cfg policy first (relayRound cfg policy first (.start select) r)
          r').stopped = true ∧
        (relayRound cfg policy first (relayRound cfg policy first (.start select) r)
          r').attempts = [first.attempt] := by
      by_cases hstopped : (relayRound cfg policy first (.start select) r).stopped = true
      · rw [relayRound_stopped hstopped]
        exact ⟨hstopped, hattempts⟩
      · -- the retry has been counted, and there is none
        have hcount : cfg.retryTimes <
            (relayRound cfg policy first (.start select) r).select.param.getRetry := by
          obtain ⟨err, hanswer, -⟩ := hr.failed
          rw [relayRound_first hparam] at hstopped ⊢
          unfold relayAnswer at hstopped ⊢
          simp only [hr.body, hanswer] at hstopped ⊢
          by_cases hgo : shouldRetry policy (some err) ((cfg.retryTimes : ℤ) -
              ((RelayLoop.start select).use first.attempt).select.param.getRetry) = true
          · rw [if_pos hgo]
            change cfg.retryTimes < select.param.increaseRetry.getRetry
            rw [hparam, hretries]
            exact Nat.one_pos
          · rw [if_neg hgo] at hstopped
            exact absurd rfl hstopped
        rw [← hattempts]
        generalize relayRound cfg policy first (.start select) r = s at hstopped hcount
        unfold relayRound
        rw [if_neg hstopped, if_pos hcount]
        exact ⟨rfl, rfl⟩
    rw [Transition.run_of_frozen (relayRound_stopped hstop.1)]
    exact hstop.2

/-- **What a run tries whose attempts all fail**: each group once for each try, or nothing but the
first channel when there are no retries. -/
theorem triedLevels_run (h : cache.Consistent)
    (hweights : ∀ id channel, cache.channelsIDM id = some channel → 0 ≤ channel.getWeight)
    (hauto : cfg.tokenGroup = "auto") (hcross : cfg.crossGroupRetry = true)
    (hne : cfg.autoGroups ≠ [])
    (hserved : ∀ group ∈ cfg.autoGroups, cache.candidates group cfg.modelName ≠ [])
    {intn : ℤ → ℤ} (hintn : IsIntn intn) {enabled : String → Bool} {select : SelectState}
    (hfirst : distribute cfg none none enabled (cacheLookup cache cfg.modelName intn) =
      some (first, select))
    {rounds : List RelayRound} (hrounds : ∀ r ∈ rounds, FailingRound cfg policy cache r) :
    triedLevels (Transition.run (relayRound cfg policy first) (.start select) rounds).attempts =
      (Blocks.numbered 0 (retriedBlocks cfg cache)).take
        (if cfg.retryTimes = 0 then min 1 rounds.length else rounds.length) := by
  obtain ⟨group, groups, hgroups⟩ := List.exists_cons_of_ne_nil hne
  have hgroup : cfg.autoGroups[0]? = some group := by rw [hgroups]; rfl
  have hmem : group ∈ cfg.autoGroups := List.mem_of_getElem? hgroup
  obtain ⟨hparam, hindex, channel, rfl, hpriority⟩ :=
    distribute_first h hweights hauto hcross hgroup (hserved group hmem) hintn hfirst
  have hall : Blocks.numbered 0 (retriedBlocks cfg cache) = (0, channel.getPriority) ::
      Blocks.after (retriedBlocks cfg cache) (nextPlace cfg 0 0).1 (nextPlace cfg 0 0).2 := by
    rw [← Blocks.after_zero, after_nextPlace hgroup (Nat.zero_le _), hpriority]
  cases rounds with
  | nil =>
    rw [Transition.run_nil, List.length_nil, Nat.min_zero, ite_self, List.take_zero]
    rfl
  | cons r rounds =>
    have hr := hrounds r List.mem_cons_self
    rw [Transition.run_cons]
    by_cases hretries : cfg.retryTimes = 0
    · have hone : min 1 (rounds.length + 1) = 1 := by omega
      rw [if_pos hretries, run_without_retries hretries hparam hr, hall, List.length_cons, hone]
      rfl
    · have hpos : 0 < cfg.retryTimes := Nat.pos_of_ne_zero hretries
      have hsome : cfg.settingAutoGroups.length ≠ 0 := by
        intro hnil
        rw [RelayConfig.autoGroups, List.length_eq_zero_iff.1 hnil, List.filter_nil] at hne
        exact hne rfl
      have hnot : ¬ cfg.retryTimes ≤ 0 := by omega
      have hnext : nextPlace cfg 0 0 = (0, 1) := by rw [nextPlace, if_neg hnot]
      obtain ⟨err, hanswer⟩ := @relayAnswer_next cfg cache policy r hr
        ((RelayLoop.start select).use (FirstChannel.selected channel group (some 0)).attempt) (by
          change select.param.getRetry < cfg.retryTimes
          rw [hparam]
          exact hpos)
      have hround :=
        @relayRound_first cfg policy (.selected channel group (some 0)) select hparam r
      rw [hanswer] at hround
      have htrying : Trying cfg 0 1 (relayRound cfg policy (.selected channel group (some 0))
          (.start select) r) := by
        rw [hround]
        refine ⟨rfl, rfl, hindex hpos, ?_, hpos⟩
        change select.param.increaseRetry = _
        rw [hparam]
        rfl
      rw [if_neg hretries, triedLevels_from h hweights hauto hcross hpos hsome hserved
        (fun r' hr' => hrounds r' (List.mem_cons_of_mem r hr')) htrying, hround, hall, hnext,
        List.length_cons, List.take_succ_cons]
      rfl

end Run

/-! ### The order of the comment -/

section Order

variable {cfg : RelayConfig} {cache : ChannelCache}

theorem length_retriedBlocks :
    (Blocks.numbered 0 (retriedBlocks cfg cache)).length =
      (cfg.retryTimes + 1) * cfg.autoGroups.length := by
  have hlength : ∀ block ∈ retriedBlocks cfg cache, block.length = cfg.retryTimes + 1 := by
    intro block hblock
    obtain ⟨group, -, rfl⟩ := List.mem_map.1 hblock
    exact length_retriedLevels _ _
  rw [Blocks.length_numbered hlength, retriedBlocks, List.length_map]

/-- The first try is the first of the comment. -/
theorem first_batch_served (h : cache.Consistent) {group : String} {groups : List String}
    (hgroups : cfg.autoGroups = group :: groups)
    (hserved : cache.candidates group cfg.modelName ≠ []) :
    (Blocks.numbered 0 (retriedBlocks cfg cache)).take 1 <+: documentedLevels cfg cache := by
  have hlevels : cache.levels group cfg.modelName ≠ [] := by
    obtain ⟨channel, hchannel⟩ := List.exists_mem_of_ne_nil _ (h.channels_ne_nil hserved)
    exact List.ne_nil_of_mem (Levels.mem_descending.2 (List.mem_map_of_mem hchannel))
  obtain ⟨level, levels, heq⟩ := List.exists_cons_of_ne_nil hlevels
  have hretried : (Blocks.numbered 0 (retriedBlocks cfg cache)).take 1 = [(0, level)] := by
    have hfirst : retriedLevels cfg.retryTimes (level :: levels) = level ::
        ((List.range cfg.retryTimes).map fun retry =>
          (level :: levels).getD (min (retry + 1) levels.length) 0) := by
      rw [retriedLevels, List.range_succ_eq_map, List.map_cons, List.map_map]
      simp [Function.comp_def]
    rw [retriedBlocks, hgroups, List.map_cons, heq, hfirst]
    rfl
  rw [hretried, documentedLevels, hgroups, List.map_cons, heq]
  exact ⟨_, rfl⟩

end Order

/-- **The priorities of the automatic groups.**  In a run whose attempts all fail the priorities are
tried in the order of the comment, however far it goes, if there are as many as tries; and only
then if it goes on until no group is left. -/
theorem levels_in_documented_order {cfg : RelayConfig} {cache : ChannelCache} (h : cache.Consistent)
    (hweights : ∀ id channel, cache.channelsIDM id = some channel → 0 ≤ channel.getWeight)
    (hauto : cfg.tokenGroup = "auto") (hcross : cfg.crossGroupRetry = true)
    (hne : cfg.autoGroups ≠ [])
    (hserved : ∀ group ∈ cfg.autoGroups, cache.candidates group cfg.modelName ≠ [])
    {intn : ℤ → ℤ} (hintn : IsIntn intn) {enabled : String → Bool} {first : FirstChannel}
    {select : SelectState}
    (hfirst : distribute cfg none none enabled (cacheLookup cache cfg.modelName intn) =
      some (first, select))
    {policy : RetryPolicy} {rounds : List RelayRound}
    (hrounds : ∀ r ∈ rounds, FailingRound cfg policy cache r) :
    let s := Transition.run (relayRound cfg policy first) (.start select) rounds
    (LevelsMatchRetries cfg cache → InDocumentedOrder cfg cache rounds.length s.attempts) ∧
      (cfg.maxAttempts ≤ rounds.length →
        (InDocumentedOrder cfg cache rounds.length s.attempts ↔ LevelsMatchRetries cfg cache)) := by
  intro s
  have htried : triedLevels s.attempts = (Blocks.numbered 0 (retriedBlocks cfg cache)).take
      (if cfg.retryTimes = 0 then min 1 rounds.length else rounds.length) :=
    triedLevels_run h hweights hauto hcross hne hserved hintn hfirst hrounds
  obtain ⟨group, groups, hgroups⟩ := List.exists_cons_of_ne_nil hne
  have hmany : cfg.retryTimes + 1 ≤ (Blocks.numbered 0 (retriedBlocks cfg cache)).length := by
    rw [length_retriedBlocks, hgroups]
    exact Nat.le_mul_of_pos_right _ (Nat.succ_pos _)
  have henough : LevelsMatchRetries cfg cache →
      InDocumentedOrder cfg cache rounds.length s.attempts := by
    intro hmatch
    constructor
    · rw [htried]
      by_cases hretries : cfg.retryTimes = 0
      · have hfirstServed := hserved group (by rw [hgroups]; exact List.mem_cons_self)
        rw [if_pos hretries, Nat.min_comm, ← List.take_take]
        exact (List.take_prefix _ _).trans (first_batch_served h hgroups hfirstServed)
      · rw [if_neg hretries]
        exact (List.take_prefix _ _).trans
          ((retriedBlocks_prefix_iff cfg cache).2 (hmatch.resolve_left hretries))
    · rw [htried, List.length_take]
      split
      · omega
      · omega
  refine ⟨henough, fun hcomplete => ⟨fun horder => ?_, henough⟩⟩
  by_cases hretries : cfg.retryTimes = 0
  · exact .inl hretries
  · have hall : (Blocks.numbered 0 (retriedBlocks cfg cache)).length ≤ rounds.length := by
      rw [length_retriedBlocks]
      exact (le_max_right _ _).trans hcomplete
    have hinOrder := horder.inOrder
    rw [htried, if_neg hretries, List.take_of_length_le hall] at hinOrder
    exact .inr ((retriedBlocks_prefix_iff cfg cache).1 hinOrder)

/-! ### Two groups with two priorities -/

/-- A channel of a group with a priority. -/
def groupChannel (id : ℤ) (group : String) (priority : ℤ) : Channel where
  id := id
  key := "k"
  status := channelStatusEnabled
  weight := some 10
  models := "gpt-4o"
  group := group
  priority := some priority
  otherInfo := ⟨none, none⟩
  channelInfo := ⟨false, ∅, ∅, ∅, 0, .unknown⟩
  keys := []

/-- The channels of the example of the comment. -/
def twoPriorityTable : ChannelTable where
  rows := [groupChannel 1 "a" 10, groupChannel 2 "a" 5, groupChannel 3 "b" 10,
    groupChannel 4 "b" 5]
  unique := by decide

def twoPriorityCache : Option ChannelCache :=
  initChannelCache (fun _ => none) stableSort twoPriorityTable ["a", "b"] fun _ => none

/-- The two groups, with a number of retries. -/
def exampleGroups (retryTimes : ℕ) : RelayConfig := { twoGroups with retryTimes := retryTimes }

/-- A round in which the channel answers with an error that is retried. -/
def failingCacheRound (cache : ChannelCache) : RelayRound :=
  { failingRound with lookup := cacheLookup cache "gpt-4o" fun _ => 0 }

theorem failingCacheRound_fails (retryTimes : ℕ) (cache : ChannelCache) :
    FailingRound (exampleGroups retryTimes) defaultRetryPolicy cache (failingCacheRound cache) where
  lookup := ⟨fun _ => 0, fun _ hn => ⟨le_rfl, hn⟩, rfl⟩
  setup := rfl
  body := rfl
  failed := by
    refine ⟨_, rfl, fun n hn => ?_⟩
    have hleft : ¬ n ≤ 0 := by omega
    unfold shouldRetry
    simp only [if_neg hleft]
    decide

/-- The first channel and what is left with the request by its selection. -/
def exampleStart (retryTimes : ℕ) (cache : ChannelCache) : Option (FirstChannel × SelectState) :=
  distribute (exampleGroups retryTimes) none none (fun _ => false)
    (cacheLookup cache "gpt-4o" fun _ => 0)

/-- What is tried in a number of rounds. -/
def exampleAttempts (retryTimes : ℕ) (cache : ChannelCache) (rounds : ℕ)
    (start : FirstChannel × SelectState) : List RelayAttempt :=
  (Transition.run (relayRound (exampleGroups retryTimes) defaultRetryPolicy start.1)
    (.start start.2) (List.replicate rounds (failingCacheRound cache))).attempts

theorem twoPriorityCache_weights {cache : ChannelCache} (h : twoPriorityCache = some cache) :
    ∀ id channel, cache.channelsIDM id = some channel → 0 ≤ channel.getWeight := by
  unfold twoPriorityCache initChannelCache at h
  simp only at h
  split at h
  · cases h
  · obtain rfl := Option.some.inj h
    intro id channel hchannel
    obtain ⟨row, hrow, rfl⟩ := Option.map_eq_some_iff.1 hchannel
    have hmem := List.mem_reverse.1 (List.mem_of_find?_eq_some hrow)
    have hweights : ∀ row ∈ twoPriorityTable.rows,
        0 ≤ (cachedChannel (fun _ => none) (fun _ => none) row).getWeight := by decide
    exact hweights row hmem

theorem candidates_of_twoPriorityCache {cache : ChannelCache}
    (h : ["a", "b"].map (fun group => cache.candidates group "gpt-4o") = [[1, 2], [3, 4]]) :
    ∀ group ∈ ["a", "b"], cache.candidates group "gpt-4o" ≠ [] := by
  intro group hgroup hnil
  have hmem : cache.candidates group "gpt-4o" ∈ [[1, 2], [3, 4]] := h ▸ List.mem_map_of_mem hgroup
  rw [hnil] at hmem
  exact absurd hmem (by decide)

/-- With one retry every group is left after its two priorities. -/
theorem levels_in_documented_order_one_retry : ∃ cache, twoPriorityCache = some cache ∧
    ∃ start, exampleStart 1 cache = some start ∧
      triedLevels (exampleAttempts 1 cache 4 start) = [(0, 10), (0, 5), (1, 10), (1, 5)] ∧
      InDocumentedOrder (exampleGroups 1) cache 4 (exampleAttempts 1 cache 4 start) := by
  have hdata : twoPriorityCache.map (fun cache =>
      ((exampleStart 1 cache).map fun start => triedLevels (exampleAttempts 1 cache 4 start),
        ["a", "b"].map fun group => cache.candidates group "gpt-4o",
        cache.levels "a" "gpt-4o", cache.levels "b" "gpt-4o")) =
      some (some [(0, 10), (0, 5), (1, 10), (1, 5)], [[1, 2], [3, 4]], [10, 5], [10, 5]) := by
    decide
  obtain ⟨cache, hcache, hdata⟩ := Option.map_eq_some_iff.1 hdata
  obtain ⟨hrun, hdata⟩ := Prod.mk.inj hdata
  obtain ⟨hcandidates, hlevels⟩ := Prod.mk.inj hdata
  obtain ⟨ha, hb⟩ := Prod.mk.inj hlevels
  obtain ⟨start, hstart, htried⟩ := Option.map_eq_some_iff.1 hrun
  have hmatch : LevelsMatchRetries (exampleGroups 1) cache := by
    refine .inr ⟨fun group hgroup => ?_, fun group hgroup => ?_⟩
    · obtain rfl : group = "a" := List.mem_singleton.1 hgroup
      exact congrArg List.length ha
    · obtain rfl : "b" = group := Option.some.inj hgroup
      exact (congrArg List.length hb).ge
  have hserved : ∀ group ∈ (exampleGroups 1).autoGroups, cache.candidates group "gpt-4o" ≠ [] :=
    candidates_of_twoPriorityCache hcandidates
  have hrounds : ∀ r ∈ List.replicate 4 (failingCacheRound cache),
      FailingRound (exampleGroups 1) defaultRetryPolicy cache r := by
    intro r hr
    exact (List.eq_of_mem_replicate hr) ▸ failingCacheRound_fails 1 cache
  have hzero : IsIntn fun _ => 0 := fun _ hn => ⟨le_rfl, hn⟩
  refine ⟨cache, hcache, start, hstart, htried, ?_⟩
  exact (levels_in_documented_order (consistent_initChannelCache hcache)
    (twoPriorityCache_weights hcache) rfl rfl (by decide) hserved hzero hstart hrounds).1 hmatch

/-- **The example of the comment**: with three retries the last priority of the first group is tried
three times before the second group. -/
theorem last_priority_repeated : ∃ cache, twoPriorityCache = some cache ∧
    cache.Consistent ∧
      (∀ id channel, cache.channelsIDM id = some channel → 0 ≤ channel.getWeight) ∧
      (∀ group ∈ (exampleGroups 3).autoGroups, cache.candidates group "gpt-4o" ≠ []) ∧
      (∀ r ∈ List.replicate 5 (failingCacheRound cache),
        FailingRound (exampleGroups 3) defaultRetryPolicy cache r) ∧
      documentedLevels (exampleGroups 3) cache = [(0, 10), (0, 5), (1, 10), (1, 5)] ∧
      ∃ start, exampleStart 3 cache = some start ∧
        triedLevels (exampleAttempts 3 cache 5 start) =
          [(0, 10), (0, 5), (0, 5), (0, 5), (1, 10)] ∧
        ¬ InDocumentedOrder (exampleGroups 3) cache 5 (exampleAttempts 3 cache 5 start) := by
  have hdata : twoPriorityCache.map (fun cache =>
      ((exampleStart 3 cache).map fun start => triedLevels (exampleAttempts 3 cache 5 start),
        ["a", "b"].map fun group => cache.candidates group "gpt-4o",
        documentedLevels (exampleGroups 3) cache)) =
      some (some [(0, 10), (0, 5), (0, 5), (0, 5), (1, 10)], [[1, 2], [3, 4]],
        [(0, 10), (0, 5), (1, 10), (1, 5)]) := by
    decide
  obtain ⟨cache, hcache, hdata⟩ := Option.map_eq_some_iff.1 hdata
  obtain ⟨hrun, hdata⟩ := Prod.mk.inj hdata
  obtain ⟨hcandidates, hdocumented⟩ := Prod.mk.inj hdata
  obtain ⟨start, hstart, htried⟩ := Option.map_eq_some_iff.1 hrun
  refine ⟨cache, hcache, consistent_initChannelCache hcache, twoPriorityCache_weights hcache,
    candidates_of_twoPriorityCache hcandidates, ?_, hdocumented, start, hstart, htried, ?_⟩
  · intro r hr
    exact (List.eq_of_mem_replicate hr) ▸ failingCacheRound_fails 3 cache
  · intro horder
    have hinOrder := horder.inOrder
    rw [htried, hdocumented] at hinOrder
    exact absurd hinOrder (by decide)

end NewApi
