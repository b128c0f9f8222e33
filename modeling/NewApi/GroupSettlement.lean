/-
**The ratio of the group a request is settled at.**

A request is priced before it is sent to a channel, and the ratio of its group is kept with it.
When it is sent to another channel, the ratio is computed again for the group of that channel.  A
request that is billed by an expression has, besides, a snapshot of the rules it was priced by, which
holds the ratio a second time and is not renewed.  The quota of a request is computed from the tokens and
the tools it has used: with the ratio that is renewed, or, for a request billed by an expression,
with the one of the snapshot, to which the tools are added at the other.

Numbers are exact here: the ratios are handed on and multiplied, and nothing else is said of them.

Main definitions:

* `NewApi.RatioSettings`, `NewApi.groupRatioInfo` — the ratios of the groups;
* `NewApi.RelayPricing`, `NewApi.modelPriceHelper` — what is kept with a request, and its pricing;
* `NewApi.tryTieredSettle`, `NewApi.calculateTextQuotaSummary`, `NewApi.postTextConsumeQuota` — the
  settlement;
* `NewApi.pricedRound` — a round of the relay loop, with what it does to the prices.

Main results:

* `NewApi.settled_at_served_group` — **the ratio kept with a request is the one of the group that
  has served it, and a request is settled at this ratio unless it is billed by an expression and was
  priced at another one**;
* `NewApi.tiered_settled_at_first_group` — a run after which it is settled at another ratio.
-/

import Mathlib.Data.Rat.Floor
import NewApi.RelayRetry

set_option autoImplicit false

namespace NewApi

/-! ### Ratios -/

/-- The ratios of the groups, and those that users of a group have for another. -/
structure RatioSettings where
  groupRatioMap : String → Option ℚ
  groupGroupRatioMap : String → String → Option ℚ

structure GroupRatioInfo where
  groupRatio : ℚ
  groupSpecialRatio : ℚ
  hasSpecialRatio : Bool
deriving DecidableEq, Repr

/-- The ratio of a group; a group that is not there has the ratio one. -/
def getGroupRatio (settings : RatioSettings) (name : String) : ℚ :=
  (settings.groupRatioMap name).getD 1

/-- The ratio a user of the group `userGroup` has for the group `usingGroup`. -/
def groupRatioInfo (settings : RatioSettings) (userGroup usingGroup : String) : GroupRatioInfo :=
  match settings.groupGroupRatioMap userGroup usingGroup with
  | some userGroupRatio => ⟨userGroupRatio, userGroupRatio, true⟩
  | none => ⟨getGroupRatio settings usingGroup, -1, false⟩

/-! ### Pricing -/

/-- The rules a request was priced by. -/
structure BillingSnapshot where
  billingMode : String
  groupRatio : ℚ
  estimatedQuotaBeforeGroup : ℚ
  estimatedQuotaAfterGroup : ℤ
  quotaPerUnit : ℚ
deriving DecidableEq, Repr

structure PriceData where
  modelPrice : ℚ
  modelRatio : ℚ
  usePrice : Bool
  otherRatios : List ℚ
  groupRatioInfo : GroupRatioInfo
deriving DecidableEq, Repr

/-- What is kept with a request about its price. -/
structure RelayPricing where
  userGroup : String
  usingGroup : String
  priceData : PriceData
  tieredBillingSnapshot : Option BillingSnapshot
  finalPreConsumedQuota : ℤ
deriving DecidableEq, Repr

/-- How a model is billed: by its price or ratio, or by an expression.  `rawCost` is what the
expression comes to for the estimated tokens. -/
inductive ModelPricing where
  | ratio (usePrice : Bool) (modelPrice modelRatio : ℚ) (otherRatios : List ℚ)
  | tiered (rawCost : ℚ)
deriving DecidableEq, Repr

structure QuotaConfig where
  quotaPerUnit : ℚ
  enableFreeModelPreConsume : Bool
deriving DecidableEq, Repr

/-- Rounding to the nearest integer, halves away from zero. -/
def quotaRound (x : ℚ) : ℤ := if 0 ≤ x then ⌊x + 1 / 2⌋ else -⌊1 / 2 - x⌋

theorem quotaRound_nonneg {x : ℚ} (h : 0 ≤ x) : 0 ≤ quotaRound x := by
  rw [quotaRound, if_pos h, Int.floor_nonneg]
  linarith

theorem quotaRound_mono {x y : ℚ} (h : x ≤ y) : quotaRound x ≤ quotaRound y := by
  unfold quotaRound
  by_cases hx : 0 ≤ x
  · rw [if_pos hx, if_pos (hx.trans h)]
    exact Int.floor_le_floor (by linarith)
  · rw [if_neg hx]
    have hneg : (0 : ℤ) ≤ ⌊1 / 2 - x⌋ := Int.floor_nonneg.2 (by linarith [not_le.1 hx])
    by_cases hy : 0 ≤ y
    · rw [if_pos hy]
      have hpos : (0 : ℤ) ≤ ⌊y + 1 / 2⌋ := Int.floor_nonneg.2 (by linarith)
      linarith
    · rw [if_neg hy]
      have hfloor : ⌊1 / 2 - y⌋ ≤ ⌊1 / 2 - x⌋ := Int.floor_le_floor (by linarith)
      linarith

/-- The ratio of the group at hand, which is the automatic group if one has been selected. -/
def handleGroupRatio (settings : RatioSettings) (autoGroup : Option String) (info : RelayPricing) :
    GroupRatioInfo × RelayPricing :=
  let info := { info with usingGroup := autoGroup.getD info.usingGroup }
  (groupRatioInfo settings info.userGroup info.usingGroup, info)

/-- The ratio kept with a request is computed again. -/
def RelayPricing.refresh (settings : RatioSettings) (autoGroup : Option String)
    (info : RelayPricing) : RelayPricing :=
  let (ratioInfo, info) := handleGroupRatio settings autoGroup info
  { info with priceData := { info.priceData with groupRatioInfo := ratioInfo } }

def tieredSnapshot (cfg : QuotaConfig) (rawCost groupRatio : ℚ) : BillingSnapshot :=
  let quotaBeforeGroup := rawCost / 1000000 * cfg.quotaPerUnit
  { billingMode := "tiered_expr"
    groupRatio := groupRatio
    estimatedQuotaBeforeGroup := quotaBeforeGroup
    estimatedQuotaAfterGroup :=
      if cfg.enableFreeModelPreConsume = false ∧ groupRatio = 0 then 0
      else quotaRound (quotaBeforeGroup * groupRatio)
    quotaPerUnit := cfg.quotaPerUnit }

/-- The pricing of a request before it is sent to a channel. -/
def modelPriceHelper (cfg : QuotaConfig) (settings : RatioSettings) (autoGroup : Option String)
    (pricing : ModelPricing) (info : RelayPricing) : RelayPricing :=
  let (ratioInfo, info) := handleGroupRatio settings autoGroup info
  match pricing with
  | .ratio usePrice modelPrice modelRatio otherRatios =>
    { info with priceData := ⟨modelPrice, modelRatio, usePrice, otherRatios, ratioInfo⟩ }
  | .tiered rawCost =>
    { info with
      priceData := ⟨0, 0, false, [], ratioInfo⟩
      tieredBillingSnapshot := some (tieredSnapshot cfg rawCost ratioInfo.groupRatio) }

/-! ### Settlement -/

/-- What a request has used, before the ratio of its group: its tokens, weighted by the ratios of
the model, the prices of tools and of audio, and what the expression comes to, if it can be
evaluated. -/
structure TextUsage where
  weightedTokens : ℚ
  totalTokens : ℤ
  toolPrice : ℚ
  audioPrice : ℚ
  exprCost : Option ℚ
deriving DecidableEq, Repr

/-- The quota of the tools, and the quota by the price or the ratio of the model. -/
def calculateTextQuotaSummary (cfg : QuotaConfig) (info : RelayPricing) (usage : TextUsage) :
    ℚ × ℤ :=
  let price := info.priceData
  let groupRatio := price.groupRatioInfo.groupRatio
  let ratio := price.modelRatio * groupRatio
  let surcharge := usage.toolPrice * groupRatio * cfg.quotaPerUnit
  let quota :=
    if price.usePrice then
      quotaRound ((price.modelPrice * cfg.quotaPerUnit * groupRatio + surcharge) *
        price.otherRatios.prod)
    else
      let audio := usage.audioPrice * groupRatio * cfg.quotaPerUnit
      let exact := (usage.weightedTokens * ratio + surcharge + audio) * price.otherRatios.prod
      quotaRound (if ratio ≠ 0 ∧ exact ≤ 0 then 1 else exact)
  (surcharge, if usage.totalTokens = 0 then 0 else if ratio ≠ 0 ∧ quota = 0 then 1 else quota)

structure TieredResult where
  actualQuotaBeforeGroup : ℚ
  actualQuotaAfterGroup : ℤ
deriving DecidableEq, Repr

/-- The quota by the rules of a snapshot. -/
def computeTieredQuota (snap : BillingSnapshot) (exprCost : ℚ) : TieredResult :=
  let quotaBeforeGroup := exprCost / 1000000 * snap.quotaPerUnit
  ⟨quotaBeforeGroup, quotaRound (quotaBeforeGroup * snap.groupRatio)⟩

/-- The quota of a request that is billed by an expression.  If the expression cannot be evaluated,
it is what was charged before. -/
def tryTieredSettle (info : RelayPricing) (exprCost : Option ℚ) :
    Option (ℤ × Option TieredResult) :=
  match info.tieredBillingSnapshot with
  | none => none
  | some snap =>
    if snap.billingMode ≠ "tiered_expr" then none
    else
      match exprCost with
      | some cost =>
        let result := computeTieredQuota snap cost
        some (result.actualQuotaAfterGroup, some result)
      | none =>
        some (if info.finalPreConsumedQuota ≤ 0 then snap.estimatedQuotaAfterGroup
          else info.finalPreConsumedQuota, none)

/-- The quota by an expression, with the quota of the tools. -/
def composeTieredTextQuota (info : RelayPricing) (surcharge : ℚ) (tieredQuota : ℤ)
    (tieredResult : Option TieredResult) : ℤ :=
  if surcharge = 0 then tieredQuota
  else
    match tieredResult, info.tieredBillingSnapshot with
    | some result, some snap =>
      quotaRound (result.actualQuotaBeforeGroup * snap.groupRatio + surcharge)
    | _, _ => tieredQuota + quotaRound surcharge

/-- The quota a request is settled at.  `reported` says whether the channel has reported a usage;
the usage is an estimate if it has not. -/
def postTextConsumeQuota (cfg : QuotaConfig) (info : RelayPricing) (usage : TextUsage)
    (reported : Bool) : ℤ :=
  let (surcharge, quota) := calculateTextQuotaSummary cfg info usage
  if reported = false then quota
  else
    match tryTieredSettle info usage.exprCost with
    | some (tieredQuota, result) => composeTieredTextQuota info surcharge tieredQuota result
    | none => quota

/-- The ratio at which the tokens of a request are settled. -/
def RelayPricing.settledRatio (info : RelayPricing) (reported : Bool) : ℚ :=
  match info.tieredBillingSnapshot with
  | some snap =>
    if reported ∧ snap.billingMode = "tiered_expr" then snap.groupRatio
    else info.priceData.groupRatioInfo.groupRatio
  | none => info.priceData.groupRatioInfo.groupRatio

/-- The pricing of a request of a group with the ratio `ratio`, which is kept everywhere. -/
def RelayPricing.withGroupRatio (ratio : ℚ) (info : RelayPricing) : RelayPricing :=
  { info with
    priceData := { info.priceData with
      groupRatioInfo := { info.priceData.groupRatioInfo with groupRatio := ratio } }
    tieredBillingSnapshot := info.tieredBillingSnapshot.map fun snap =>
      { snap with groupRatio := ratio } }

/-- A request whose tokens are settled at the ratio kept with it is settled as if this were the only
one. -/
theorem postTextConsumeQuota_withGroupRatio (cfg : QuotaConfig) (info : RelayPricing)
    (usage : TextUsage) (reported : Bool)
    (h : info.settledRatio reported = info.priceData.groupRatioInfo.groupRatio) :
    postTextConsumeQuota cfg (info.withGroupRatio info.priceData.groupRatioInfo.groupRatio) usage
      reported = postTextConsumeQuota cfg info usage reported := by
  obtain ⟨userGroup, usingGroup, price, tiered, preConsumed⟩ := info
  cases tiered with
  | none => rfl
  | some snap =>
    cases reported with
    | false => rfl
    | true =>
      by_cases hmode : snap.billingMode = "tiered_expr"
      · have hratio : snap.groupRatio = price.groupRatioInfo.groupRatio := by
          simpa [RelayPricing.settledRatio, hmode] using h
        obtain ⟨mode, groupRatio, before, after, quotaPerUnit⟩ := snap
        obtain rfl : groupRatio = price.groupRatioInfo.groupRatio := hratio
        rfl
      · simp [postTextConsumeQuota, tryTieredSettle, hmode, RelayPricing.withGroupRatio,
          calculateTextQuotaSummary]

/-! ### The relay loop -/

/-- The relay loop, and what is kept about the price of the request. -/
structure PricedLoop where
  loop : RelayLoop
  info : RelayPricing

/-- The next round selects a channel. -/
def RelayLoop.Selects (cfg : RelayConfig) (s : RelayLoop) : Prop :=
  s.stopped = false ∧ s.select.param.getRetry ≤ cfg.retryTimes ∧ s.channelMeta = true

instance RelayLoop.decidableSelects (cfg : RelayConfig) (s : RelayLoop) :
    Decidable (s.Selects cfg) := inferInstanceAs (Decidable (_ ∧ _ ∧ _))

/-- One round of the loop.  A selection of a channel computes the ratio again, whether it has found
one or not. -/
def pricedRound (cfg : RelayConfig) (settings : RatioSettings) (policy : RetryPolicy)
    (first : FirstChannel) (s : PricedLoop) (r : RelayRound) : PricedLoop where
  loop := relayRound cfg policy first s.loop r
  info :=
    if s.loop.Selects cfg then
      s.info.refresh settings (getChannel cfg first s.loop r).2.autoGroup
    else s.info

/-- A request that has been priced, before the loop. -/
def PricedLoop.start (quotaCfg : QuotaConfig) (cfg : RelayConfig) (settings : RatioSettings)
    (userGroup : String) (pricing : ModelPricing) (preConsumed : ℤ) (select : SelectState) :
    PricedLoop where
  loop := .start select
  info := modelPriceHelper quotaCfg settings select.autoGroup pricing
    ⟨userGroup, cfg.tokenGroup, ⟨0, 0, false, [], ⟨1, -1, false⟩⟩, none, preConsumed⟩

/-- The request has been served by the channel that was used last. -/
def RelayLoop.ServedBy (attempt : RelayAttempt) (s : RelayLoop) : Prop :=
  s.stopped = true ∧ s.newAPIError = none ∧ s.attempts.getLast? = some attempt

/-- The group of a channel that has been used: the one that was selected for it, or the one of the
token. -/
def RelayAttempt.usedGroup (cfg : RelayConfig) (attempt : RelayAttempt) : String :=
  attempt.group.getD cfg.tokenGroup

/-! ### The group at hand -/

section Group

variable {cfg : RelayConfig} {lookup : Lookup}

/-- A search among the automatic groups finds nothing, or leaves the group in which it has found a
channel. -/
theorem selectFrom_autoGroup (cfg : RelayConfig) (lookup : Lookup) (start i : ℕ)
    (groups : List String) (st : SelectState) :
    ((selectFrom cfg lookup start i groups st).1.channel = none ∧
        (selectFrom cfg lookup start i groups st).2.autoGroup = st.autoGroup) ∨
      (selectFrom cfg lookup start i groups st).2.autoGroup =
        some (selectFrom cfg lookup start i groups st).1.selectGroup := by
  induction groups generalizing i st with
  | nil => exact .inl ⟨rfl, rfl⟩
  | cons autoGroup rest ih =>
    unfold selectFrom
    simp only
    split
    · exact ih (i + 1) { st with autoGroupIndex := some (i + 1), param := st.param.setRetry 0 }
    · refine .inr ?_
      generalize (if start < i then 0 else st.param.getRetry) = priorityRetry
      split
      · rfl
      · rfl

/-- What a selection has to do with the automatic group kept with the request: it leaves it alone,
and then it has found nothing or the token names its group, or it has found a channel in the one it
leaves. -/
inductive GroupSelected (cfg : RelayConfig) (st : SelectState) (r : Selection × SelectState) :
    Prop where
  | none (hchannel : r.1.channel = none) (hgroup : r.2.autoGroup = st.autoGroup)
  | plain (hplain : cfg.tokenGroup ≠ "auto") (hselect : r.1.selectGroup = cfg.tokenGroup)
      (hgroup : r.2.autoGroup = st.autoGroup)
  | auto (hauto : cfg.tokenGroup = "auto") (hgroup : r.2.autoGroup = some r.1.selectGroup)

theorem cacheGetRandomSatisfiedChannel_group (cfg : RelayConfig) (lookup : Lookup)
    (st : SelectState) : GroupSelected cfg st (cacheGetRandomSatisfiedChannel cfg lookup st) := by
  unfold cacheGetRandomSatisfiedChannel
  split
  · rename_i hauto
    split
    · exact .none rfl rfl
    · rcases selectFrom_autoGroup cfg lookup (st.autoGroupIndex.getD 0)
        (st.autoGroupIndex.getD 0) (cfg.autoGroups.drop (st.autoGroupIndex.getD 0)) st with
        ⟨hchannel, hgroup⟩ | hgroup
      · exact .none hchannel hgroup
      · exact .auto hauto hgroup
  · rename_i hplain
    split
    · exact .none rfl rfl
    · exact .plain hplain rfl rfl

/-- The group kept with a request is the one of a token that names a group, and is only kept for a
token that does not. -/
structure GroupKept (cfg : RelayConfig) (st : SelectState) (group : String) : Prop where
  group : st.autoGroup.getD cfg.tokenGroup = group
  plain : cfg.tokenGroup ≠ "auto" → st.autoGroup = none

/-- A selection that finds a channel leaves the group it has found it in. -/
theorem GroupSelected.kept {st : SelectState} {r : Selection × SelectState} {group : String}
    (h : GroupSelected cfg st r) (hkept : GroupKept cfg st group) {channel : Channel}
    (hfound : r.1.channel = some channel) : GroupKept cfg r.2 r.1.selectGroup := by
  cases h with
  | none hchannel hgroup =>
    rw [hchannel] at hfound
    cases hfound
  | plain hplain hselect hgroup =>
    have hnone := hkept.plain hplain
    rw [hnone] at hgroup
    exact ⟨by rw [hgroup, hselect]; rfl, fun _ => hgroup⟩
  | auto hauto hgroup =>
    exact ⟨by rw [hgroup]; rfl, fun hplain => absurd hauto hplain⟩

/-- A selection keeps the group it finds, or the one that was kept before. -/
theorem GroupSelected.kept_some {st : SelectState} {r : Selection × SelectState} {group : String}
    (h : GroupSelected cfg st r) (hkept : GroupKept cfg st group) :
    GroupKept cfg r.2 (r.2.autoGroup.getD group) := by
  have hsame : r.2.autoGroup = st.autoGroup → GroupKept cfg r.2 (r.2.autoGroup.getD group) := by
    intro hgroup
    refine ⟨?_, fun hplain => hgroup.trans (hkept.plain hplain)⟩
    rw [hgroup, ← hkept.group]
    cases st.autoGroup with
    | none => rfl
    | some g => rfl
  cases h with
  | none _ hgroup => exact hsame hgroup
  | plain _ _ hgroup => exact hsame hgroup
  | auto hauto hgroup =>
    refine ⟨?_, fun hplain => absurd hauto hplain⟩
    rw [hgroup]
    rfl

/-- The first channel is one of the group kept with the request. -/
theorem distribute_kept {specific preferred : Option Channel} {enabled : String → Bool}
    {first : FirstChannel} {select : SelectState}
    (h : distribute cfg specific preferred enabled lookup = some (first, select)) :
    GroupKept cfg select (first.attempt.usedGroup cfg) := by
  unfold distribute at h
  cases hspecific : specific with
  | some channel =>
    rw [hspecific] at h
    cases h
    exact ⟨rfl, fun _ => rfl⟩
  | none =>
    simp only [hspecific] at h
    split at h
    · rename_i channel group index hpreferred
      cases h
      unfold preferredGroup at hpreferred
      by_cases hauto : cfg.tokenGroup = "auto"
      · simp only [hauto, if_true]
        exact ⟨rfl, fun hplain => absurd hauto hplain⟩
      · simp only [if_neg hauto] at hpreferred ⊢
        split at hpreferred
        · cases hpreferred
          exact ⟨rfl, fun _ => rfl⟩
        · cases hpreferred
    · split at h
      · rename_i channel group used st hselect
        cases h
        have hgroup := cacheGetRandomSatisfiedChannel_group cfg lookup
          ⟨none, none, ⟨some 0, false⟩⟩
        rw [hselect] at hgroup
        have hkept : GroupKept cfg ⟨none, none, ⟨some 0, false⟩⟩ cfg.tokenGroup :=
          ⟨rfl, fun _ => rfl⟩
        have hleft := hgroup.kept hkept (rfl : some channel = some channel)
        exact ⟨hleft.group, hleft.plain⟩
      · cases h

end Group

/-! ### Rounds -/

section Rounds

variable {cfg : RelayConfig} {settings : RatioSettings} {policy : RetryPolicy}
  {first : FirstChannel} {userGroup : String} {snap : Option BillingSnapshot} {s : PricedLoop}

/-- What a round does to the loop, and whether it selects a channel. -/
inductive RoundMove (cfg : RelayConfig) (policy : RetryPolicy) (first : FirstChannel)
    (s : RelayLoop) (r : RelayRound) : RelayLoop → Prop
  | stay (hselects : ¬ s.Selects cfg) : RoundMove cfg policy first s r s
  | giveUp (hselects : ¬ s.Selects cfg) : RoundMove cfg policy first s r (s.stop s.newAPIError)
  | useFirst (hselects : ¬ s.Selects cfg) (hrun : s.stopped = false)
      (hunused : s.channelMeta = false) :
      RoundMove cfg policy first s r (relayAnswer cfg policy r (s.use first.attempt))
  | fail (hselects : s.Selects cfg) (st : SelectState) (err : RelayError)
      (hget : getChannel cfg first s r = (.error err, st)) :
      RoundMove cfg policy first s r ((s.keep st).stop (some err))
  | use (hselects : s.Selects cfg) (attempt : RelayAttempt) (st : SelectState)
      (hget : getChannel cfg first s r = (.ok attempt, st)) :
      RoundMove cfg policy first s r (relayAnswer cfg policy r ((s.keep st).use attempt))

theorem relayRound_cases (cfg : RelayConfig) (policy : RetryPolicy) (first : FirstChannel)
    (s : RelayLoop) (r : RelayRound) :
    RoundMove cfg policy first s r (relayRound cfg policy first s r) := by
  unfold relayRound
  cases hrun : s.stopped with
  | true =>
    simp only [if_true]
    exact .stay fun hselects => absurd hselects.1 (by rw [hrun]; decide)
  | false =>
    simp only [Bool.false_eq_true, if_false]
    split
    · rename_i hlt
      exact .giveUp fun hselects => absurd hselects.2.1 (Nat.not_le_of_lt hlt)
    · rename_i hle
      cases hmeta : s.channelMeta with
      | false =>
        have hget : getChannel cfg first s r = (.ok first.attempt, s.select) := by
          rw [getChannel, if_pos hmeta]
        rw [hget]
        have hselects : ¬ s.Selects cfg := fun hselects =>
          absurd hselects.2.2 (by rw [hmeta]; decide)
        exact .useFirst hselects hrun hmeta
      | true =>
        have hselects : s.Selects cfg := ⟨hrun, Nat.le_of_not_lt hle, hmeta⟩
        cases hget : getChannel cfg first s r with
        | mk result st =>
          cases result with
          | error err => exact .fail hselects st err hget
          | ok attempt => exact .use hselects attempt st hget

/-- The answer of a channel changes neither the uses of channels nor the group kept. -/
theorem relayAnswer_same (cfg : RelayConfig) (policy : RetryPolicy) (r : RelayRound)
    (used : RelayLoop) :
    (relayAnswer cfg policy r used).attempts = used.attempts ∧
      (relayAnswer cfg policy r used).select.autoGroup = used.select.autoGroup ∧
      (relayAnswer cfg policy r used).channelMeta = used.channelMeta := by
  unfold relayAnswer
  split
  · exact ⟨rfl, rfl, rfl⟩
  · split
    · exact ⟨rfl, rfl, rfl⟩
    · split
      · exact ⟨rfl, rfl, rfl⟩
      · exact ⟨rfl, rfl, rfl⟩

/-- The channel in use: the one used last, or the first one. -/
def RelayLoop.current (first : FirstChannel) (s : RelayLoop) : RelayAttempt :=
  s.attempts.getLast?.getD first.attempt

/-- The ratio kept with the request is the one of the group kept with it, and this is the group of
the channel in use unless the loop has ended with an error. -/
structure PricedInv (cfg : RelayConfig) (settings : RatioSettings) (userGroup : String)
    (snap : Option BillingSnapshot) (first : FirstChannel) (s : PricedLoop) : Prop where
  user : s.info.userGroup = userGroup
  ratio : s.info.priceData.groupRatioInfo = groupRatioInfo settings userGroup s.info.usingGroup
  snapshot : s.info.tieredBillingSnapshot = snap
  kept : GroupKept cfg s.loop.select s.info.usingGroup
  unused : s.loop.channelMeta = false → s.loop.attempts = []
  current : (s.loop.stopped = true → s.loop.newAPIError = none) →
    s.info.usingGroup = (s.loop.current first).usedGroup cfg

/-- A refresh leaves the ratio of the group it leaves. -/
theorem refresh_groupRatioInfo (info : RelayPricing) (autoGroup : Option String) :
    (info.refresh settings autoGroup).priceData.groupRatioInfo =
      groupRatioInfo settings info.userGroup (autoGroup.getD info.usingGroup) := rfl

/-- The group a selection of the loop leaves. -/
theorem getChannel_kept (first : FirstChannel) (r : RelayRound) {group : String} {loop : RelayLoop}
    (hmeta : loop.channelMeta = true) (hkept : GroupKept cfg loop.select group) :
    GroupKept cfg (getChannel cfg first loop r).2
        ((getChannel cfg first loop r).2.autoGroup.getD group) ∧
      ∀ attempt, (getChannel cfg first loop r).1 = .ok attempt →
        GroupKept cfg (getChannel cfg first loop r).2 (attempt.usedGroup cfg) := by
  have hselected := cacheGetRandomSatisfiedChannel_group cfg r.lookup loop.select
  have hsome := hselected.kept_some hkept
  unfold getChannel
  rw [if_neg (by rw [hmeta]; decide)]
  generalize hselect : cacheGetRandomSatisfiedChannel cfg r.lookup loop.select = selection at *
  obtain ⟨⟨channel, group', err, used⟩, st⟩ := selection
  cases err with
  | some err => exact ⟨hsome, fun attempt hok => by cases hok⟩
  | none =>
    cases channel with
    | none => exact ⟨hsome, fun attempt hok => by cases hok⟩
    | some channel =>
      simp only
      cases r.setupErr with
      | some err => exact ⟨hsome, fun attempt hok => by cases hok⟩
      | none =>
        refine ⟨hsome, fun attempt hok => ?_⟩
        cases hok
        exact hselected.kept hkept rfl

/-- **A round keeps the ratio the one of the channel in use.** -/
theorem PricedInv.round (h : PricedInv cfg settings userGroup snap first s) (r : RelayRound) :
    PricedInv cfg settings userGroup snap first (pricedRound cfg settings policy first s r) := by
  have hmove := relayRound_cases cfg policy first s.loop r
  have hround : pricedRound cfg settings policy first s r =
      ⟨relayRound cfg policy first s.loop r, if s.loop.Selects cfg then
        s.info.refresh settings (getChannel cfg first s.loop r).2.autoGroup else s.info⟩ := rfl
  rw [hround]
  generalize relayRound cfg policy first s.loop r = loop at hmove ⊢
  cases hmove with
  | stay hselects =>
    rw [if_neg hselects]
    exact ⟨h.user, h.ratio, h.snapshot, h.kept, h.unused, h.current⟩
  | giveUp hselects =>
    rw [if_neg hselects]
    exact ⟨h.user, h.ratio, h.snapshot, h.kept, h.unused, fun hok => h.current fun _ => hok rfl⟩
  | useFirst hselects hrun hunused =>
    rw [if_neg hselects]
    obtain ⟨hattempts, hgroup, hmeta⟩ := relayAnswer_same cfg policy r
      (s.loop.use first.attempt)
    have hempty : s.loop.attempts = [] := h.unused hunused
    have hcurrent : s.info.usingGroup = first.attempt.usedGroup cfg := by
      have hbefore := h.current fun hstopped => by rw [hrun] at hstopped; cases hstopped
      rwa [RelayLoop.current, hempty] at hbefore
    have hused : (s.loop.use first.attempt).attempts = [first.attempt] := by
      change s.loop.attempts ++ [first.attempt] = _
      rw [hempty, List.nil_append]
    refine ⟨h.user, h.ratio, h.snapshot, ⟨?_, ?_⟩, fun hfalse => ?_, fun _ => ?_⟩
    · exact (congrArg (·.getD cfg.tokenGroup) hgroup).trans h.kept.group
    · exact fun hplain => hgroup.trans (h.kept.plain hplain)
    · rw [hmeta] at hfalse
      cases hfalse
    · rw [RelayLoop.current, hattempts, hused]
      exact hcurrent
  | fail hselects st err hget =>
    rw [if_pos hselects, hget]
    have hleft := (getChannel_kept first r hselects.2.2 h.kept).1
    rw [hget] at hleft
    refine ⟨h.user, ?_, h.snapshot, hleft, ?_, fun hok => ?_⟩
    · rw [refresh_groupRatioInfo, h.user]
      rfl
    · intro hfalse
      have hmeta : s.loop.channelMeta = true := hselects.2.2
      rw [show s.loop.channelMeta = false from hfalse] at hmeta
      cases hmeta
    · cases hok rfl
  | use hselects attempt st hget =>
    rw [if_pos hselects, hget]
    obtain ⟨hattempts, hgroup, hmeta⟩ := relayAnswer_same cfg policy r
      ((s.loop.keep st).use attempt)
    obtain ⟨hleft, hok⟩ := getChannel_kept first r hselects.2.2 h.kept
    rw [hget] at hleft hok
    have hused := hok attempt rfl
    refine ⟨h.user, ?_, h.snapshot, ⟨?_, ?_⟩, fun hfalse => ?_, fun _ => ?_⟩
    · rw [refresh_groupRatioInfo, h.user]
      rfl
    · exact (congrArg (·.getD cfg.tokenGroup) hgroup).trans hleft.group
    · exact fun hplain => hgroup.trans (hleft.plain hplain)
    · rw [hmeta] at hfalse
      cases hfalse
    · have hlast : ((relayAnswer cfg policy r ((s.loop.keep st).use attempt)).current first) =
          attempt := by
        rw [RelayLoop.current, hattempts]
        change (s.loop.attempts ++ [attempt]).getLast?.getD first.attempt = attempt
        rw [List.getLast?_concat]
        rfl
      rw [hlast]
      exact hleft.group.symm.trans hused.group

end Rounds

/-! ### Runs -/

/-- How a request is billed: by an expression. -/
def ModelPricing.IsTiered : ModelPricing → Prop
  | .tiered _ => True
  | .ratio _ _ _ _ => False

instance ModelPricing.decidableIsTiered : (pricing : ModelPricing) → Decidable pricing.IsTiered
  | .tiered _ => .isTrue trivial
  | .ratio _ _ _ _ => .isFalse id

/-- The snapshot of a request that has been priced at a ratio. -/
def ModelPricing.snapshot (cfg : QuotaConfig) (ratio : ℚ) : ModelPricing → Option BillingSnapshot
  | .tiered rawCost => some (tieredSnapshot cfg rawCost ratio)
  | .ratio _ _ _ _ => none

theorem pricedInv_start {quotaCfg : QuotaConfig} {cfg : RelayConfig} {settings : RatioSettings}
    {userGroup : String} {pricing : ModelPricing} {preConsumed : ℤ} {first : FirstChannel}
    {select : SelectState} (hkept : GroupKept cfg select (first.attempt.usedGroup cfg)) :
    PricedInv cfg settings userGroup (pricing.snapshot quotaCfg
        (groupRatioInfo settings userGroup (first.attempt.usedGroup cfg)).groupRatio) first
      (.start quotaCfg cfg settings userGroup pricing preConsumed select) := by
  have hgroup : select.autoGroup.getD cfg.tokenGroup = first.attempt.usedGroup cfg := hkept.group
  cases pricing with
  | ratio usePrice modelPrice modelRatio otherRatios =>
    refine ⟨rfl, rfl, rfl, ⟨rfl, hkept.plain⟩, fun _ => rfl, fun _ => hgroup⟩
  | tiered rawCost =>
    refine ⟨rfl, rfl, ?_, ⟨rfl, hkept.plain⟩, fun _ => rfl, fun _ => hgroup⟩
    rw [← hgroup]
    rfl

/-- **A request is settled at the ratio of the group that has served it unless it is billed by an
expression and was priced at another ratio**: for any request, any channels and any rounds of the
relay loop after which the request has been served, the ratio kept with it is the one of the group
of the channel that has served it; the tokens are settled at this ratio if and only if their usage
was not reported, or the request is not billed by an expression, or the group it was priced for has
the same ratio; and then the whole quota is. -/
theorem settled_at_served_group (quotaCfg : QuotaConfig) (cfg : RelayConfig)
    (settings : RatioSettings) (policy : RetryPolicy) (userGroup : String) (pricing : ModelPricing)
    (preConsumed : ℤ) (specific preferred : Option Channel) (enabled : String → Bool)
    (lookup : Lookup) (first : FirstChannel) (select : SelectState)
    (hfirst : distribute cfg specific preferred enabled lookup = some (first, select))
    (rounds : List RelayRound) (attempt : RelayAttempt) (usage : TextUsage) (reported : Bool)
    (hserved : (Transition.run (pricedRound cfg settings policy first)
      (.start quotaCfg cfg settings userGroup pricing preConsumed select)
      rounds).loop.ServedBy attempt) :
    let info := (Transition.run (pricedRound cfg settings policy first)
      (.start quotaCfg cfg settings userGroup pricing preConsumed select) rounds).info
    let ratioOf := fun group => (groupRatioInfo settings userGroup group).groupRatio
    let served := ratioOf (attempt.usedGroup cfg)
    info.priceData.groupRatioInfo.groupRatio = served ∧
      (info.settledRatio reported = served ↔ (reported = true → pricing.IsTiered →
        ratioOf (first.attempt.usedGroup cfg) = served)) ∧
      (info.settledRatio reported = served → postTextConsumeQuota quotaCfg info usage reported =
        postTextConsumeQuota quotaCfg (info.withGroupRatio served) usage reported) := by
  intro info ratioOf served
  have hstart : PricedInv cfg settings userGroup (pricing.snapshot quotaCfg
      (ratioOf (first.attempt.usedGroup cfg))) first
      (.start quotaCfg cfg settings userGroup pricing preConsumed select) :=
    pricedInv_start (distribute_kept hfirst)
  have hstep : ∀ s r, PricedInv cfg settings userGroup (pricing.snapshot quotaCfg
      (ratioOf (first.attempt.usedGroup cfg))) first s →
      PricedInv cfg settings userGroup (pricing.snapshot quotaCfg
        (ratioOf (first.attempt.usedGroup cfg))) first
        (pricedRound cfg settings policy first s r) := fun _ r h => h.round r
  have hinv := Transition.run_invariant_always hstep hstart rounds
  obtain ⟨-, hok, hlast⟩ := hserved
  have hgroup := hinv.current fun _ => hok
  rw [RelayLoop.current, hlast] at hgroup
  have hratio : info.priceData.groupRatioInfo.groupRatio = served := by
    rw [hinv.ratio, hgroup]
    rfl
  refine ⟨hratio, ?_, fun hsettled => ?_⟩
  · have hsnapshot := hinv.snapshot
    cases pricing with
    | ratio usePrice modelPrice modelRatio otherRatios =>
      have hsettled : info.settledRatio reported = served := by
        rw [RelayPricing.settledRatio, hsnapshot]
        exact hratio
      exact iff_of_true hsettled fun _ htiered => htiered.elim
    | tiered rawCost =>
      cases reported with
      | false =>
        have hsettled : info.settledRatio false = served := by
          rw [RelayPricing.settledRatio, hsnapshot]
          exact hratio
        exact iff_of_true hsettled fun hfalse => by cases hfalse
      | true =>
        have hsettled : info.settledRatio true = ratioOf (first.attempt.usedGroup cfg) := by
          rw [RelayPricing.settledRatio, hsnapshot]
          rfl
        rw [hsettled]
        exact ⟨fun h _ _ => h, fun h => h rfl trivial⟩
  · rw [← hratio] at hsettled ⊢
    exact (postTextConsumeQuota_withGroupRatio quotaCfg info usage reported hsettled).symm

/-! ### A request that is served by the second group -/

/-- The groups `a` and `b` with the ratios one and two. -/
def twoRatios : RatioSettings where
  groupRatioMap name := if name = "b" then some 2 else some 1
  groupGroupRatioMap _ _ := none

def defaultQuotaConfig : QuotaConfig where
  quotaPerUnit := 500000
  enableFreeModelPreConsume := true

/-- A round in which group `a` has no channel left and the channel of group `b` answers. -/
def servedByB : RelayRound where
  lookup _ group _ := (if group = "b" then some (plainChannel 2) else none, none)
  setupErr := none
  bodyErr := none
  answer := none

/-- A request billed by the ratio of its model is settled at the ratio of the second group. -/
theorem settled_at_served_group_second :
    let s := Transition.run (pricedRound twoGroups twoRatios defaultRetryPolicy
        (.selected (plainChannel 1) "a" (some 0)))
      (.start defaultQuotaConfig twoGroups twoRatios "default" (.ratio false 0 3 []) 0
        ⟨some "a", some 0, ⟨some 0, false⟩⟩) [failingRound, servedByB]
    s.info.settledRatio true = 2 ∧ s.info.priceData.groupRatioInfo.groupRatio = 2 := by
  have hsettled := settled_at_served_group defaultQuotaConfig twoGroups twoRatios defaultRetryPolicy
    "default" (.ratio false 0 3 []) 0 none none (fun _ => false) everywhere
    (.selected (plainChannel 1) "a" (some 0)) ⟨some "a", some 0, ⟨some 0, false⟩⟩ (by rfl)
    [failingRound, servedByB] ⟨plainChannel 2, some "b", some 1⟩ ⟨100, 100, 0, 0, none⟩ true
    ⟨by rfl, by rfl, by rfl⟩
  exact ⟨hsettled.2.1.2 fun _ htiered => htiered.elim, hsettled.1⟩

/-- **A request billed by an expression that is served by the second group is settled at the ratio
of the first**: two million tokens at a dollar each for a million come to the quota of the first group,
which is half of that of the second. -/
theorem tiered_settled_at_first_group :
    let first := FirstChannel.selected (plainChannel 1) "a" (some 0)
    let select : SelectState := ⟨some "a", some 0, ⟨some 0, false⟩⟩
    let s := Transition.run (pricedRound twoGroups twoRatios defaultRetryPolicy first)
      (.start defaultQuotaConfig twoGroups twoRatios "default" (.tiered 1000000) 0 select)
      [failingRound, servedByB]
    distribute twoGroups none none (fun _ => false) everywhere = some (first, select) ∧
      s.loop.ServedBy ⟨plainChannel 2, some "b", some 1⟩ ∧
      (groupRatioInfo twoRatios "default" "b").groupRatio = 2 ∧
      s.info.priceData.groupRatioInfo.groupRatio = 2 ∧ s.info.settledRatio true = 1 ∧
      postTextConsumeQuota defaultQuotaConfig s.info ⟨0, 2000000, 0, 0, some 2000000⟩ true =
        1000000 := by
  refine ⟨by rfl, ⟨by rfl, by rfl, by rfl⟩, ?_, ?_, ?_, ?_⟩
  · decide
  · decide
  · decide
  · decide +kernel

end NewApi
