/-
**A price by ratios and a price by an expression.**

A model that is priced by ratios can be priced by an expression instead: one that is linear, and
gives each kind of tokens the price that follows from its ratio.  The two settlements are written
apart.  The one by ratios takes the kinds of tokens out of the prompt by what it knows of the channel
and of the form of the usage; the one by an expression takes out what the expression names, unless
the usage is Claude's.

Main definitions:

* `NewApi.TextRatios`, `NewApi.RequestKind` — the ratios, and what else a settlement depends on;
* `NewApi.ratioQuota`, `NewApi.expressionQuota` — what the two settlements charge;
* `NewApi.ConsistentUsage` — the kinds of tokens fit into the prompt;
* `NewApi.NothingFound`, `NewApi.CountedAlike` — the condition.

Main results:

* `NewApi.ratio_and_expression_agree` — **the two agree for all ratios, up to one unit, exactly under
  the condition**;
* `NewApi.router_cache_priced_twice` — a cache that is taken out of a prompt by one of them only.
-/

import NewApi.TextQuota

set_option autoImplicit false

namespace NewApi

/-! ### The two settlements -/

/-- The ratios that a model is priced by, and the ratio of the group. -/
structure TextRatios where
  modelRatio : ℚ
  completionRatio : ℚ
  cacheRatio : ℚ
  cacheCreationRatio : ℚ
  imageRatio : ℚ
  groupRatio : ℚ
deriving DecidableEq

structure TextRatios.NonNegative (ratios : TextRatios) : Prop where
  modelRatio : 0 ≤ ratios.modelRatio
  completionRatio : 0 ≤ ratios.completionRatio
  cacheRatio : 0 ≤ ratios.cacheRatio
  cacheCreationRatio : 0 ≤ ratios.cacheCreationRatio
  imageRatio : 0 ≤ ratios.imageRatio
  groupRatio : 0 ≤ ratios.groupRatio

/-- What a settlement depends on besides the usage and the ratios: the format of the request, the
type of the channel, the ratio the model has by default, and the quota of one dollar. -/
structure RequestKind where
  isClaudeFormat : Bool
  isOpenRouter : Bool
  defaultModelRatio : Option ℚ
  quotaPerUnit : ℚ
deriving DecidableEq

/-- What is written to a cache for an hour costs more than what is written for five minutes. -/
def claudeCacheCreation1hMultiplier : ℚ := 6 / (375 / 100)

def hasCustomModelRatio (kind : RequestKind) (currentRatio : ℚ) : Bool :=
  kind.defaultModelRatio ≠ some currentRatio

/-- The pricing by ratios, of a request without surcharges. -/
def TextRatios.pricing (kind : RequestKind) (ratios : TextRatios) : TextQuotaPricing where
  isClaudeFormat := kind.isClaudeFormat
  isOpenRouter := kind.isOpenRouter
  usePrice := false
  hasCustomModelRatio := hasCustomModelRatio kind ratios.modelRatio
  modelRatio := ratios.modelRatio
  completionRatio := ratios.completionRatio
  cacheRatio := ratios.cacheRatio
  cacheCreationRatio := ratios.cacheCreationRatio
  cacheCreation5mRatio := ratios.cacheCreationRatio
  cacheCreation1hRatio := ratios.cacheCreationRatio * claudeCacheCreation1hMultiplier
  quotaPerUnit := kind.quotaPerUnit
  imageRatio := ratios.imageRatio
  groupRatio := ratios.groupRatio
  modelPrice := 0
  otherRatios := []
  audioInputPrice := 0
  toolPrice := 0

def ratioQuota (kind : RequestKind) (ratios : TextRatios) (usage : CostedUsage) : ℤ :=
  calculateTextQuota (ratios.pricing kind) usage

/-- The names that the expression uses. -/
def ratioExpressionVars : Option (List String) := some ["p", "c", "cr", "cc", "cc1h", "img"]

/-- The tokens of an expression, weighted by the ratios. -/
def TokenParams.weighted (params : TokenParams) (ratios : TextRatios) : ℚ :=
  params.p + ratios.completionRatio * params.c + ratios.cacheRatio * params.cr +
    ratios.cacheCreationRatio * params.cc +
    ratios.cacheCreationRatio * claudeCacheCreation1hMultiplier * params.cc1h +
    ratios.imageRatio * params.img

/-- What the expression comes to: each kind of tokens at the price of a million that follows from its
ratio. -/
def TokenParams.ratioExpression (params : TokenParams) (kind : RequestKind) (ratios : TextRatios) :
    ℚ :=
  ratios.modelRatio * 1000000 / kind.quotaPerUnit * params.weighted ratios

/-- The tokens that the expression is given. -/
def expressionParams (kind : RequestKind) (ratios : TextRatios) (usage : CostedUsage) :
    TokenParams :=
  buildTieredTokenParams usage.toTieredUsage
    (textQuotaTokens (ratios.pricing kind).toTextPricing usage).isClaudeUsageSemantic
    ratioExpressionVars

def expressionQuota (kind : RequestKind) (ratios : TextRatios) (usage : CostedUsage) : ℤ :=
  quotaRound ((expressionParams kind ratios usage).ratioExpression kind ratios / 1000000 *
    kind.quotaPerUnit * ratios.groupRatio)

/-! ### Usages that add up -/

/-- Whether the usage is counted as Claude's. -/
def RequestKind.isClaude (kind : RequestKind) (usage : CostedUsage) : Prop :=
  usage.usageSemantic = "anthropic" ∨ usage.usageSemantic = "" ∧ kind.isClaudeFormat = true

instance (kind : RequestKind) (usage : CostedUsage) : Decidable (kind.isClaude usage) :=
  inferInstanceAs (Decidable (_ ∨ _))

/-- No count is negative.  The split of Claude's usage is the whole of the tokens written to a cache;
in the usage of the others, the kinds of tokens are part of the prompt. -/
structure ConsistentUsage (kind : RequestKind) (usage : CostedUsage) : Prop where
  prompt : 0 ≤ usage.promptTokens
  completion : 0 ≤ usage.completionTokens
  cached : 0 ≤ usage.cachedTokens
  creation : 0 ≤ usage.cachedCreationTokens
  creation5m : 0 ≤ usage.claudeCacheCreation5mTokens
  creation1h : 0 ≤ usage.claudeCacheCreation1hTokens
  image : 0 ≤ usage.promptImageTokens
  split : kind.isClaude usage → usage.claudeCacheCreation5mTokens +
    usage.claudeCacheCreation1hTokens = usage.cachedCreationTokens
  parts : ¬ kind.isClaude usage → usage.cachedTokens + usage.cachedCreationTokens +
    usage.promptImageTokens ≤ usage.promptTokens

/-- No tokens written to a cache can be found out from what a request to OpenRouter has cost: the
model has no ratio by default, or there is no prompt, or the cost is too far below zero, or it is
that of the prompt and there is no completion. -/
def NothingFound (kind : RequestKind) (usage : CostedUsage) : Prop :=
  ∀ ratio, kind.defaultModelRatio = some ratio → 0 < ratio →
    usage.promptTokens = 0 ∨ usage.cost.getD 0 * kind.quotaPerUnit / ratio ≤ -(1 / 2) ∨
      (usage.completionTokens = 0 ∧
        usage.cost.getD 0 * kind.quotaPerUnit / ratio = usage.promptTokens)

/-- **The condition.**  Claude's usage has no image; its split is marked as Claude's, or nothing is
kept for an hour; if it has neither a prompt nor a completion, it has nothing else; and from
OpenRouter it has nothing to do with a cache.  The usage of the others has no split, unless it is
empty. -/
def CountedAlike (kind : RequestKind) (usage : CostedUsage) : Prop :=
  (kind.isClaude usage →
    usage.promptImageTokens = 0 ∧
      (usage.usageSemantic = "anthropic" ∨ usage.claudeCacheCreation1hTokens = 0) ∧
      (usage.promptTokens + usage.completionTokens = 0 →
        usage.cachedTokens = 0 ∧ usage.cachedCreationTokens = 0) ∧
      (kind.isOpenRouter = true →
        usage.cachedTokens = 0 ∧ usage.cachedCreationTokens = 0 ∧ NothingFound kind usage)) ∧
    (¬ kind.isClaude usage → usage.promptTokens + usage.completionTokens ≠ 0 →
      usage.usageSource ≠ "" ∨ usage.usageSemantic ≠ "" ∨
        (usage.claudeCacheCreation5mTokens = 0 ∧ usage.claudeCacheCreation1hTokens = 0))

/-! ### Numbers that are far apart -/

theorem quotaRound_bounds (x : ℚ) : x - 1 / 2 ≤ quotaRound x ∧ (quotaRound x : ℚ) ≤ x + 1 / 2 := by
  unfold quotaRound
  split
  · have hle := Int.floor_le (x + 1 / 2)
    have hlt := Int.lt_floor_add_one (x + 1 / 2)
    constructor
    · linarith
    · exact hle
  · have hle := Int.floor_le (1 / 2 - x)
    have hlt := Int.lt_floor_add_one (1 / 2 - x)
    push_cast
    constructor
    · linarith
    · linarith

/-- A smaller number of weighted tokens is charged less, at some ratio. -/
theorem exists_charged_lt {a b : ℚ} (hab : a < b) (hb : 0 < b) :
    ∃ r, 0 < r ∧ chargedQuota r (a * r) + 1 < quotaRound (b * r) := by
  have hsub : 0 < b - a := by linarith
  refine ⟨4 / (b - a) + 4 / b, by positivity, ?_⟩
  have hfar : (b - a) * (4 / (b - a) + 4 / b) = 4 + 4 * (b - a) / b := by
    field_simp
  have hlarge : b * (4 / (b - a) + 4 / b) = 4 + 4 * b / (b - a) := by
    field_simp
    ring
  have hpos : 0 < 4 * (b - a) / b := by positivity
  have hpos' : 0 < 4 * b / (b - a) := by positivity
  generalize hr : 4 / (b - a) + 4 / b = r at hfar hlarge
  have hr' : 0 < r := by
    rw [← hr]
    positivity
  have hround := (quotaRound_bounds (b * r)).1
  have hround' := (quotaRound_bounds (a * r)).2
  rw [chargedQuota, if_neg hr'.ne']
  have hmax : ((max 1 (quotaRound (a * r)) : ℤ) : ℚ) + 1 < quotaRound (b * r) := by
    push_cast
    rw [← max_add_add_right, max_lt_iff]
    constructor
    · linarith
    · nlinarith
  exact_mod_cast hmax

/-- A larger number of weighted tokens is charged more, at some ratio. -/
theorem exists_lt_charged {a b : ℚ} (hba : b < a) :
    ∃ r, 0 < r ∧ quotaRound (b * r) + 1 < chargedQuota r (a * r) := by
  have hsub : 0 < a - b := by linarith
  refine ⟨4 / (a - b), by positivity, ?_⟩
  have hfar : (a - b) * (4 / (a - b)) = 4 := by field_simp
  generalize hr : 4 / (a - b) = r at hfar
  have hround := (quotaRound_bounds (b * r)).2
  have hround' := (quotaRound_bounds (a * r)).1
  have hle := quotaRound_le_chargedQuota r (a * r)
  have hlt : ((quotaRound (b * r) : ℤ) : ℚ) + 1 < quotaRound (a * r) := by linarith
  have hlt' : quotaRound (b * r) + 1 < quotaRound (a * r) := by exact_mod_cast hlt
  omega

theorem exists_large {b : ℚ} (hb : 0 < b) : ∃ r, 0 < r ∧ 1 < quotaRound (b * r) := by
  refine ⟨2 / b, by positivity, ?_⟩
  have htwo : b * (2 / b) = 2 := by field_simp
  rw [htwo]
  norm_num [quotaRound]

/-- The least quota is one unit more than nothing. -/
theorem chargedQuota_near {r x : ℚ} (hx : 0 ≤ x) : |chargedQuota r x - quotaRound x| ≤ 1 := by
  have hround := quotaRound_nonneg hx
  unfold chargedQuota
  split
  · simp
  · rw [abs_le]
    omega

/-! ### The weighted tokens of the two settlements -/

/-- The tokens of the settlement by ratios, weighted. -/
def ratioWeight (kind : RequestKind) (ratios : TextRatios) (usage : CostedUsage) : ℚ :=
  promptTokensWithRatio (ratios.pricing kind) usage +
    completionTokensWithRatio (ratios.pricing kind) usage

def expressionWeight (kind : RequestKind) (ratios : TextRatios) (usage : CostedUsage) : ℚ :=
  (expressionParams kind ratios usage).weighted ratios

theorem ratioQuota_eq (kind : RequestKind) (ratios : TextRatios) {usage : CostedUsage}
    (htotal : usage.promptTokens + usage.completionTokens ≠ 0) :
    ratioQuota kind ratios usage =
      chargedQuota (ratios.modelRatio * ratios.groupRatio)
        (ratioWeight kind ratios usage * (ratios.modelRatio * ratios.groupRatio)) := by
  have hexact : exactQuota (ratios.pricing kind) usage =
      ratioWeight kind ratios usage * (ratios.modelRatio * ratios.groupRatio) := by
    simp only [exactQuota, promptCost, completionCost, audioInputQuota, toolCallSurcharge,
      ratioWeight, TextQuotaPricing.ratio, TextRatios.pricing, Bool.false_eq_true, if_false,
      List.prod_nil, lt_irrefl, and_false]
    ring
  rw [ratioQuota, calculateTextQuota_of_ratio rfl htotal, hexact]
  rfl

theorem expressionQuota_eq {kind : RequestKind} (hunit : 0 < kind.quotaPerUnit)
    (ratios : TextRatios) (usage : CostedUsage) :
    expressionQuota kind ratios usage =
      quotaRound (expressionWeight kind ratios usage *
        (ratios.modelRatio * ratios.groupRatio)) := by
  have hexact : (expressionParams kind ratios usage).ratioExpression kind ratios / 1000000 *
      kind.quotaPerUnit * ratios.groupRatio =
        expressionWeight kind ratios usage * (ratios.modelRatio * ratios.groupRatio) := by
    unfold TokenParams.ratioExpression expressionWeight
    field_simp
  rw [expressionQuota, hexact]

/-- **The quotas are within one unit of one another.** -/
def Within (kind : RequestKind) (ratios : TextRatios) (usage : CostedUsage) : Prop :=
  |ratioQuota kind ratios usage - expressionQuota kind ratios usage| ≤ 1

/-- Where the weights are apart, so are the quotas of some group. -/
theorem exists_not_within {kind : RequestKind} (hunit : 0 < kind.quotaPerUnit)
    {ratios : TextRatios} (hratios : ratios.NonNegative) (hmodel : 0 < ratios.modelRatio)
    {usage : CostedUsage}
    (hfar : ratioWeight kind ratios usage < expressionWeight kind ratios usage ∧
        0 < expressionWeight kind ratios usage ∨
      expressionWeight kind ratios usage < ratioWeight kind ratios usage ∧
        usage.promptTokens + usage.completionTokens ≠ 0 ∨
      usage.promptTokens + usage.completionTokens = 0 ∧
        0 < expressionWeight kind ratios usage) :
    ∃ ratios : TextRatios, ratios.NonNegative ∧ ¬ Within kind ratios usage := by
  -- a group whose ratio and that of the model make up a given number
  have hgroup : ∀ r, 0 < r → ∃ ratios' : TextRatios, ratios'.NonNegative ∧
      ratios'.modelRatio * ratios'.groupRatio = r ∧
      ratioWeight kind ratios' usage = ratioWeight kind ratios usage ∧
      expressionWeight kind ratios' usage = expressionWeight kind ratios usage := by
    intro r hr
    refine ⟨{ ratios with groupRatio := r / ratios.modelRatio }, ?_, ?_, rfl, rfl⟩
    · exact ⟨hratios.modelRatio, hratios.completionRatio, hratios.cacheRatio,
        hratios.cacheCreationRatio, hratios.imageRatio, (div_pos hr hmodel).le⟩
    · exact mul_div_cancel₀ r hmodel.ne'
  by_cases htotal : usage.promptTokens + usage.completionTokens = 0
  · have hpositive : 0 < expressionWeight kind ratios usage := by
      obtain h | h | h := hfar
      · exact h.2
      · exact absurd htotal h.2
      · exact h.2
    obtain ⟨r, hr, hlarge⟩ := exists_large hpositive
    obtain ⟨ratios', hratios', hprod, -, hexpr⟩ := hgroup r hr
    refine ⟨ratios', hratios', ?_⟩
    rw [Within, ratioQuota, calculateTextQuota_of_none htotal, expressionQuota_eq hunit, hexpr,
      hprod, abs_le]
    omega
  · have hcases : ratioWeight kind ratios usage < expressionWeight kind ratios usage ∧
        0 < expressionWeight kind ratios usage ∨
        expressionWeight kind ratios usage < ratioWeight kind ratios usage := by
      obtain h | h | h := hfar
      · exact .inl h
      · exact .inr h.1
      · exact absurd h.1 htotal
    obtain ⟨hlt, hpositive⟩ | hlt := hcases
    · obtain ⟨r, hr, hcharged⟩ := exists_charged_lt hlt hpositive
      obtain ⟨ratios', hratios', hprod, hratio, hexpr⟩ := hgroup r hr
      refine ⟨ratios', hratios', ?_⟩
      rw [Within, ratioQuota_eq kind ratios' htotal, expressionQuota_eq hunit, hratio, hexpr, hprod,
        abs_le]
      omega
    · obtain ⟨r, hr, hcharged⟩ := exists_lt_charged hlt
      obtain ⟨ratios', hratios', hprod, hratio, hexpr⟩ := hgroup r hr
      refine ⟨ratios', hratios', ?_⟩
      rw [Within, ratioQuota_eq kind ratios' htotal, expressionQuota_eq hunit, hratio, hexpr, hprod,
        abs_le]
      omega

/-- Where the weights are the same and not negative, so are the quotas, up to the least one. -/
theorem within_of_eq {kind : RequestKind} (hunit : 0 < kind.quotaPerUnit) {ratios : TextRatios}
    (hratios : ratios.NonNegative) {usage : CostedUsage}
    (htotal : usage.promptTokens + usage.completionTokens ≠ 0)
    (heq : ratioWeight kind ratios usage = expressionWeight kind ratios usage)
    (hnonneg : 0 ≤ expressionWeight kind ratios usage) : Within kind ratios usage := by
  have hr : 0 ≤ ratios.modelRatio * ratios.groupRatio :=
    mul_nonneg hratios.modelRatio hratios.groupRatio
  rw [Within, ratioQuota_eq kind ratios htotal, expressionQuota_eq hunit, heq]
  exact chargedQuota_near (mul_nonneg hnonneg hr)

/-! ### What the weights are -/

theorem isClaude_iff (kind : RequestKind) (ratios : TextRatios) (usage : CostedUsage) :
    usageSemanticFromUsage (ratios.pricing kind).toTextPricing usage = "anthropic" ↔
      kind.isClaude usage := by
  have hformat : (ratios.pricing kind).isClaudeFormat = kind.isClaudeFormat := rfl
  unfold usageSemanticFromUsage RequestKind.isClaude
  rw [hformat]
  by_cases hblank : usage.usageSemantic = ""
  · cases kind.isClaudeFormat with
    | true => simp [hblank]
    | false => simp [hblank]
  · simp [hblank]

/-- The tokens that the settlement by ratios takes for written to a cache, of Claude's usage. -/
def foundCreation (kind : RequestKind) (ratios : TextRatios) (usage : CostedUsage) : ℤ :=
  if kind.isOpenRouter = true then
    openRouterCacheCreation (ratios.pricing kind).toTextPricing usage
  else usage.cachedCreationTokens

theorem foundCreation_of_ne {kind : RequestKind} {ratios : TextRatios} {usage : CostedUsage}
    (h : usage.cachedCreationTokens ≠ 0) :
    foundCreation kind ratios usage = usage.cachedCreationTokens := by
  unfold foundCreation
  split
  · exact openRouterCacheCreation_of_ne h
  · rfl

theorem foundCreation_nonneg {kind : RequestKind} {ratios : TextRatios} {usage : CostedUsage}
    (h : 0 ≤ usage.cachedCreationTokens) : 0 ≤ foundCreation kind ratios usage := by
  by_cases hzero : usage.cachedCreationTokens = 0
  · unfold foundCreation
    split
    · exact openRouterCacheCreation_nonneg hzero
    · exact h
  · rw [foundCreation_of_ne hzero]
    exact h

/-- Where a ratio for writing to a cache is one, nothing is found out. -/
theorem foundCreation_of_one {kind : RequestKind} {ratios : TextRatios} {usage : CostedUsage}
    (h : ratios.cacheCreationRatio = 1) :
    foundCreation kind ratios usage = usage.cachedCreationTokens := by
  have hratio : (ratios.pricing kind).cacheCreationRatio = 1 := h
  unfold foundCreation openRouterCacheCreation
  split
  · rw [if_neg fun hfound => hfound.2.1 hratio]
  · rfl

section Claude

variable {kind : RequestKind} {ratios : TextRatios} {usage : CostedUsage}

theorem textQuotaTokens_claude (h : kind.isClaude usage) :
    textQuotaTokens (ratios.pricing kind).toTextPricing usage =
      { promptTokens := if kind.isOpenRouter = true then
          usage.promptTokens - usage.cachedTokens - foundCreation kind ratios usage
          else usage.promptTokens
        cacheTokens := usage.cachedTokens
        cacheCreationTokens := foundCreation kind ratios usage
        cacheCreationTokens5m := usage.claudeCacheCreation5mTokens
        cacheCreationTokens1h := usage.claudeCacheCreation1hTokens
        isClaudeUsageSemantic := true
        legacyClaudeDerived := isLegacyClaudeDerivedOpenAIUsage
          (ratios.pricing kind).toTextPricing usage } := by
  have hsemantic := (isClaude_iff kind ratios usage).2 h
  have hrouter : (ratios.pricing kind).isOpenRouter = kind.isOpenRouter := rfl
  simp only [textQuotaTokens, hsemantic, hrouter, foundCreation, and_true, decide_true]

/-- The price of what is written to a cache, of Claude's usage. -/
theorem sum_priced_claude (hc : ConsistentUsage kind usage) (h : kind.isClaude usage) :
    (((textQuotaTokens (ratios.pricing kind).toTextPricing usage).pricedCacheCreation
        (ratios.pricing kind).toTextPricing).map fun priced => (priced.1 : ℚ) * priced.2).sum =
      ((foundCreation kind ratios usage - usage.cachedCreationTokens : ℤ) : ℚ) *
          ratios.cacheCreationRatio +
        ratios.cacheCreationRatio * (usage.claudeCacheCreation5mTokens +
          claudeCacheCreation1hMultiplier * usage.claudeCacheCreation1hTokens) := by
  have hsplit := hc.split h
  have h5m := hc.creation5m
  have h1h := hc.creation1h
  have hfound := @foundCreation_nonneg kind ratios usage hc.creation
  have hsame : usage.cachedCreationTokens ≠ 0 →
      foundCreation kind ratios usage = usage.cachedCreationTokens := foundCreation_of_ne
  have hpricing : (ratios.pricing kind).cacheCreationRatio = ratios.cacheCreationRatio := rfl
  have hpricing5m : (ratios.pricing kind).cacheCreation5mRatio = ratios.cacheCreationRatio := rfl
  have hpricing1h : (ratios.pricing kind).cacheCreation1hRatio =
      ratios.cacheCreationRatio * claudeCacheCreation1hMultiplier := rfl
  rw [textQuotaTokens_claude h]
  unfold TextQuotaTokens.pricedCacheCreation
  dsimp only
  generalize foundCreation kind ratios usage = found at hfound hsame ⊢
  have hremaining : (if found - usage.claudeCacheCreation5mTokens -
      usage.claudeCacheCreation1hTokens < 0 then 0
      else found - usage.claudeCacheCreation5mTokens - usage.claudeCacheCreation1hTokens) =
        found - usage.cachedCreationTokens := by
    by_cases hzero : usage.cachedCreationTokens = 0
    · rw [if_neg (by omega)]
      omega
    · have heq := hsame hzero
      rw [if_neg (by omega)]
      omega
  by_cases hany : found ≠ 0 ∨ 0 < usage.claudeCacheCreation5mTokens ∨
      0 < usage.claudeCacheCreation1hTokens
  · rw [if_pos hany, if_neg (by simp), hremaining, hpricing, hpricing5m, hpricing1h]
    simp only [List.map_cons, List.map_nil, List.sum_cons, List.sum_nil]
    ring
  · have hzero : found = 0 ∧ usage.claudeCacheCreation5mTokens = 0 ∧
        usage.claudeCacheCreation1hTokens = 0 ∧ usage.cachedCreationTokens = 0 := by omega
    rw [if_neg hany, hzero.1, hzero.2.1, hzero.2.2.1, hzero.2.2.2]
    simp

/-- The weight of Claude's usage by ratios. -/
theorem ratioWeight_claude (hc : ConsistentUsage kind usage) (h : kind.isClaude usage) :
    ratioWeight kind ratios usage =
      usage.promptTokens -
          (if kind.isOpenRouter = true then
            ((usage.cachedTokens + foundCreation kind ratios usage : ℤ) : ℚ) else 0) -
        usage.promptImageTokens + usage.cachedTokens * ratios.cacheRatio +
        usage.promptImageTokens * ratios.imageRatio +
        (((foundCreation kind ratios usage - usage.cachedCreationTokens : ℤ) : ℚ) *
            ratios.cacheCreationRatio +
          ratios.cacheCreationRatio * (usage.claudeCacheCreation5mTokens +
            claudeCacheCreation1hMultiplier * usage.claudeCacheCreation1hTokens)) +
        usage.completionTokens * ratios.completionRatio := by
  have hbase : (textQuotaTokens (ratios.pricing kind).toTextPricing usage).baseTokens
      (ratios.pricing kind) usage =
        (if kind.isOpenRouter = true then
          usage.promptTokens - usage.cachedTokens - foundCreation kind ratios usage
          else usage.promptTokens) - usage.promptImageTokens := by
    have haudio : (ratios.pricing kind).audioInputPrice = 0 := rfl
    rw [textQuotaTokens_claude h]
    unfold TextQuotaTokens.baseTokens
    simp only [haudio, lt_irrefl, and_false, if_false, Bool.true_eq_false, false_and, ne_eq,
      ite_not]
    by_cases himage : usage.promptImageTokens = 0
    · rw [if_pos himage, himage, Int.sub_zero]
    · rw [if_neg himage]
  unfold ratioWeight promptTokensWithRatio completionTokensWithRatio
  dsimp only
  rw [sum_priced_claude hc h, hbase, textQuotaTokens_claude h]
  have hcache : (ratios.pricing kind).cacheRatio = ratios.cacheRatio := rfl
  have himage : (ratios.pricing kind).imageRatio = ratios.imageRatio := rfl
  have hcompletion : (ratios.pricing kind).completionRatio = ratios.completionRatio := rfl
  rw [hcache, himage, hcompletion]
  by_cases hopen : kind.isOpenRouter = true
  · rw [if_pos hopen, if_pos hopen]
    push_cast
    ring
  · rw [if_neg hopen, if_neg hopen]
    push_cast
    ring

/-- The weight of Claude's usage by the expression. -/
theorem expressionWeight_claude (hc : ConsistentUsage kind usage) (h : kind.isClaude usage) :
    expressionWeight kind ratios usage =
      usage.promptTokens + ratios.completionRatio * usage.completionTokens +
        ratios.cacheRatio * usage.cachedTokens +
        (if usage.usageSemantic = "anthropic" then
          ratios.cacheCreationRatio * (usage.claudeCacheCreation5mTokens +
            claudeCacheCreation1hMultiplier * usage.claudeCacheCreation1hTokens)
          else ratios.cacheCreationRatio * usage.cachedCreationTokens) +
        ratios.imageRatio * usage.promptImageTokens := by
  have hp := hc.prompt
  have hcompletion := hc.completion
  unfold expressionWeight expressionParams TokenParams.weighted buildTieredTokenParams
  rw [textQuotaTokens_claude h]
  simp only [if_true]
  rw [if_neg (by omega), if_neg (by omega)]
  by_cases htagged : usage.usageSemantic = "anthropic"
  · simp only [if_pos htagged]
    ring
  · simp only [if_neg htagged]
    push_cast
    ring

end Claude

section Plain

variable {kind : RequestKind} {ratios : TextRatios} {usage : CostedUsage}

theorem textQuotaTokens_plain (h : ¬ kind.isClaude usage) :
    textQuotaTokens (ratios.pricing kind).toTextPricing usage =
      { promptTokens := usage.promptTokens
        cacheTokens := usage.cachedTokens
        cacheCreationTokens := usage.cachedCreationTokens
        cacheCreationTokens5m := usage.claudeCacheCreation5mTokens
        cacheCreationTokens1h := usage.claudeCacheCreation1hTokens
        isClaudeUsageSemantic := false
        legacyClaudeDerived := isLegacyClaudeDerivedOpenAIUsage
          (ratios.pricing kind).toTextPricing usage } := by
  have hsemantic : usageSemanticFromUsage (ratios.pricing kind).toTextPricing usage ≠
      "anthropic" := fun heq => h ((isClaude_iff kind ratios usage).1 heq)
  simp only [textQuotaTokens, hsemantic, and_false, if_false, decide_false]

theorem legacy_iff (h : ¬ kind.isClaude usage) (hc : ConsistentUsage kind usage) :
    isLegacyClaudeDerivedOpenAIUsage (ratios.pricing kind).toTextPricing usage = false ↔
      usage.usageSource ≠ "" ∨ usage.usageSemantic ≠ "" ∨
        (usage.claudeCacheCreation5mTokens = 0 ∧ usage.claudeCacheCreation1hTokens = 0) := by
  have h5m := hc.creation5m
  have h1h := hc.creation1h
  have hformat : (ratios.pricing kind).isClaudeFormat = kind.isClaudeFormat := rfl
  unfold isLegacyClaudeDerivedOpenAIUsage
  rw [hformat]
  by_cases hclaude : kind.isClaudeFormat = true
  · have hsemantic : usage.usageSemantic ≠ "" := fun hblank => h (.inr ⟨hblank, hclaude⟩)
    simp [hclaude, hsemantic]
  · rw [if_neg hclaude]
    by_cases hmarked : usage.usageSource ≠ "" ∨ usage.usageSemantic ≠ ""
    · rw [if_pos hmarked]
      simp only [true_iff]
      tauto
    · rw [if_neg hmarked]
      push Not at hmarked
      simp only [hmarked.1, hmarked.2, ne_eq, not_true_eq_false, false_or, Bool.or_eq_false_iff,
        decide_eq_false_iff_not, not_lt]
      omega

/-- The weight of a usage that is not Claude's, by ratios. -/
theorem ratioWeight_plain (h : ¬ kind.isClaude usage)
    (hlegacy : isLegacyClaudeDerivedOpenAIUsage (ratios.pricing kind).toTextPricing usage = false) :
    ratioWeight kind ratios usage =
      usage.promptTokens - usage.cachedTokens - usage.cachedCreationTokens -
        usage.promptImageTokens + usage.cachedTokens * ratios.cacheRatio +
        usage.promptImageTokens * ratios.imageRatio +
        usage.cachedCreationTokens * ratios.cacheCreationRatio +
        usage.completionTokens * ratios.completionRatio := by
  have hbase : (textQuotaTokens (ratios.pricing kind).toTextPricing usage).baseTokens
      (ratios.pricing kind) usage = usage.promptTokens - usage.cachedTokens -
        usage.cachedCreationTokens - usage.promptImageTokens := by
    have haudio : (ratios.pricing kind).audioInputPrice = 0 := rfl
    rw [textQuotaTokens_plain h, hlegacy]
    unfold TextQuotaTokens.baseTokens
    simp only [haudio, lt_irrefl, and_false, if_false, and_true]
    split <;> split <;> split <;> omega
  have hpriced : ((textQuotaTokens (ratios.pricing kind).toTextPricing usage).pricedCacheCreation
      (ratios.pricing kind).toTextPricing).map (fun priced => (priced.1 : ℚ) * priced.2) =
        [(usage.cachedCreationTokens : ℚ) * ratios.cacheCreationRatio] ∨
      usage.cachedCreationTokens = 0 ∧
        ((textQuotaTokens (ratios.pricing kind).toTextPricing usage).pricedCacheCreation
          (ratios.pricing kind).toTextPricing).map (fun priced => (priced.1 : ℚ) * priced.2) =
            [] := by
    rw [textQuotaTokens_plain h, hlegacy]
    unfold TextQuotaTokens.pricedCacheCreation
    dsimp only
    by_cases hany : usage.cachedCreationTokens ≠ 0 ∨ 0 < usage.claudeCacheCreation5mTokens ∨
        0 < usage.claudeCacheCreation1hTokens
    · rw [if_pos hany, if_pos ⟨rfl, rfl⟩]
      exact .inl rfl
    · rw [if_neg hany]
      exact .inr ⟨by tauto, rfl⟩
  have hsum : (((textQuotaTokens (ratios.pricing kind).toTextPricing usage).pricedCacheCreation
      (ratios.pricing kind).toTextPricing).map fun priced => (priced.1 : ℚ) * priced.2).sum =
        usage.cachedCreationTokens * ratios.cacheCreationRatio := by
    obtain hone | ⟨hzero, hnone⟩ := hpriced
    · rw [hone]
      simp
    · rw [hnone, hzero]
      simp
  unfold ratioWeight promptTokensWithRatio completionTokensWithRatio
  dsimp only
  rw [hsum, hbase, textQuotaTokens_plain h]
  push_cast
  rfl

/-- The weight of a usage that was once Claude's, by ratios: nothing is taken out of the prompt but
the image. -/
theorem ratioWeight_legacy (h : ¬ kind.isClaude usage)
    (hlegacy : isLegacyClaudeDerivedOpenAIUsage (ratios.pricing kind).toTextPricing usage = true)
    (hsplit : 0 < usage.claudeCacheCreation5mTokens ∨ 0 < usage.claudeCacheCreation1hTokens) :
    ∃ remaining : ℤ, 0 ≤ remaining ∧ ratioWeight kind ratios usage =
      usage.promptTokens - usage.promptImageTokens + usage.cachedTokens * ratios.cacheRatio +
        usage.promptImageTokens * ratios.imageRatio +
        ratios.cacheCreationRatio * (remaining + usage.claudeCacheCreation5mTokens +
          claudeCacheCreation1hMultiplier * usage.claudeCacheCreation1hTokens) +
        usage.completionTokens * ratios.completionRatio := by
  have hbase : (textQuotaTokens (ratios.pricing kind).toTextPricing usage).baseTokens
      (ratios.pricing kind) usage = usage.promptTokens - usage.promptImageTokens := by
    have haudio : (ratios.pricing kind).audioInputPrice = 0 := rfl
    rw [textQuotaTokens_plain h, hlegacy]
    unfold TextQuotaTokens.baseTokens
    simp only [haudio, lt_irrefl, and_false, if_false, Bool.true_eq_false, ne_eq, ite_not]
    by_cases himage : usage.promptImageTokens = 0
    · rw [if_pos himage, himage, Int.sub_zero]
    · rw [if_neg himage]
  let remaining := usage.cachedCreationTokens - usage.claudeCacheCreation5mTokens -
    usage.claudeCacheCreation1hTokens
  refine ⟨if remaining < 0 then 0 else remaining, ?_, ?_⟩
  · split
    · exact le_refl 0
    · omega
  · have hpriced : (textQuotaTokens (ratios.pricing kind).toTextPricing usage).pricedCacheCreation
        (ratios.pricing kind).toTextPricing =
          [(if remaining < 0 then 0 else remaining, ratios.cacheCreationRatio),
            (usage.claudeCacheCreation5mTokens, ratios.cacheCreationRatio),
            (usage.claudeCacheCreation1hTokens,
              ratios.cacheCreationRatio * claudeCacheCreation1hMultiplier)] := by
      rw [textQuotaTokens_plain h, hlegacy]
      unfold TextQuotaTokens.pricedCacheCreation
      dsimp only
      rw [if_pos (.inr hsplit), if_neg (by simp)]
      rfl
    unfold ratioWeight promptTokensWithRatio completionTokensWithRatio
    dsimp only
    rw [hpriced, hbase, textQuotaTokens_plain h]
    have hcache : (ratios.pricing kind).cacheRatio = ratios.cacheRatio := rfl
    have himage : (ratios.pricing kind).imageRatio = ratios.imageRatio := rfl
    have hcompletion : (ratios.pricing kind).completionRatio = ratios.completionRatio := rfl
    rw [hcache, himage, hcompletion]
    simp only [List.map_cons, List.map_nil, List.sum_cons, List.sum_nil]
    push_cast
    ring

/-- The weight of a usage that is not Claude's, by the expression. -/
theorem expressionWeight_plain (hc : ConsistentUsage kind usage) (h : ¬ kind.isClaude usage) :
    expressionWeight kind ratios usage =
      usage.promptTokens - usage.cachedTokens - usage.cachedCreationTokens -
        usage.promptImageTokens + ratios.completionRatio * usage.completionTokens +
        ratios.cacheRatio * usage.cachedTokens +
        ratios.cacheCreationRatio * usage.cachedCreationTokens +
        ratios.imageRatio * usage.promptImageTokens := by
  have hparts := hc.parts h
  have hcompletion := hc.completion
  have htagged : usage.usageSemantic ≠ "anthropic" := fun heq => h (.inl heq)
  unfold expressionWeight expressionParams TokenParams.weighted
  rw [textQuotaTokens_plain h]
  simp only [buildTieredTokenParams, htagged, if_false, Bool.false_eq_true, exclude_eq,
    ratioExpressionVars]
  have hcr : usedCount (some ["p", "c", "cr", "cc", "cc1h", "img"]) "cr" usage.cachedTokens =
      usage.cachedTokens := rfl
  have hcc : usedCount (some ["p", "c", "cr", "cc", "cc1h", "img"]) "cc"
      usage.cachedCreationTokens = usage.cachedCreationTokens := rfl
  have hcc1h : usedCount (some ["p", "c", "cr", "cc", "cc1h", "img"]) "cc1h" 0 = 0 := rfl
  have himg : usedCount (some ["p", "c", "cr", "cc", "cc1h", "img"]) "img"
      usage.promptImageTokens = usage.promptImageTokens := rfl
  have hai : usedCount (some ["p", "c", "cr", "cc", "cc1h", "img"]) "ai"
      usage.promptAudioTokens = 0 := rfl
  have himgO : usedCount (some ["p", "c", "cr", "cc", "cc1h", "img"]) "img_o"
      usage.completionImageTokens = 0 := rfl
  have hao : usedCount (some ["p", "c", "cr", "cc", "cc1h", "img"]) "ao"
      usage.completionAudioTokens = 0 := rfl
  rw [hcr, hcc, hcc1h, himg, hai, himgO, hao, if_neg (by omega), if_neg (by omega)]
  push_cast
  ring

end Plain

/-! ### What the cost tells -/

section Cost

variable {kind : RequestKind} {ratios : TextRatios} {usage : CostedUsage}

/-- What is found out, in terms of the price of a token of the prompt. -/
theorem openRouterCacheCreation_cost (hunit : 0 < kind.quotaPerUnit)
    (hdefault : kind.defaultModelRatio = some ratios.modelRatio) (hmodel : 0 < ratios.modelRatio)
    (hone : ratios.cacheCreationRatio ≠ 1) (hcached : usage.cachedTokens = 0)
    (hcreation : usage.cachedCreationTokens = 0) {estimate : ℤ}
    (hestimate : quotaRound ((usage.cost.getD 0 * kind.quotaPerUnit / ratios.modelRatio -
      usage.promptTokens - usage.completionTokens * ratios.completionRatio) /
        (ratios.cacheCreationRatio - 1)) = estimate) :
    openRouterCacheCreation (ratios.pricing kind).toTextPricing usage =
      if 0 ≤ estimate ∧ estimate ≤ usage.promptTokens then estimate else 0 := by
  have hcustom : ((ratios.pricing kind).usePrice || (ratios.pricing kind).hasCustomModelRatio) =
      false := by
    simp [TextRatios.pricing, hasCustomModelRatio, hdefault]
  have hne : (ratios.pricing kind).cacheCreationRatio ≠ 1 := hone
  have hcalc : calcOpenRouterCacheCreateTokens usage (ratios.pricing kind).toTextPricing =
      estimate := by
    rw [← hestimate]
    unfold calcOpenRouterCacheCreateTokens
    rw [if_neg hne]
    simp only [TextRatios.pricing, hcached, Int.cast_zero, zero_mul, add_zero]
    congr 1
    have hsub : ratios.cacheCreationRatio - 1 ≠ 0 := sub_ne_zero.2 hone
    rw [div_eq_div_iff _ hsub]
    · field_simp
    · have hprice : ratios.modelRatio / kind.quotaPerUnit ≠ 0 :=
        (div_pos hmodel hunit).ne'
      have hfactor : ratios.modelRatio / kind.quotaPerUnit * ratios.cacheCreationRatio -
          ratios.modelRatio / kind.quotaPerUnit =
            ratios.modelRatio / kind.quotaPerUnit * (ratios.cacheCreationRatio - 1) := by ring
      rw [hfactor]
      exact mul_ne_zero hprice hsub
  unfold openRouterCacheCreation
  dsimp only
  rw [if_pos ⟨hcreation, hne, hcustom⟩, hcalc, hcached, hcreation, Int.sub_zero]

theorem quotaRound_nonpos {x : ℚ} (hx : x ≤ 0) : quotaRound x ≤ 0 := by
  have hround := (quotaRound_bounds x).2
  have hlt : (quotaRound x : ℚ) < 1 := by linarith
  have hlt' : quotaRound x < 1 := by exact_mod_cast hlt
  omega

/-- Nothing is found out for a model that costs nothing, or at a ratio that is its own. -/
theorem openRouterCacheCreation_free (hcreation : usage.cachedCreationTokens = 0)
    (h : ¬ (kind.defaultModelRatio = some ratios.modelRatio ∧ ratios.modelRatio ≠ 0 ∧
      ratios.cacheCreationRatio ≠ 1)) :
    openRouterCacheCreation (ratios.pricing kind).toTextPricing usage = 0 := by
  unfold openRouterCacheCreation
  dsimp only
  by_cases hzero : ratios.modelRatio = 0
  · have hcalc : calcOpenRouterCacheCreateTokens usage (ratios.pricing kind).toTextPricing = 0 := by
      unfold calcOpenRouterCacheCreateTokens
      split
      · rfl
      · simp only [TextRatios.pricing, hzero, zero_div, zero_mul, sub_self, div_zero]
        exact quotaRound_zero
    rw [hcalc, hcreation, ite_self, ite_self]
  · have hnot : ¬ (usage.cachedCreationTokens = 0 ∧ (ratios.pricing kind).cacheCreationRatio ≠ 1 ∧
        ((ratios.pricing kind).usePrice || (ratios.pricing kind).hasCustomModelRatio) =
          false) := by
      rintro ⟨-, hone, hcustom⟩
      refine h ⟨?_, hzero, hone⟩
      simpa [TextRatios.pricing, hasCustomModelRatio] using hcustom
    rw [if_neg hnot, hcreation]

/-- Nothing is found out under the condition. -/
theorem NothingFound.openRouterCacheCreation (h : NothingFound kind usage)
    (hunit : 0 < kind.quotaPerUnit) (hratios : ratios.NonNegative)
    (hc : ConsistentUsage kind usage) (hcached : usage.cachedTokens = 0)
    (hcreation : usage.cachedCreationTokens = 0) :
    openRouterCacheCreation (ratios.pricing kind).toTextPricing usage = 0 := by
  by_cases hpriced : kind.defaultModelRatio = some ratios.modelRatio ∧ ratios.modelRatio ≠ 0 ∧
      ratios.cacheCreationRatio ≠ 1
  · obtain ⟨hdefault, hne, hone⟩ := hpriced
    have hmodel : 0 < ratios.modelRatio := lt_of_le_of_ne hratios.modelRatio hne.symm
    rw [openRouterCacheCreation_cost hunit hdefault hmodel hone hcached hcreation rfl]
    have hcompletion : (0 : ℚ) ≤ usage.completionTokens * ratios.completionRatio :=
      mul_nonneg (by exact_mod_cast hc.completion) hratios.completionRatio
    have hprompt : (0 : ℚ) ≤ usage.promptTokens := by exact_mod_cast hc.prompt
    obtain hzero | hlow | ⟨hnone, hexact⟩ := h ratios.modelRatio hdefault hmodel
    · rw [hzero]
      split
      · omega
      · rfl
    · generalize usage.cost.getD 0 * kind.quotaPerUnit / ratios.modelRatio = cost at hlow ⊢
      have hnumerator : cost - usage.promptTokens - usage.completionTokens *
          ratios.completionRatio ≤ -(usage.promptTokens + 1 / 2) := by linarith
      obtain habove | hbelow := lt_or_gt_of_ne hone.symm
      · -- dearer than the prompt: less than nothing would have been written
        have hnonpos := quotaRound_nonpos (div_nonpos_of_nonpos_of_nonneg
          (hnumerator.trans (by linarith)) (sub_pos.2 habove).le)
        split
        · omega
        · rfl
      · -- cheaper than the prompt: more than the prompt would have been written
        have hlarge : (usage.promptTokens : ℚ) + 1 / 2 ≤ (cost - usage.promptTokens -
            usage.completionTokens * ratios.completionRatio) / (ratios.cacheCreationRatio - 1) := by
          rw [le_div_iff_of_neg (sub_neg.2 hbelow)]
          have hratio := hratios.cacheCreationRatio
          nlinarith
        have hround := quotaRound_mono hlarge
        have hhalf : quotaRound ((usage.promptTokens : ℚ) + 1 / 2) = usage.promptTokens + 1 := by
          have hone' : (usage.promptTokens : ℚ) + 1 / 2 + 1 / 2 = (usage.promptTokens + 1 : ℤ) := by
            push_cast
            ring
          rw [quotaRound, if_pos (by linarith), hone', Int.floor_intCast]
        rw [if_neg (by omega)]
    · have hzero : quotaRound ((usage.cost.getD 0 * kind.quotaPerUnit / ratios.modelRatio -
          usage.promptTokens - usage.completionTokens * ratios.completionRatio) /
            (ratios.cacheCreationRatio - 1)) = 0 := by
        rw [hexact, hnone]
        simp only [sub_self, Int.cast_zero, zero_mul, zero_div]
        exact quotaRound_zero
      rw [hzero, ite_self]
  · exact openRouterCacheCreation_free hcreation hpriced

/-- Ratios at which a model is priced with its completion and what is written to its cache. -/
def costRatios (modelRatio completionRatio cacheCreationRatio : ℚ) : TextRatios where
  modelRatio := modelRatio
  completionRatio := completionRatio
  cacheRatio := 0
  cacheCreationRatio := cacheCreationRatio
  imageRatio := 0
  groupRatio := 1

theorem exists_found_of {ratio completionRatio cacheCreationRatio cost : ℚ}
    (hunit : 0 < kind.quotaPerUnit) (hdefault : kind.defaultModelRatio = some ratio)
    (hmodel : 0 < ratio) (hcached : usage.cachedTokens = 0)
    (hcreation : usage.cachedCreationTokens = 0)
    (hcost : usage.cost.getD 0 * kind.quotaPerUnit / ratio = cost)
    (hcompletion : 0 ≤ completionRatio) (hcreate : 0 ≤ cacheCreationRatio)
    (hone : cacheCreationRatio ≠ 1) (estimate : ℤ)
    (hestimate : quotaRound ((cost - usage.promptTokens - usage.completionTokens *
      completionRatio) / (cacheCreationRatio - 1)) = estimate) (hpos : 0 < estimate)
    (hle : estimate ≤ usage.promptTokens) :
    ∃ ratios : TextRatios, ratios.NonNegative ∧ 0 < ratios.modelRatio ∧
      ratios.cacheCreationRatio ≠ 1 ∧
        openRouterCacheCreation (ratios.pricing kind).toTextPricing usage ≠ 0 := by
  refine ⟨costRatios ratio completionRatio cacheCreationRatio,
    ⟨hmodel.le, hcompletion, le_refl 0, hcreate, le_refl 0, zero_le_one⟩, hmodel, hone, ?_⟩
  rw [← hcost] at hestimate
  have hfound := @openRouterCacheCreation_cost kind
    (costRatios ratio completionRatio cacheCreationRatio) usage hunit hdefault hmodel hone hcached
    hcreation estimate hestimate
  rw [hfound, if_pos ⟨hpos.le, hle⟩]
  exact hpos.ne'

theorem quotaRound_int (n : ℤ) {x : ℚ} (hlow : (n : ℚ) - 1 / 2 < x) (hhigh : x < n + 1 / 2) :
    quotaRound x = n := by
  have hround := quotaRound_bounds x
  have hlt : (quotaRound x : ℚ) < (n + 1 : ℤ) := by
    push_cast
    linarith
  have hgt : ((n - 1 : ℤ) : ℚ) < quotaRound x := by
    push_cast
    linarith
  have hlt' : quotaRound x < n + 1 := by exact_mod_cast hlt
  have hgt' : n - 1 < quotaRound x := by exact_mod_cast hgt
  omega

/-- Something is found out at some ratios, otherwise. -/
theorem exists_found (h : ¬ NothingFound kind usage) (hunit : 0 < kind.quotaPerUnit)
    (hc : ConsistentUsage kind usage) (hcached : usage.cachedTokens = 0)
    (hcreation : usage.cachedCreationTokens = 0) :
    ∃ ratios : TextRatios, ratios.NonNegative ∧ 0 < ratios.modelRatio ∧
      ratios.cacheCreationRatio ≠ 1 ∧
        openRouterCacheCreation (ratios.pricing kind).toTextPricing usage ≠ 0 := by
  unfold NothingFound at h
  push Not at h
  obtain ⟨ratio, hdefault, hmodel, hprompt, hcost, hexact⟩ := h
  have hpromptPos : 0 < usage.promptTokens := by
    have hprompt' := hc.prompt
    omega
  have hpromptPos' : (0 : ℚ) < usage.promptTokens := by exact_mod_cast hpromptPos
  obtain ⟨cost, hcostEq⟩ : ∃ cost, usage.cost.getD 0 * kind.quotaPerUnit / ratio = cost :=
    ⟨_, rfl⟩
  rw [hcostEq] at hcost hexact
  obtain hbelow | heq | habove := lt_trichotomy cost usage.promptTokens
  · by_cases hneg : cost < 0
    · -- the whole prompt has been written, and at no price
      refine exists_found_of hunit hdefault hmodel hcached hcreation hcostEq (le_refl 0)
        (le_refl 0) zero_ne_one usage.promptTokens ?_ hpromptPos (le_refl _)
      apply quotaRound_int
      · simp only [mul_zero, sub_zero, zero_sub, div_neg, div_one]
        linarith
      · simp only [mul_zero, sub_zero, zero_sub, div_neg, div_one]
        linarith
    · -- the whole prompt has been written, at a lower price
      have hlt : cost / usage.promptTokens < 1 := (div_lt_one hpromptPos').2 hbelow
      have hround : (cost - usage.promptTokens - usage.completionTokens * 0) /
          (cost / usage.promptTokens - 1) = usage.promptTokens := by
        rw [div_eq_iff (by linarith)]
        field_simp
        ring
      refine exists_found_of hunit hdefault hmodel hcached hcreation hcostEq (le_refl 0)
        (div_nonneg (not_lt.1 hneg) hpromptPos'.le) hlt.ne usage.promptTokens ?_ hpromptPos
        (le_refl _)
      rw [hround]
      exact quotaRound_int _ (by linarith) (by linarith)
  · -- one token has been written, at no price, in place of the completion
    have hcompletion : (0 : ℚ) < usage.completionTokens := by
      have hcompletion := hc.completion
      have hne : usage.completionTokens ≠ 0 := fun hzero => hexact hzero heq
      exact_mod_cast (show 0 < usage.completionTokens by omega)
    have hround : (cost - usage.promptTokens - usage.completionTokens *
        (1 / usage.completionTokens)) / (0 - 1) = (1 : ℤ) := by
      rw [heq]
      field_simp
      norm_num
    refine exists_found_of hunit hdefault hmodel hcached hcreation hcostEq
      (one_div_nonneg.2 hcompletion.le) (le_refl 0) zero_ne_one 1 ?_ one_pos hpromptPos
    rw [hround]
    exact quotaRound_int _ (by norm_num) (by norm_num)
  · -- one token has been written, at a price as high as it must be
    have hround : (cost - usage.promptTokens - usage.completionTokens * 0) /
        (1 + (cost - usage.promptTokens) - 1) = (1 : ℤ) := by
      rw [mul_zero, sub_zero, add_sub_cancel_left, div_self (sub_pos.2 habove).ne', Int.cast_one]
    have hhigher : 1 < 1 + (cost - usage.promptTokens) := by linarith
    refine exists_found_of hunit hdefault hmodel hcached hcreation hcostEq (le_refl 0)
      (zero_le_one.trans hhigher.le) hhigher.ne' 1 ?_ one_pos hpromptPos
    rw [hround]
    exact quotaRound_int _ (by norm_num) (by norm_num)

end Cost

/-! ### The condition is enough -/

theorem expressionWeight_nonneg {kind : RequestKind} {ratios : TextRatios}
    (hratios : ratios.NonNegative) {usage : CostedUsage} (hc : ConsistentUsage kind usage) :
    0 ≤ expressionWeight kind ratios usage := by
  have hcompletion : (0 : ℚ) ≤ usage.completionTokens := by exact_mod_cast hc.completion
  have hcached : (0 : ℚ) ≤ usage.cachedTokens := by exact_mod_cast hc.cached
  have hcreation : (0 : ℚ) ≤ usage.cachedCreationTokens := by exact_mod_cast hc.creation
  have himage : (0 : ℚ) ≤ usage.promptImageTokens := by exact_mod_cast hc.image
  have hcompletionPart := mul_nonneg hratios.completionRatio hcompletion
  have hcachedPart := mul_nonneg hratios.cacheRatio hcached
  have hcreationPart := mul_nonneg hratios.cacheCreationRatio hcreation
  have himagePart := mul_nonneg hratios.imageRatio himage
  by_cases hclaude : kind.isClaude usage
  · have hprompt : (0 : ℚ) ≤ usage.promptTokens := by exact_mod_cast hc.prompt
    have h5m : (0 : ℚ) ≤ usage.claudeCacheCreation5mTokens := by exact_mod_cast hc.creation5m
    have h1h : (0 : ℚ) ≤ usage.claudeCacheCreation1hTokens := by exact_mod_cast hc.creation1h
    have hmultiplier : (0 : ℚ) ≤ claudeCacheCreation1hMultiplier := by
      norm_num [claudeCacheCreation1hMultiplier]
    have hsplitPart : 0 ≤ ratios.cacheCreationRatio * (usage.claudeCacheCreation5mTokens +
        claudeCacheCreation1hMultiplier * usage.claudeCacheCreation1hTokens) :=
      mul_nonneg hratios.cacheCreationRatio (add_nonneg h5m (mul_nonneg hmultiplier h1h))
    rw [expressionWeight_claude hc hclaude]
    split
    · linarith
    · linarith
  · have hparts : (usage.cachedTokens : ℚ) + usage.cachedCreationTokens +
        usage.promptImageTokens ≤ usage.promptTokens := by exact_mod_cast hc.parts hclaude
    rw [expressionWeight_plain hc hclaude]
    linarith

theorem weights_eq {kind : RequestKind} (hunit : 0 < kind.quotaPerUnit) {ratios : TextRatios}
    (hratios : ratios.NonNegative)
    {usage : CostedUsage} (hc : ConsistentUsage kind usage) (h : CountedAlike kind usage)
    (htotal : usage.promptTokens + usage.completionTokens ≠ 0) :
    ratioWeight kind ratios usage = expressionWeight kind ratios usage := by
  by_cases hclaude : kind.isClaude usage
  · obtain ⟨himage, htagged, -, hrouter⟩ := h.1 hclaude
    -- nothing is found out, and nothing is taken out of the prompt
    have hfound : foundCreation kind ratios usage = usage.cachedCreationTokens ∧
        (kind.isOpenRouter = true → usage.cachedTokens = 0 ∧ usage.cachedCreationTokens = 0) := by
      by_cases hopen : kind.isOpenRouter = true
      · obtain ⟨hcached, hcreation, hnothing⟩ := hrouter hopen
        refine ⟨?_, fun _ => ⟨hcached, hcreation⟩⟩
        rw [foundCreation, if_pos hopen,
          hnothing.openRouterCacheCreation hunit hratios hc hcached hcreation, hcreation]
      · exact ⟨by rw [foundCreation, if_neg hopen], fun h => absurd h hopen⟩
    have htaken : (if kind.isOpenRouter = true then
        ((usage.cachedTokens + usage.cachedCreationTokens : ℤ) : ℚ) else 0) = 0 := by
      split
      · rename_i hopen
        rw [(hfound.2 hopen).1, (hfound.2 hopen).2]
        rfl
      · rfl
    have hsplit : (usage.claudeCacheCreation5mTokens : ℚ) + usage.claudeCacheCreation1hTokens =
        usage.cachedCreationTokens := by exact_mod_cast hc.split hclaude
    rw [ratioWeight_claude hc hclaude, expressionWeight_claude hc hclaude, hfound.1, htaken, himage]
    by_cases hmark : usage.usageSemantic = "anthropic"
    · rw [if_pos hmark]
      push_cast
      ring
    · have h1h : usage.claudeCacheCreation1hTokens = 0 := htagged.resolve_left hmark
      rw [h1h] at hsplit ⊢
      rw [if_neg hmark, ← hsplit]
      push_cast
      ring
  · have hlegacy := (@legacy_iff kind ratios usage hclaude hc).2 (h.2 hclaude htotal)
    rw [ratioWeight_plain hclaude hlegacy, expressionWeight_plain hc hclaude]
    ring

/-- A usage without a prompt and a completion is charged nothing by either. -/
theorem within_of_none {kind : RequestKind} (hunit : 0 < kind.quotaPerUnit) (ratios : TextRatios)
    {usage : CostedUsage} (hc : ConsistentUsage kind usage) (h : CountedAlike kind usage)
    (htotal : usage.promptTokens + usage.completionTokens = 0) : Within kind ratios usage := by
  have hprompt := hc.prompt
  have hcompletion := hc.completion
  have hweight : expressionWeight kind ratios usage = 0 := by
    have hp : usage.promptTokens = 0 := by omega
    have hcomp : usage.completionTokens = 0 := by omega
    by_cases hclaude : kind.isClaude usage
    · obtain ⟨himage, -, hnone, -⟩ := h.1 hclaude
      obtain ⟨hcached, hcreation⟩ := hnone htotal
      have hsplit := hc.split hclaude
      have h5m := hc.creation5m
      have h1h := hc.creation1h
      have h5mZero : usage.claudeCacheCreation5mTokens = 0 := by omega
      have h1hZero : usage.claudeCacheCreation1hTokens = 0 := by omega
      rw [expressionWeight_claude hc hclaude, hp, hcomp, himage, hcached, hcreation, h5mZero,
        h1hZero]
      simp
    · have hparts := hc.parts hclaude
      have hcached := hc.cached
      have hcreation := hc.creation
      have himage := hc.image
      have hcachedZero : usage.cachedTokens = 0 := by omega
      have hcreationZero : usage.cachedCreationTokens = 0 := by omega
      have himageZero : usage.promptImageTokens = 0 := by omega
      rw [expressionWeight_plain hc hclaude, hp, hcomp, hcachedZero, hcreationZero, himageZero]
      simp
  rw [Within, ratioQuota, calculateTextQuota_of_none htotal, expressionQuota_eq hunit, hweight,
    zero_mul]
  rw [quotaRound_zero]
  decide

/-! ### The condition is necessary -/

section Necessary

variable {kind : RequestKind} {usage : CostedUsage}

/-- Ratios by which a model, its group, its cache and its images are priced. -/
def flatRatios (cacheRatio cacheCreationRatio imageRatio : ℚ) : TextRatios where
  modelRatio := 1
  completionRatio := 0
  cacheRatio := cacheRatio
  cacheCreationRatio := cacheCreationRatio
  imageRatio := imageRatio
  groupRatio := 1

theorem flatRatios_nonNegative {cacheRatio cacheCreationRatio imageRatio : ℚ}
    (hcache : 0 ≤ cacheRatio) (hcreation : 0 ≤ cacheCreationRatio) (himage : 0 ≤ imageRatio) :
    (flatRatios cacheRatio cacheCreationRatio imageRatio).NonNegative :=
  ⟨zero_le_one, le_refl 0, hcache, hcreation, himage, zero_le_one⟩

/-- The cache of Claude's usage, priced like the prompt, is at least what the expression weighs. -/
theorem le_expressionWeight (hc : ConsistentUsage kind usage) (hclaude : kind.isClaude usage) :
    (usage.promptTokens : ℚ) + usage.cachedTokens + usage.cachedCreationTokens ≤
      expressionWeight kind (flatRatios 1 1 0) usage := by
  have h1h : (0 : ℚ) ≤ usage.claudeCacheCreation1hTokens := by exact_mod_cast hc.creation1h
  have hsplit : (usage.claudeCacheCreation5mTokens : ℚ) + usage.claudeCacheCreation1hTokens =
      usage.cachedCreationTokens := by exact_mod_cast hc.split hclaude
  rw [expressionWeight_claude hc hclaude, ← hsplit]
  simp only [flatRatios, claudeCacheCreation1hMultiplier]
  split
  · linarith
  · linarith

variable (hunit : 0 < kind.quotaPerUnit) (hc : ConsistentUsage kind usage)
  (hall : ∀ ratios : TextRatios, ratios.NonNegative → Within kind ratios usage)

include hunit hc hall

/-- Only the expression leaves the images in the prompt of Claude's usage. -/
theorem image_zero (hclaude : kind.isClaude usage) : usage.promptImageTokens = 0 := by
  by_contra hne
  have hprompt : (0 : ℚ) ≤ usage.promptTokens := by exact_mod_cast hc.prompt
  have hcached := hc.cached
  have himage : (0 : ℚ) < usage.promptImageTokens := by
    have himage := hc.image
    exact_mod_cast (show 0 < usage.promptImageTokens by omega)
  have hratios := @flatRatios_nonNegative 0 0 1 (le_refl 0) (le_refl 0) zero_le_one
  have hfound := @foundCreation_nonneg kind (flatRatios 0 0 1) usage hc.creation
  have htaken : (0 : ℚ) ≤ if kind.isOpenRouter = true then
      ((usage.cachedTokens + foundCreation kind (flatRatios 0 0 1) usage : ℤ) : ℚ) else 0 := by
    split
    · exact_mod_cast (show 0 ≤ usage.cachedTokens +
        foundCreation kind (flatRatios 0 0 1) usage by omega)
    · exact le_refl 0
  have hexpression : expressionWeight kind (flatRatios 0 0 1) usage =
      usage.promptTokens + usage.promptImageTokens := by
    rw [expressionWeight_claude hc hclaude]
    simp [flatRatios]
  have hratio : ratioWeight kind (flatRatios 0 0 1) usage ≤ usage.promptTokens := by
    rw [ratioWeight_claude hc hclaude]
    simp only [flatRatios, mul_zero, zero_mul, mul_one, add_zero] at htaken ⊢
    linarith
  obtain ⟨ratios, hnonneg, hfar⟩ := exists_not_within hunit hratios zero_lt_one
    (.inl ⟨by rw [hexpression]; linarith, by rw [hexpression]; linarith⟩)
  exact hfar (hall ratios hnonneg)

/-- Only the settlement by ratios has a price for an hour, where the usage is not marked. -/
theorem creation1h_zero (hclaude : kind.isClaude usage)
    (hmark : usage.usageSemantic ≠ "anthropic") : usage.claudeCacheCreation1hTokens = 0 := by
  by_contra hne
  have himage := image_zero hunit hc hall hclaude
  have hprompt : (0 : ℚ) ≤ usage.promptTokens := by exact_mod_cast hc.prompt
  have hcached : (0 : ℚ) ≤ usage.cachedTokens := by exact_mod_cast hc.cached
  have h5m : (0 : ℚ) ≤ usage.claudeCacheCreation5mTokens := by exact_mod_cast hc.creation5m
  have h1h : (0 : ℚ) < usage.claudeCacheCreation1hTokens := by
    have h1h := hc.creation1h
    exact_mod_cast (show 0 < usage.claudeCacheCreation1hTokens by omega)
  have hsplit : (usage.claudeCacheCreation5mTokens : ℚ) + usage.claudeCacheCreation1hTokens =
      usage.cachedCreationTokens := by exact_mod_cast hc.split hclaude
  have hratios := @flatRatios_nonNegative 0 1 0 (le_refl 0) zero_le_one (le_refl 0)
  have hfound := @foundCreation_of_one kind (flatRatios 0 1 0) usage rfl
  have hexpression : expressionWeight kind (flatRatios 0 1 0) usage =
      usage.promptTokens + usage.claudeCacheCreation5mTokens +
        usage.claudeCacheCreation1hTokens := by
    rw [expressionWeight_claude hc hclaude, if_neg hmark, ← hsplit]
    simp only [flatRatios]
    ring
  have hpositive : 0 < expressionWeight kind (flatRatios 0 1 0) usage := by
    rw [hexpression]
    linarith
  have hratio := @ratioWeight_claude kind (flatRatios 0 1 0) usage hc hclaude
  rw [hfound, himage] at hratio
  simp only [flatRatios, claudeCacheCreation1hMultiplier] at hratio
  have hfar : ratioWeight kind (flatRatios 0 1 0) usage <
        expressionWeight kind (flatRatios 0 1 0) usage ∨
      expressionWeight kind (flatRatios 0 1 0) usage <
        ratioWeight kind (flatRatios 0 1 0) usage := by
    by_cases hopen : kind.isOpenRouter = true
    · rw [if_pos hopen] at hratio
      left
      rw [hexpression]
      unfold flatRatios
      rw [hratio]
      push_cast
      linarith
    · rw [if_neg hopen] at hratio
      right
      rw [hexpression]
      unfold flatRatios
      rw [hratio]
      push_cast
      linarith
  obtain ⟨ratios, hnonneg, hnot⟩ : ∃ ratios : TextRatios, ratios.NonNegative ∧
      ¬ Within kind ratios usage := by
    apply exists_not_within hunit hratios zero_lt_one
    by_cases htotal : usage.promptTokens + usage.completionTokens = 0
    · exact .inr (.inr ⟨htotal, hpositive⟩)
    · obtain hless | hmore := hfar
      · exact .inl ⟨hless, hpositive⟩
      · exact .inr (.inl ⟨hmore, htotal⟩)
  exact hnot (hall ratios hnonneg)

/-- Only the expression charges for a cache without a prompt and a completion. -/
theorem nothing_of_none (hclaude : kind.isClaude usage)
    (htotal : usage.promptTokens + usage.completionTokens = 0) :
    usage.cachedTokens = 0 ∧ usage.cachedCreationTokens = 0 := by
  by_contra hany
  have hcached := hc.cached
  have hcreation := hc.creation
  have hprompt := hc.prompt
  have hpositive : (0 : ℚ) < usage.promptTokens + usage.cachedTokens +
      usage.cachedCreationTokens := by
    exact_mod_cast (show 0 < usage.promptTokens + usage.cachedTokens +
      usage.cachedCreationTokens by omega)
  have hle := le_expressionWeight hc hclaude
  have hratios := @flatRatios_nonNegative 1 1 0 zero_le_one zero_le_one (le_refl 0)
  obtain ⟨ratios, hnonneg, hnot⟩ := exists_not_within hunit hratios zero_lt_one
    (.inr (.inr ⟨htotal, hpositive.trans_le hle⟩))
  exact hnot (hall ratios hnonneg)

/-- Only the settlement by ratios takes the cache out of the prompt, from OpenRouter. -/
theorem nothing_of_router (hclaude : kind.isClaude usage) (hopen : kind.isOpenRouter = true) :
    usage.cachedTokens = 0 ∧ usage.cachedCreationTokens = 0 := by
  have himage := image_zero hunit hc hall hclaude
  have hmark : usage.usageSemantic ≠ "anthropic" → usage.claudeCacheCreation1hTokens = 0 :=
    creation1h_zero hunit hc hall hclaude
  by_contra hany
  have hcached := hc.cached
  have hcreation := hc.creation
  have hpositive : (0 : ℚ) < usage.cachedTokens + usage.cachedCreationTokens := by
    exact_mod_cast (show 0 < usage.cachedTokens + usage.cachedCreationTokens by omega)
  have hprompt : (0 : ℚ) ≤ usage.promptTokens := by exact_mod_cast hc.prompt
  have h1h : (0 : ℚ) ≤ usage.claudeCacheCreation1hTokens := by exact_mod_cast hc.creation1h
  have hsplit : (usage.claudeCacheCreation5mTokens : ℚ) + usage.claudeCacheCreation1hTokens =
      usage.cachedCreationTokens := by exact_mod_cast hc.split hclaude
  have hratios := @flatRatios_nonNegative 1 1 0 zero_le_one zero_le_one (le_refl 0)
  have hfound := @foundCreation_of_one kind (flatRatios 1 1 0) usage rfl
  have hexpression : expressionWeight kind (flatRatios 1 1 0) usage =
      usage.promptTokens + usage.cachedTokens + usage.claudeCacheCreation5mTokens +
        claudeCacheCreation1hMultiplier * usage.claudeCacheCreation1hTokens := by
    rw [expressionWeight_claude hc hclaude, himage, ← hsplit]
    simp only [flatRatios]
    split
    · ring
    · rename_i hplain
      rw [hmark hplain]
      push_cast
      ring
  have hratio : ratioWeight kind (flatRatios 1 1 0) usage =
      expressionWeight kind (flatRatios 1 1 0) usage -
        (usage.cachedTokens + usage.cachedCreationTokens) := by
    rw [hexpression, ratioWeight_claude hc hclaude, hfound, himage, if_pos hopen]
    simp only [flatRatios]
    push_cast
    ring
  have hlarge : 0 < expressionWeight kind (flatRatios 1 1 0) usage :=
    (add_pos_of_nonneg_of_pos hprompt hpositive).trans_le (by
      have hle := le_expressionWeight hc hclaude
      linarith)
  obtain ⟨ratios, hnonneg, hnot⟩ := exists_not_within hunit hratios zero_lt_one
    (.inl ⟨by rw [hratio]; linarith, hlarge⟩)
  exact hnot (hall ratios hnonneg)

/-- Only the settlement by ratios prices what it has found out. -/
theorem nothingFound_of_router (hclaude : kind.isClaude usage)
    (hopen : kind.isOpenRouter = true) : NothingFound kind usage := by
  have himage := image_zero hunit hc hall hclaude
  obtain ⟨hcached, hcreation⟩ := nothing_of_router hunit hc hall hclaude hopen
  by_contra hsome
  obtain ⟨ratios, hratios, hmodel, hone, hne⟩ :=
    exists_found hsome hunit hc hcached hcreation
  have hprompt : 0 < usage.promptTokens := by
    have hprompt := hc.prompt
    by_contra hnone
    exact hsome fun _ _ _ => .inl (by omega)
  have hprompt' : (0 : ℚ) < usage.promptTokens := by exact_mod_cast hprompt
  have hcompletion : (0 : ℚ) ≤ ratios.completionRatio * usage.completionTokens :=
    mul_nonneg hratios.completionRatio (by exact_mod_cast hc.completion)
  have hfound := @foundCreation_nonneg kind ratios usage hc.creation
  have hfoundNe : foundCreation kind ratios usage ≠ 0 := by
    rw [foundCreation, if_pos hopen]
    exact hne
  have hfoundPos : (0 : ℚ) < foundCreation kind ratios usage := by
    exact_mod_cast (show 0 < foundCreation kind ratios usage by omega)
  have hsplit := hc.split hclaude
  have h5m := hc.creation5m
  have h1h := hc.creation1h
  have h5mZero : usage.claudeCacheCreation5mTokens = 0 := by omega
  have h1hZero : usage.claudeCacheCreation1hTokens = 0 := by omega
  have hexpression : expressionWeight kind ratios usage =
      usage.promptTokens + ratios.completionRatio * usage.completionTokens := by
    rw [expressionWeight_claude hc hclaude, himage, hcached, hcreation, h5mZero, h1hZero]
    simp
  have hratio : ratioWeight kind ratios usage = expressionWeight kind ratios usage +
      foundCreation kind ratios usage * (ratios.cacheCreationRatio - 1) := by
    rw [hexpression, ratioWeight_claude hc hclaude, himage, hcached, hcreation, h5mZero, h1hZero,
      if_pos hopen]
    push_cast
    ring
  have hfar : ∃ ratios : TextRatios, ratios.NonNegative ∧ ¬ Within kind ratios usage := by
    apply exists_not_within hunit hratios hmodel
    obtain hless | hmore := lt_or_gt_of_ne hone
    · have hneg := mul_neg_of_pos_of_neg hfoundPos (sub_neg.2 hless)
      exact .inl ⟨by linarith, by rw [hexpression]; linarith⟩
    · have hpos := mul_pos hfoundPos (sub_pos.2 hmore)
      have hcompletion' := hc.completion
      exact .inr (.inl ⟨by linarith, by omega⟩)
  obtain ⟨ratios', hnonneg, hnot⟩ := hfar
  exact hnot (hall ratios' hnonneg)

/-- Only the settlement by ratios takes a usage with a split for Claude's. -/
theorem marked_of_plain (hplain : ¬ kind.isClaude usage)
    (htotal : usage.promptTokens + usage.completionTokens ≠ 0) :
    usage.usageSource ≠ "" ∨ usage.usageSemantic ≠ "" ∨
      (usage.claudeCacheCreation5mTokens = 0 ∧ usage.claudeCacheCreation1hTokens = 0) := by
  have hiff := @legacy_iff kind (flatRatios 1 1 1) usage hplain hc
  by_contra hnot
  have hlegacy : isLegacyClaudeDerivedOpenAIUsage
      ((flatRatios 1 1 1).pricing kind).toTextPricing usage = true := by
    rw [← hiff, Bool.not_eq_false] at hnot
    exact hnot
  push Not at hnot
  have h5m := hc.creation5m
  have h1h := hc.creation1h
  have hsplit : 0 < usage.claudeCacheCreation5mTokens ∨ 0 < usage.claudeCacheCreation1hTokens := by
    by_cases hzero : usage.claudeCacheCreation5mTokens = 0
    · have hne := hnot.2.2 hzero
      omega
    · omega
  obtain ⟨remaining, hremaining, hratio⟩ :=
    @ratioWeight_legacy kind (flatRatios 1 1 1) usage hplain hlegacy hsplit
  have hexpression := @expressionWeight_plain kind (flatRatios 1 1 1) usage hc hplain
  have hratios := @flatRatios_nonNegative 1 1 1 zero_le_one zero_le_one zero_le_one
  have hpositive : (0 : ℚ) < usage.claudeCacheCreation5mTokens +
      claudeCacheCreation1hMultiplier * usage.claudeCacheCreation1hTokens := by
    have h5m' : (0 : ℚ) ≤ usage.claudeCacheCreation5mTokens := by exact_mod_cast h5m
    have h1h' : (0 : ℚ) ≤ usage.claudeCacheCreation1hTokens := by exact_mod_cast h1h
    have hsum : (0 : ℚ) < usage.claudeCacheCreation5mTokens +
        usage.claudeCacheCreation1hTokens := by
      exact_mod_cast (show 0 < usage.claudeCacheCreation5mTokens +
        usage.claudeCacheCreation1hTokens by omega)
    simp only [claudeCacheCreation1hMultiplier]
    linarith
  have hremaining' : (0 : ℚ) ≤ remaining := by exact_mod_cast hremaining
  have hcached : (0 : ℚ) ≤ usage.cachedTokens := by exact_mod_cast hc.cached
  have hcreation : (0 : ℚ) ≤ usage.cachedCreationTokens := by exact_mod_cast hc.creation
  have himage : (0 : ℚ) ≤ usage.promptImageTokens := by exact_mod_cast hc.image
  have hmore : expressionWeight kind (flatRatios 1 1 1) usage <
      ratioWeight kind (flatRatios 1 1 1) usage := by
    rw [hratio, hexpression]
    simp only [flatRatios]
    linarith
  obtain ⟨ratios, hnonneg, hfar⟩ := exists_not_within hunit hratios zero_lt_one
    (.inr (.inl ⟨hmore, htotal⟩))
  exact hfar (hall ratios hnonneg)

end Necessary

/-! ### The two prices agree -/

/-- **The settlement by ratios and the settlement by the expression charge the same for all ratios,
up to one unit, exactly if they count the usage alike.** -/
theorem ratio_and_expression_agree {kind : RequestKind} {usage : CostedUsage}
    (hunit : 0 < kind.quotaPerUnit) (hc : ConsistentUsage kind usage) :
    (∀ ratios : TextRatios, ratios.NonNegative → Within kind ratios usage) ↔
      CountedAlike kind usage := by
  constructor
  · intro hall
    refine ⟨fun hclaude => ⟨image_zero hunit hc hall hclaude, ?_,
      nothing_of_none hunit hc hall hclaude, fun hopen => ?_⟩,
      marked_of_plain hunit hc hall⟩
    · by_cases hmark : usage.usageSemantic = "anthropic"
      · exact .inl hmark
      · exact .inr (creation1h_zero hunit hc hall hclaude hmark)
    · obtain ⟨hcached, hcreation⟩ := nothing_of_router hunit hc hall hclaude hopen
      exact ⟨hcached, hcreation, nothingFound_of_router hunit hc hall hclaude hopen⟩
  · intro halike ratios hratios
    by_cases htotal : usage.promptTokens + usage.completionTokens = 0
    · exact within_of_none hunit ratios hc halike htotal
    · exact within_of_eq hunit hratios htotal (weights_eq hunit hratios hc halike htotal)
        (expressionWeight_nonneg hratios hc)

/-- A request in Claude's format. -/
def claudeKind (isOpenRouter : Bool) : RequestKind where
  isClaudeFormat := true
  isOpenRouter := isOpenRouter
  defaultModelRatio := some (3 / 2)
  quotaPerUnit := 500000

/-- A usage with 1000 tokens read from a cache; of those that are written to one, some are kept for
an hour. -/
def cachedClaudeUsage : CostedUsage where
  promptTokens := 2000
  completionTokens := 500
  cachedTokens := 1000
  cachedCreationTokens := 300
  promptImageTokens := 0
  promptAudioTokens := 0
  completionImageTokens := 0
  completionAudioTokens := 0
  usageSemantic := "anthropic"
  claudeCacheCreation5mTokens := 200
  claudeCacheCreation1hTokens := 100

/-- The ratios of a model whose cached tokens cost a tenth. -/
def cachedRatios : TextRatios where
  modelRatio := 2
  completionRatio := 5
  cacheRatio := 1 / 10
  cacheCreationRatio := 5 / 4
  imageRatio := 1
  groupRatio := 1

theorem ratio_and_expression_agree_cached :
    Within (claudeKind false) cachedRatios cachedClaudeUsage := by
  have hc : ConsistentUsage (claudeKind false) cachedClaudeUsage := by
    refine ⟨?_, ?_, ?_, ?_, ?_, ?_, ?_, fun _ => by decide, fun h => absurd (.inl rfl) h⟩
      <;> decide
  have hratios : cachedRatios.NonNegative := by constructor <;> decide +kernel
  refine (ratio_and_expression_agree (by decide) hc).2 ⟨fun _ => ?_, fun h => ?_⟩
    cachedRatios hratios
  · exact ⟨rfl, .inl rfl, fun h => absurd h (by decide), fun h => absurd h (by decide)⟩
  · exact absurd (.inl rfl) h

/-- A usage that OpenRouter has reported: most of the prompt has been read from a cache. -/
def routerUsage : CostedUsage :=
  { cachedClaudeUsage with
    promptTokens := 2604
    completionTokens := 383
    cachedTokens := 2432
    cachedCreationTokens := 0
    usageSemantic := ""
    claudeCacheCreation5mTokens := 0
    claudeCacheCreation1hTokens := 0 }

def routerRatios : TextRatios :=
  { cachedRatios with
    modelRatio := 1
    completionRatio := 1 }

/-- **The expression prices the tokens that have been read from OpenRouter's cache as tokens of the
prompt too.** -/
theorem router_cache_priced_twice :
    ConsistentUsage (claudeKind true) routerUsage ∧ routerRatios.NonNegative ∧
      ratioQuota (claudeKind true) routerRatios routerUsage = 798 ∧
      expressionQuota (claudeKind true) routerRatios routerUsage = 3230 ∧
      ¬ Within (claudeKind true) routerRatios routerUsage := by
  have hratio : ratioQuota (claudeKind true) routerRatios routerUsage = 798 := by decide +kernel
  have hexpression : expressionQuota (claudeKind true) routerRatios routerUsage = 3230 := by
    decide +kernel
  refine ⟨?_, by constructor <;> decide +kernel, hratio, hexpression, ?_⟩
  · refine ⟨?_, ?_, ?_, ?_, ?_, ?_, ?_, fun _ => by decide, fun h => absurd (.inr ⟨rfl, rfl⟩) h⟩
      <;> decide
  · rw [Within, hratio, hexpression]
    decide

end NewApi
