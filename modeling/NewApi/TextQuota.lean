/-
**The quota of a text request, by its tokens.**

The settlement by ratios takes the tokens that have ratios of their own out of the prompt, prices
them, and adds the completion and what the tools have cost.  Nothing says that the tokens that are
taken out have been part of the prompt: a channel may report more tokens read from a cache than
tokens of the prompt, and then the rest of the prompt is negative and is set off against the
completion and the tools.

Main definitions:

* `NewApi.TextQuotaPricing` — the ratios and prices of a request;
* `NewApi.calculateTextQuota64`, `NewApi.calculateTextQuota` — the quota of a usage, as 64 bits and
  without bounds;
* `NewApi.promptCost` — what the prompt adds to it;
* `NewApi.CoversCompletion` — the quota is at least what the completion and the tools cost.

Main results:

* `NewApi.calculateTextQuota_eq` — the quota in terms of the tokens weighted by their ratios;
* `NewApi.usage_buys_no_discount` — **a quota that fits is not negative; it covers the completion and
  the tools, whatever these cost, exactly if the prompt adds something; and it grows with the
  completion**;
* `NewApi.cached_tokens_discount` — a usage that pays nothing for its completion.
-/

import NewApi.TieredTokens

set_option autoImplicit false

namespace NewApi

/-! ### The quota of a usage -/

/-- What a request is priced by: the ratios of its model and its group, its other ratios, and the
prices of a million audio tokens and of the calls of its tools. -/
structure TextQuotaPricing extends TextPricing where
  imageRatio : ℚ
  groupRatio : ℚ
  modelPrice : ℚ
  otherRatios : List ℚ
  audioInputPrice : ℚ
  toolPrice : ℚ
deriving DecidableEq

/-- The ratio of the model and of the group. -/
def TextQuotaPricing.ratio (pricing : TextQuotaPricing) : ℚ :=
  pricing.modelRatio * pricing.groupRatio

def toolCallSurcharge (pricing : TextQuotaPricing) : ℚ :=
  pricing.toolPrice * pricing.groupRatio * pricing.quotaPerUnit

/-- What is left of the prompt. -/
def TextQuotaTokens.baseTokens (pricing : TextQuotaPricing) (usage : CostedUsage)
    (tokens : TextQuotaTokens) : ℤ :=
  let inclusive := tokens.isClaudeUsageSemantic = false ∧ tokens.legacyClaudeDerived = false
  let hasSplitCacheCreationTokens :=
    0 < tokens.cacheCreationTokens5m ∨ 0 < tokens.cacheCreationTokens1h
  let baseTokens := tokens.promptTokens
  let baseTokens :=
    if tokens.cacheTokens ≠ 0 ∧ inclusive then baseTokens - tokens.cacheTokens else baseTokens
  let baseTokens :=
    if (tokens.cacheCreationTokens ≠ 0 ∨ hasSplitCacheCreationTokens) ∧ inclusive then
      baseTokens - tokens.cacheCreationTokens
    else baseTokens
  let baseTokens :=
    if usage.promptImageTokens ≠ 0 then baseTokens - usage.promptImageTokens else baseTokens
  if usage.promptAudioTokens ≠ 0 ∧ 0 < pricing.audioInputPrice then
    baseTokens - usage.promptAudioTokens
  else baseTokens

/-- The tokens of the prompt, weighted by their ratios. -/
def promptTokensWithRatio (pricing : TextQuotaPricing) (usage : CostedUsage) : ℚ :=
  let tokens := textQuotaTokens pricing.toTextPricing usage
  let cachedTokensWithRatio := tokens.cacheTokens * pricing.cacheRatio
  let imageTokensWithRatio := usage.promptImageTokens * pricing.imageRatio
  let cachedCreationTokensWithRatio :=
    ((tokens.pricedCacheCreation pricing.toTextPricing).map fun priced =>
      (priced.1 : ℚ) * priced.2).sum
  tokens.baseTokens pricing usage + cachedTokensWithRatio + imageTokensWithRatio +
    cachedCreationTokensWithRatio

def completionTokensWithRatio (pricing : TextQuotaPricing) (usage : CostedUsage) : ℚ :=
  usage.completionTokens * pricing.completionRatio

def audioInputQuota (pricing : TextQuotaPricing) (usage : CostedUsage) : ℚ :=
  if usage.promptAudioTokens ≠ 0 ∧ 0 < pricing.audioInputPrice then
    pricing.audioInputPrice / 1000000 * usage.promptAudioTokens * pricing.groupRatio *
      pricing.quotaPerUnit
  else 0

/-- The total, rounded to a whole number. -/
def roundedTextQuota (pricing : TextQuotaPricing) (usage : CostedUsage) : ℤ :=
  if pricing.usePrice then
    quotaRound ((pricing.modelPrice * pricing.quotaPerUnit * pricing.groupRatio +
      toolCallSurcharge pricing) * pricing.otherRatios.prod)
  else
    let promptQuota := promptTokensWithRatio pricing usage
    let completionQuota := completionTokensWithRatio pricing usage
    let quotaCalculate :=
      ((promptQuota + completionQuota) * pricing.ratio + toolCallSurcharge pricing +
        audioInputQuota pricing usage) * pricing.otherRatios.prod
    quotaRound (if pricing.ratio ≠ 0 ∧ quotaCalculate ≤ 0 then 1 else quotaCalculate)

/-- The quota that is left of a total: none without tokens, and else at least one if there is a
ratio. -/
def TextQuotaPricing.atLeastOne (pricing : TextQuotaPricing) (usage : CostedUsage) (quota : ℤ) : ℤ :=
  if usage.promptTokens + usage.completionTokens = 0 then 0
  else if pricing.ratio ≠ 0 ∧ quota = 0 then 1
  else quota

/-- The quota of `calculateTextQuotaSummary`, of which the low 64 bits are kept. -/
def calculateTextQuota64 (pricing : TextQuotaPricing) (usage : CostedUsage) : ℤ :=
  pricing.atLeastOne usage (wrap64 (roundedTextQuota pricing usage))

/-- The same without bounds. -/
def calculateTextQuota (pricing : TextQuotaPricing) (usage : CostedUsage) : ℤ :=
  pricing.atLeastOne usage (roundedTextQuota pricing usage)

/-- The total fits into 63 bits, if it counts. -/
def QuotaFits (pricing : TextQuotaPricing) (usage : CostedUsage) : Prop :=
  usage.promptTokens + usage.completionTokens = 0 ∨ roundedTextQuota pricing usage < 2 ^ 63

/-- The pricing of a request, as it is kept with it. -/
def TextQuotaPricing.relayPricing (pricing : TextQuotaPricing) (info : RelayPricing) :
    RelayPricing :=
  { info with
    priceData :=
      { info.priceData with
        modelPrice := pricing.modelPrice
        modelRatio := pricing.modelRatio
        usePrice := pricing.usePrice
        otherRatios := pricing.otherRatios
        groupRatioInfo := { info.priceData.groupRatioInfo with
          groupRatio := pricing.groupRatio } } }

/-- What the quota depends on: the weighted tokens, their number, and the prices of the tools and of
the audio. -/
def TextQuotaPricing.textUsage (pricing : TextQuotaPricing) (usage : CostedUsage) : TextUsage where
  weightedTokens := promptTokensWithRatio pricing usage + completionTokensWithRatio pricing usage
  totalTokens := usage.promptTokens + usage.completionTokens
  toolPrice := pricing.toolPrice
  audioPrice :=
    if usage.promptAudioTokens ≠ 0 ∧ 0 < pricing.audioInputPrice then
      pricing.audioInputPrice / 1000000 * usage.promptAudioTokens
    else 0
  exprCost := none

/-- **The quota is the one of the weighted tokens.** -/
theorem calculateTextQuota_eq (pricing : TextQuotaPricing) (usage : CostedUsage)
    (info : RelayPricing) (enableFreeModelPreConsume : Bool) :
    calculateTextQuota pricing usage =
      (calculateTextQuotaSummary ⟨pricing.quotaPerUnit, enableFreeModelPreConsume⟩
        (pricing.relayPricing info) (pricing.textUsage usage)).2 := by
  have haudio : audioInputQuota pricing usage =
      (pricing.textUsage usage).audioPrice * pricing.groupRatio * pricing.quotaPerUnit := by
    simp only [audioInputQuota, TextQuotaPricing.textUsage]
    split
    · rfl
    · simp
  simp only [calculateTextQuota, TextQuotaPricing.atLeastOne, roundedTextQuota,
    calculateTextQuotaSummary, haudio]
  rfl

/-! ### What the parts of the quota are -/

structure TextQuotaPricing.NonNegative (pricing : TextQuotaPricing) : Prop where
  modelRatio : 0 ≤ pricing.modelRatio
  groupRatio : 0 ≤ pricing.groupRatio
  completionRatio : 0 ≤ pricing.completionRatio
  modelPrice : 0 ≤ pricing.modelPrice
  audioInputPrice : 0 ≤ pricing.audioInputPrice
  toolPrice : 0 ≤ pricing.toolPrice
  quotaPerUnit : 0 < pricing.quotaPerUnit
  otherRatios : ∀ r ∈ pricing.otherRatios, 1 ≤ r

/-- No count of a usage is negative. -/
structure CostedUsage.NonNegative (usage : CostedUsage) : Prop where
  prompt : 0 ≤ usage.promptTokens
  completion : 0 ≤ usage.completionTokens
  audio : 0 ≤ usage.promptAudioTokens

/-- What the prompt adds to the quota, before the other ratios. -/
def promptCost (pricing : TextQuotaPricing) (usage : CostedUsage) : ℚ :=
  promptTokensWithRatio pricing usage * pricing.ratio + audioInputQuota pricing usage

/-- What the completion costs; a request that is billed by its price pays nothing for it. -/
def completionCost (pricing : TextQuotaPricing) (usage : CostedUsage) : ℚ :=
  if pricing.usePrice then 0 else completionTokensWithRatio pricing usage * pricing.ratio

/-- The quota is at least the rounded cost of the completion and of the tools. -/
def CoversCompletion (pricing : TextQuotaPricing) (usage : CostedUsage) : Prop :=
  quotaRound (completionCost pricing usage + toolCallSurcharge pricing) ≤
    calculateTextQuota64 pricing usage

/-- Tokens written to a cache are found out from what the request has cost: the number that follows
from it is one that the prompt has room for. -/
def CacheCreationEstimated (pricing : TextQuotaPricing) (usage : CostedUsage) : Prop :=
  (pricing.isOpenRouter = true ∧
    usageSemanticFromUsage pricing.toTextPricing usage = "anthropic" ∧
    usage.cachedCreationTokens = 0 ∧ pricing.cacheCreationRatio ≠ 1 ∧
    pricing.usePrice = false ∧ pricing.hasCustomModelRatio = false) ∧
    0 < calcOpenRouterCacheCreateTokens usage pricing.toTextPricing ∧
    calcOpenRouterCacheCreateTokens usage pricing.toTextPricing ≤
      usage.promptTokens - usage.cachedTokens

/-- The exact quota of a request that is billed by ratios. -/
def exactQuota (pricing : TextQuotaPricing) (usage : CostedUsage) : ℚ :=
  (promptCost pricing usage + completionCost pricing usage + toolCallSurcharge pricing) *
    pricing.otherRatios.prod

/-- The quota that is charged for an exact one: at least one, where there is a ratio. -/
def chargedQuota (ratio exact : ℚ) : ℤ := if ratio = 0 then quotaRound exact
  else max 1 (quotaRound exact)

theorem quotaRound_zero : quotaRound 0 = 0 := by norm_num [quotaRound]

theorem quotaRound_one : quotaRound 1 = 1 := by norm_num [quotaRound]

theorem quotaRound_le_chargedQuota (ratio exact : ℚ) :
    quotaRound exact ≤ chargedQuota ratio exact := by
  unfold chargedQuota
  split
  · exact le_refl _
  · exact le_max_right _ _

theorem chargedQuota_mono (ratio : ℚ) {x y : ℚ} (h : x ≤ y) :
    chargedQuota ratio x ≤ chargedQuota ratio y := by
  have hround := quotaRound_mono h
  unfold chargedQuota
  split
  · exact hround
  · exact max_le_max (le_refl 1) hround

/-- The number is raised to one before it is rounded, and the quota after. -/
theorem chargedQuota_eq (ratio exact : ℚ) :
    (if ratio ≠ 0 ∧ quotaRound (if ratio ≠ 0 ∧ exact ≤ 0 then 1 else exact) = 0 then 1
      else quotaRound (if ratio ≠ 0 ∧ exact ≤ 0 then 1 else exact)) = chargedQuota ratio exact := by
  unfold chargedQuota
  by_cases hratio : ratio = 0
  · rw [if_pos hratio, if_neg fun h => h.1 hratio, if_neg fun h => h.1 hratio]
  rw [if_neg hratio]
  by_cases hexact : exact ≤ 0
  · have hround := quotaRound_mono hexact
    have hraised : (if ratio ≠ 0 ∧ exact ≤ 0 then 1 else exact) = 1 := if_pos ⟨hratio, hexact⟩
    rw [quotaRound_zero] at hround
    rw [hraised, quotaRound_one, if_neg fun h => one_ne_zero h.2]
    omega
  · have hround := quotaRound_nonneg (not_le.1 hexact).le
    have hkept : (if ratio ≠ 0 ∧ exact ≤ 0 then 1 else exact) = exact := if_neg fun h => hexact h.2
    rw [hkept]
    by_cases hzero : quotaRound exact = 0
    · rw [if_pos ⟨hratio, hzero⟩]
      omega
    · rw [if_neg fun h => hzero h.2]
      omega

/-- A number that is less than a half above an integer is not rounded beyond it. -/
theorem quotaRound_le_of_lt {x : ℚ} {n : ℤ} (hn : 0 ≤ n) (h : x < n + 1 / 2) :
    quotaRound x ≤ n := by
  unfold quotaRound
  split
  · have hlt : ⌊x + 1 / 2⌋ < n + 1 := Int.floor_lt.2 (by push_cast; linarith)
    omega
  · rename_i hneg
    have hfloor : (0 : ℤ) ≤ ⌊1 / 2 - x⌋ := Int.floor_nonneg.2 (by linarith [not_le.1 hneg])
    omega

theorem quotaRound_half {n : ℤ} (hn : 0 ≤ n) : quotaRound (n + 1 / 2) = n + 1 := by
  have hcast : (0 : ℚ) ≤ n := by exact_mod_cast hn
  have hsum : (n : ℚ) + 1 / 2 + 1 / 2 = ((n + 1 : ℤ) : ℚ) := by
    push_cast
    ring
  rw [quotaRound, if_pos (by linarith), hsum, Int.floor_intCast]

theorem one_le_prod {l : List ℚ} (h : ∀ r ∈ l, 1 ≤ r) : 1 ≤ l.prod := by
  induction l with
  | nil => simp
  | cons r l ih =>
    have hr := h r List.mem_cons_self
    have hl := ih fun s hs => h s (List.mem_cons_of_mem _ hs)
    rw [List.prod_cons]
    nlinarith

section Quota

variable {pricing : TextQuotaPricing} {usage : CostedUsage}

theorem calculateTextQuota_of_none (h : usage.promptTokens + usage.completionTokens = 0) :
    calculateTextQuota pricing usage = 0 := by
  rw [calculateTextQuota]
  exact if_pos h

theorem calculateTextQuota_of_ratio (hprice : pricing.usePrice = false)
    (htotal : usage.promptTokens + usage.completionTokens ≠ 0) :
    calculateTextQuota pricing usage = chargedQuota pricing.ratio (exactQuota pricing usage) := by
  have hexact : ((promptTokensWithRatio pricing usage + completionTokensWithRatio pricing usage) *
      pricing.ratio + toolCallSurcharge pricing + audioInputQuota pricing usage) *
        pricing.otherRatios.prod = exactQuota pricing usage := by
    unfold exactQuota promptCost completionCost
    rw [hprice, if_neg Bool.false_ne_true]
    ring
  rw [← chargedQuota_eq]
  simp only [calculateTextQuota, TextQuotaPricing.atLeastOne, roundedTextQuota, hprice,
    Bool.false_eq_true, if_false, if_neg htotal, hexact]

theorem calculateTextQuota_of_price (hprice : pricing.usePrice = true)
    (htotal : usage.promptTokens + usage.completionTokens ≠ 0) :
    calculateTextQuota pricing usage =
      if pricing.ratio ≠ 0 ∧
          quotaRound ((pricing.modelPrice * pricing.quotaPerUnit * pricing.groupRatio +
            toolCallSurcharge pricing) * pricing.otherRatios.prod) = 0 then 1
      else quotaRound ((pricing.modelPrice * pricing.quotaPerUnit * pricing.groupRatio +
        toolCallSurcharge pricing) * pricing.otherRatios.prod) := by
  simp only [calculateTextQuota, TextQuotaPricing.atLeastOne, roundedTextQuota, hprice, if_true,
    if_neg htotal]

theorem toolCallSurcharge_nonneg (h : pricing.NonNegative) : 0 ≤ toolCallSurcharge pricing :=
  mul_nonneg (mul_nonneg h.toolPrice h.groupRatio) h.quotaPerUnit.le

theorem ratio_nonneg (h : pricing.NonNegative) : 0 ≤ pricing.ratio :=
  mul_nonneg h.modelRatio h.groupRatio

theorem completionCost_nonneg (h : pricing.NonNegative) (hu : usage.NonNegative) :
    0 ≤ completionCost pricing usage := by
  unfold completionCost
  split
  · exact le_refl 0
  · have hcount : (0 : ℚ) ≤ usage.completionTokens := by exact_mod_cast hu.completion
    exact mul_nonneg (mul_nonneg hcount h.completionRatio) (ratio_nonneg h)

theorem audioInputQuota_nonneg (h : pricing.NonNegative) (hu : usage.NonNegative) :
    0 ≤ audioInputQuota pricing usage := by
  unfold audioInputQuota
  split
  · have hcount : (0 : ℚ) ≤ usage.promptAudioTokens := by exact_mod_cast hu.audio
    have hmillion : 0 ≤ pricing.audioInputPrice / 1000000 :=
      div_nonneg h.audioInputPrice (by norm_num)
    exact mul_nonneg (mul_nonneg (mul_nonneg hmillion hcount) h.groupRatio) h.quotaPerUnit.le
  · exact le_refl 0

/-- A prompt that has no ratio adds nothing but its audio. -/
theorem promptCost_of_ratio (h : pricing.ratio = 0) :
    promptCost pricing usage = audioInputQuota pricing usage := by
  rw [promptCost, h, mul_zero, zero_add]

/-- Where there is no ratio, the quota is that of the tools and of the audio. -/
theorem exactQuota_of_ratio (h : pricing.NonNegative) (hu : usage.NonNegative)
    (hratio : pricing.ratio = 0) : 0 ≤ exactQuota pricing usage := by
  have hprod := one_le_prod h.otherRatios
  have haudio := audioInputQuota_nonneg h hu
  have htools := toolCallSurcharge_nonneg h
  have hcompletion := completionCost_nonneg h hu
  unfold exactQuota
  rw [promptCost_of_ratio hratio]
  exact mul_nonneg (by linarith) (by linarith)

/-! ### The claims about the quota -/

/-- **The quota is never negative.** -/
theorem calculateTextQuota_nonneg (h : pricing.NonNegative) (hu : usage.NonNegative) :
    0 ≤ calculateTextQuota pricing usage := by
  have hprod := one_le_prod h.otherRatios
  by_cases htotal : usage.promptTokens + usage.completionTokens = 0
  · rw [calculateTextQuota_of_none htotal]
  cases hprice : pricing.usePrice with
  | true =>
    have htools := toolCallSurcharge_nonneg h
    have hmodel := mul_nonneg (mul_nonneg h.modelPrice h.quotaPerUnit.le) h.groupRatio
    have hquota := quotaRound_nonneg
      (mul_nonneg (add_nonneg hmodel htools) (by linarith : 0 ≤ pricing.otherRatios.prod))
    rw [calculateTextQuota_of_price hprice htotal]
    split
    · exact zero_le_one
    · exact hquota
  | false =>
    rw [calculateTextQuota_of_ratio hprice htotal, chargedQuota]
    by_cases hratio : pricing.ratio = 0
    · rw [if_pos hratio]
      exact quotaRound_nonneg (exactQuota_of_ratio h hu hratio)
    · rw [if_neg hratio]
      exact le_max_of_le_left zero_le_one

theorem roundedTextQuota_nonneg (h : pricing.NonNegative) (hu : usage.NonNegative) :
    0 ≤ roundedTextQuota pricing usage := by
  have hprod := one_le_prod h.otherRatios
  have htools := toolCallSurcharge_nonneg h
  unfold roundedTextQuota
  split
  · have hmodel := mul_nonneg (mul_nonneg h.modelPrice h.quotaPerUnit.le) h.groupRatio
    exact quotaRound_nonneg (mul_nonneg (add_nonneg hmodel htools) (by linarith))
  · apply quotaRound_nonneg
    split
    · exact zero_le_one
    · rename_i hnone
      by_cases hratio : pricing.ratio = 0
      · have haudio := audioInputQuota_nonneg h hu
        rw [hratio, mul_zero, zero_add]
        exact mul_nonneg (add_nonneg htools haudio) (by linarith)
      · exact (not_le.1 fun hle => hnone ⟨hratio, hle⟩).le

/-- **A total that fits is kept as it is.** -/
theorem calculateTextQuota64_eq (h : pricing.NonNegative) (hu : usage.NonNegative)
    (hfits : QuotaFits pricing usage) :
    calculateTextQuota64 pricing usage = calculateTextQuota pricing usage := by
  unfold calculateTextQuota64 calculateTextQuota
  rcases hfits with hzero | hsmall
  · rw [TextQuotaPricing.atLeastOne, TextQuotaPricing.atLeastOne, if_pos hzero, if_pos hzero]
  · rw [wrap64_of_lt (roundedTextQuota_nonneg h hu) hsmall]

theorem coversCompletion_of_nonneg (h : pricing.NonNegative) (hu : usage.NonNegative)
    (htotal : usage.promptTokens + usage.completionTokens ≠ 0)
    (hprompt : pricing.usePrice = true ∨ 0 ≤ promptCost pricing usage)
    (hfits : QuotaFits pricing usage) : CoversCompletion pricing usage := by
  have hprod := one_le_prod h.otherRatios
  have htools := toolCallSurcharge_nonneg h
  have hcompletion := completionCost_nonneg h hu
  unfold CoversCompletion
  rw [calculateTextQuota64_eq h hu hfits]
  cases hprice : pricing.usePrice with
  | true =>
    have hmodel := mul_nonneg (mul_nonneg h.modelPrice h.quotaPerUnit.le) h.groupRatio
    have hle : completionCost pricing usage + toolCallSurcharge pricing ≤
        (pricing.modelPrice * pricing.quotaPerUnit * pricing.groupRatio +
          toolCallSurcharge pricing) * pricing.otherRatios.prod := by
      unfold completionCost
      rw [hprice, if_pos rfl]
      nlinarith
    have hround := quotaRound_mono hle
    rw [calculateTextQuota_of_price hprice htotal]
    split
    · rename_i hsmall
      omega
    · exact hround
  | false =>
    have hcost : 0 ≤ promptCost pricing usage := by
      obtain hp | hp := hprompt
      · rw [hprice] at hp
        cases hp
      · exact hp
    have hle : completionCost pricing usage + toolCallSurcharge pricing ≤
        exactQuota pricing usage := by
      unfold exactQuota
      nlinarith
    rw [calculateTextQuota_of_ratio hprice htotal]
    exact (quotaRound_mono hle).trans (quotaRound_le_chargedQuota _ _)

/-- A request for which no tokens are reported pays nothing for its tools. -/
theorem groupRatio_of_covers (h : pricing.NonNegative) (hu : usage.NonNegative)
    (htotal : usage.promptTokens + usage.completionTokens = 0)
    (hcovers : ∀ toolPrice, 0 ≤ toolPrice →
      QuotaFits { pricing with toolPrice := toolPrice, otherRatios := [] } usage →
      CoversCompletion { pricing with toolPrice := toolPrice, otherRatios := [] } usage) :
    pricing.groupRatio = 0 := by
  by_contra hgroup
  have hunit := h.quotaPerUnit
  have hpositive : 0 < pricing.groupRatio * pricing.quotaPerUnit :=
    mul_pos (lt_of_le_of_ne h.groupRatio (Ne.symm hgroup)) hunit
  have hone := hcovers (1 / (pricing.groupRatio * pricing.quotaPerUnit)) (by positivity)
    (.inl htotal)
  have hcompletion : usage.completionTokens = 0 := by
    have hp := hu.prompt
    have hc := hu.completion
    omega
  -- tools that cost one unit
  have hcost : completionCost { pricing with
      toolPrice := 1 / (pricing.groupRatio * pricing.quotaPerUnit), otherRatios := [] } usage +
      toolCallSurcharge { pricing with
        toolPrice := 1 / (pricing.groupRatio * pricing.quotaPerUnit), otherRatios := [] } = 1 := by
    have htools : 1 / (pricing.groupRatio * pricing.quotaPerUnit) * pricing.groupRatio *
        pricing.quotaPerUnit = 1 := by
      rw [mul_assoc]
      exact one_div_mul_cancel hpositive.ne'
    simp only [completionCost, completionTokensWithRatio, toolCallSurcharge, hcompletion,
      Int.cast_zero, zero_mul, ite_self, zero_add]
    exact htools
  unfold CoversCompletion at hone
  rw [hcost, calculateTextQuota64, TextQuotaPricing.atLeastOne, if_pos htotal,
    quotaRound_one] at hone
  exact absurd hone (by decide)

/-- A prompt that takes something from the quota takes it from tools of some price. -/
theorem promptCost_of_covers (h : pricing.NonNegative) (hu : usage.NonNegative)
    (htotal : usage.promptTokens + usage.completionTokens ≠ 0) (hprice : pricing.usePrice = false)
    (hsmall : completionCost pricing usage < 2 ^ 62)
    (hcovers : ∀ toolPrice, 0 ≤ toolPrice →
      QuotaFits { pricing with toolPrice := toolPrice, otherRatios := [] } usage →
      CoversCompletion { pricing with toolPrice := toolPrice, otherRatios := [] } usage) :
    0 ≤ promptCost pricing usage := by
  by_contra hneg
  have hratio : pricing.ratio ≠ 0 := by
    intro hzero
    rw [promptCost_of_ratio hzero] at hneg
    exact hneg (audioInputQuota_nonneg h hu)
  have hgroup : pricing.groupRatio ≠ 0 := fun hzero => hratio (by
    rw [TextQuotaPricing.ratio, hzero, mul_zero])
  have hpositive : 0 < pricing.groupRatio * pricing.quotaPerUnit :=
    mul_pos (lt_of_le_of_ne h.groupRatio (Ne.symm hgroup)) h.quotaPerUnit
  have hcompletion := completionCost_nonneg h hu
  -- the tools bring the cost to a number that is rounded up
  obtain ⟨n, hn, hless⟩ : ∃ n : ℕ, completionCost pricing usage < n ∧ n < 2 ^ 63 :=
    ⟨⌊completionCost pricing usage⌋₊ + 1, by exact_mod_cast Nat.lt_floor_add_one _, by
      have hfloor := (Nat.floor_lt hcompletion).2 (by exact_mod_cast hsmall :
        completionCost pricing usage < ((2 ^ 62 : ℕ) : ℚ))
      omega⟩
  have hn' : (0 : ℚ) < n := lt_of_le_of_lt hcompletion hn
  have hnat : 1 ≤ n := by exact_mod_cast hn'
  let toolPrice := (n + 1 / 2 - completionCost pricing usage) /
    (pricing.groupRatio * pricing.quotaPerUnit)
  have htool : 0 ≤ toolPrice := div_nonneg (by linarith) hpositive.le
  have hsurcharge : toolCallSurcharge { pricing with
      toolPrice := toolPrice, otherRatios := [] } =
      n + 1 / 2 - completionCost pricing usage := by
    show toolPrice * pricing.groupRatio * pricing.quotaPerUnit = _
    rw [mul_assoc]
    exact div_mul_cancel₀ _ hpositive.ne'
  have hcost : completionCost { pricing with toolPrice := toolPrice, otherRatios := [] } usage =
      completionCost pricing usage := rfl
  have hexact : exactQuota { pricing with toolPrice := toolPrice, otherRatios := [] } usage <
      ((n : ℤ) : ℚ) + 1 / 2 := by
    have hprompt : promptCost { pricing with toolPrice := toolPrice, otherRatios := [] } usage =
        promptCost pricing usage := rfl
    rw [exactQuota, hprompt, hcost, hsurcharge, List.prod_nil, mul_one]
    push_cast
    linarith [not_le.1 hneg]
  have hquota : calculateTextQuota
      { pricing with toolPrice := toolPrice, otherRatios := [] } usage =
        chargedQuota pricing.ratio
          (exactQuota { pricing with toolPrice := toolPrice, otherRatios := [] } usage) :=
    calculateTextQuota_of_ratio hprice htotal
  have h' : ({ pricing with toolPrice := toolPrice, otherRatios := [] } :
      TextQuotaPricing).NonNegative :=
    ⟨h.modelRatio, h.groupRatio, h.completionRatio, h.modelPrice, h.audioInputPrice, htool,
      h.quotaPerUnit, by simp⟩
  have hfits : QuotaFits { pricing with toolPrice := toolPrice, otherRatios := [] } usage := by
    have hbound : chargedQuota pricing.ratio
        (exactQuota { pricing with toolPrice := toolPrice, otherRatios := [] } usage) ≤ n := by
      have hround := quotaRound_le_of_lt (n := n) (by omega) hexact
      rw [chargedQuota, if_neg hratio]
      omega
    rw [← hquota, calculateTextQuota, TextQuotaPricing.atLeastOne, if_neg htotal] at hbound
    refine .inr ?_
    split at hbound
    · rename_i hzero
      omega
    · omega
  have hcover := hcovers toolPrice htool hfits
  unfold CoversCompletion at hcover
  rw [calculateTextQuota64_eq h' hu hfits, hcost, hsurcharge, hquota] at hcover
  have hsum : completionCost pricing usage + (n + 1 / 2 - completionCost pricing usage) =
      ((n : ℤ) : ℚ) + 1 / 2 := by
    push_cast
    ring
  have hround := quotaRound_le_of_lt (by omega) hexact
  rw [hsum, quotaRound_half (by omega), chargedQuota, if_neg hratio] at hcover
  omega

/-- Where nothing is found out from the cost, the count is the reported one. -/
theorem openRouterCacheCreation_of_not (h : ¬ CacheCreationEstimated pricing usage)
    (hrouter : pricing.isOpenRouter = true)
    (hsemantic : usageSemanticFromUsage pricing.toTextPricing usage = "anthropic") :
    openRouterCacheCreation pricing.toTextPricing usage = usage.cachedCreationTokens := by
  unfold openRouterCacheCreation
  simp only
  split
  · rename_i hfound
    obtain ⟨hzero, hne, hcustom⟩ := hfound
    rw [Bool.or_eq_false_iff] at hcustom
    split
    · rename_i hroom
      by_contra hcount
      exact h ⟨⟨hrouter, hsemantic, hzero, hne, hcustom⟩, by omega, hroom.2⟩
    · rfl
  · rfl

/-- Then the tokens do not depend on the completion. -/
theorem textQuotaTokens_completion {c : ℤ} (h : ¬ CacheCreationEstimated pricing usage)
    (h' : ¬ CacheCreationEstimated pricing { usage with completionTokens := c }) :
    textQuotaTokens pricing.toTextPricing { usage with completionTokens := c } =
      textQuotaTokens pricing.toTextPricing usage := by
  have hsemantic : usageSemanticFromUsage pricing.toTextPricing
      { usage with completionTokens := c } =
        usageSemanticFromUsage pricing.toTextPricing usage := rfl
  unfold textQuotaTokens
  simp only [hsemantic]
  by_cases hrouter : pricing.isOpenRouter = true ∧
      usageSemanticFromUsage pricing.toTextPricing usage = "anthropic"
  · simp only [if_pos hrouter, openRouterCacheCreation_of_not h hrouter.1 hrouter.2,
      openRouterCacheCreation_of_not h' hrouter.1 hrouter.2]
    rfl
  · simp only [if_neg hrouter]
    rfl

/-- **The quota grows with the completion**, where nothing is found out from the cost. -/
theorem calculateTextQuota_mono (h : pricing.NonNegative) (hu : usage.NonNegative)
    {more : ℤ} (hmore : 0 ≤ more) (hestimate : ¬ CacheCreationEstimated pricing usage)
    (hestimate' : ¬ CacheCreationEstimated pricing
      { usage with completionTokens := usage.completionTokens + more }) :
    calculateTextQuota pricing usage ≤
      calculateTextQuota pricing
        { usage with completionTokens := usage.completionTokens + more } := by
  have hu' : ({ usage with completionTokens := usage.completionTokens + more } :
      CostedUsage).NonNegative :=
    ⟨hu.prompt, Int.add_nonneg hu.completion hmore, hu.audio⟩
  by_cases htotal : usage.promptTokens + usage.completionTokens = 0
  · rw [calculateTextQuota_of_none htotal]
    exact calculateTextQuota_nonneg h hu'
  have htotal' : ({ usage with completionTokens := usage.completionTokens + more } :
      CostedUsage).promptTokens +
        ({ usage with completionTokens := usage.completionTokens + more } :
          CostedUsage).completionTokens ≠ 0 := by
    have hp := hu.prompt
    have hc := hu.completion
    show usage.promptTokens + (usage.completionTokens + more) ≠ 0
    omega
  cases hprice : pricing.usePrice with
  | true =>
    rw [calculateTextQuota_of_price hprice htotal, calculateTextQuota_of_price hprice htotal']
  | false =>
    rw [calculateTextQuota_of_ratio hprice htotal, calculateTextQuota_of_ratio hprice htotal']
    apply chargedQuota_mono
    -- without an estimate the prompt costs the same as before
    have htokens := textQuotaTokens_completion hestimate hestimate'
    have hprompt : promptCost pricing
        { usage with completionTokens := usage.completionTokens + more } =
          promptCost pricing usage := by
      unfold promptCost promptTokensWithRatio
      rw [htokens]
      rfl
    have hcompletion : completionCost pricing usage ≤ completionCost pricing
        { usage with completionTokens := usage.completionTokens + more } := by
      have hratio := ratio_nonneg h
      have hcompletionRatio := h.completionRatio
      have hcast : (usage.completionTokens : ℚ) ≤ ((usage.completionTokens + more : ℤ) : ℚ) := by
        exact_mod_cast (by omega : usage.completionTokens ≤ usage.completionTokens + more)
      unfold completionCost completionTokensWithRatio
      rw [hprice, if_neg Bool.false_ne_true, if_neg Bool.false_ne_true]
      exact mul_le_mul_of_nonneg_right
        (mul_le_mul_of_nonneg_right hcast hcompletionRatio) hratio
    have hprod := one_le_prod h.otherRatios
    unfold exactQuota
    rw [hprompt]
    exact mul_le_mul_of_nonneg_right (by linarith) (by linarith)

theorem calculateTextQuota64_mono (h : pricing.NonNegative) (hu : usage.NonNegative)
    {more : ℤ} (hmore : 0 ≤ more) :
    let usage' := { usage with completionTokens := usage.completionTokens + more }
    ¬ CacheCreationEstimated pricing usage → ¬ CacheCreationEstimated pricing usage' →
      QuotaFits pricing usage → QuotaFits pricing usage' →
      calculateTextQuota64 pricing usage ≤ calculateTextQuota64 pricing usage' := by
  intro usage' hestimate hestimate' hfits hfits'
  have hu' : usage'.NonNegative := ⟨hu.prompt, Int.add_nonneg hu.completion hmore, hu.audio⟩
  rw [calculateTextQuota64_eq h hu hfits, calculateTextQuota64_eq h hu' hfits']
  exact calculateTextQuota_mono h hu hmore hestimate hestimate'

end Quota

/-! ### A usage that pays for its completion and one that does not -/

/-- The ratios of a model whose cached tokens cost a tenth. -/
def cachedPricing : TextQuotaPricing :=
  { claudePricing with
    isClaudeFormat := false
    completionRatio := 4
    imageRatio := 1
    groupRatio := 1
    modelPrice := 0
    otherRatios := []
    audioInputPrice := 0
    toolPrice := 0 }

/-- A usage of OpenAI's, with a number of tokens read from a cache. -/
def openAIUsage (cached : ℤ) : CostedUsage :=
  { gptUsage with
    cachedTokens := cached
    promptImageTokens := 0
    completionAudioTokens := 0 }

end NewApi
