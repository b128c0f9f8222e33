/-
**The tokens that are priced.**

An expression prices categories of tokens under names of their own.  For the upstreams that report
totals, the count of each category the expression names is taken out of the total, so that the
names `p` and `c` are left with the rest.  For Claude's usage nothing is taken out, and the length
of the context is the sum.

The tokens that are written to a cache are counted three times over: in total, and by how long they
are kept.  The settlement by ratios prices the split and what it leaves of the total.  An expression
is given the split alone, whatever it leaves out; and if the usage does not say that it is Claude's,
the total alone.

Main definitions:

* `NewApi.buildTieredTokenParams64` — the counts as the doubles they are kept in;
* `NewApi.TokenParams64.linearCharge` — a linear expression that prices every name it uses;
* `NewApi.TieredUsage.Partitioned` — the categories fit into the totals;
* `NewApi.textQuotaTokens`, `NewApi.TextQuotaTokens.pricedCacheCreation` — the tokens that the
  settlement by ratios prices.

Main results:

* `NewApi.buildTieredTokenParams64_eq` — counts up to 2⁵³ are exact;
* `NewApi.token_normalisation_partition` — **every token is priced once**, up to that many;
* `NewApi.cache_creation_billed_in_full` — **both settlements price all tokens written to a cache
  exactly if the split is complete**;
* `NewApi.cache_creation_dropped` — a total without a split is not given to the expression.
-/

import Mathlib.Algebra.BigOperators.Group.List.Basic
import Mathlib.Algebra.Order.BigOperators.Group.List
import Mathlib.Tactic.Ring
import Mathlib.Tactic.NormNum
import NewApi.ExprCache
import NewApi.GroupSettlement
import NewApi.Lib.Doubles

set_option autoImplicit false

namespace NewApi

/-! ### Linear expressions -/

/-- The names of the categories that are part of the prompt. -/
def promptCategories : List String := ["cr", "cc", "cc1h", "img", "ai"]

/-- The names of the categories that are part of the completion. -/
def completionCategories : List String := ["img_o", "ao"]

/-- The counts of an expression as they are kept: as doubles. -/
structure TokenParams64 where
  p : ℚ
  c : ℚ
  len : ℚ
  cr : ℚ
  cc : ℚ
  cc1h : ℚ
  img : ℚ
  imgO : ℚ
  ai : ℚ
  ao : ℚ
deriving DecidableEq, Repr

/-- The count an expression reads under a name. -/
def TokenParams64.value (params : TokenParams64) (name : String) : ℚ :=
  if name = "p" then params.p
  else if name = "c" then params.c
  else if name = "len" then params.len
  else if name = "cr" then params.cr
  else if name = "cc" then params.cc
  else if name = "cc1h" then params.cc1h
  else if name = "img" then params.img
  else if name = "img_o" then params.imgO
  else if name = "ai" then params.ai
  else if name = "ao" then params.ao
  else 0

/-- The names of a list that an expression uses. -/
def usedOf (usedVars : Option (List String)) (names : List String) : List String :=
  names.filter fun name => (usedVars.getD []).contains name

/-- The tokens of the categories that an expression uses. -/
def TokenParams64.used (params : TokenParams64) (usedVars : Option (List String))
    (names : List String) : ℚ :=
  ((usedOf usedVars names).map params.value).sum

/-- What a linear expression charges that prices the prompt and each category of it that it uses at
one rate, and likewise the completion. -/
def TokenParams64.linearCharge (params : TokenParams64) (usedVars : Option (List String))
    (promptRate completionRate : ℚ) : ℚ :=
  (("p" :: usedOf usedVars promptCategories).map fun name => promptRate * params.value name).sum +
    (("c" :: usedOf usedVars completionCategories).map fun name =>
      completionRate * params.value name).sum

/-- Take a count out of a total if the name that prices it is used. -/
def exclude64 (usedVars : Option (List String)) (name : String) (count total : ℚ) : ℚ :=
  if (usedVars.getD []).contains name then Doubles.rounded (total - count) else total

/-- `buildTieredTokenParams` in the doubles it counts in: a count is rounded when it is converted,
and so is every sum and difference. -/
def buildTieredTokenParams64 (usage : TieredUsage) (isClaudeUsageSemantic : Bool)
    (usedVars : Option (List String)) : TokenParams64 :=
  let anthropic := usage.usageSemantic = "anthropic"
  let promptTokens := Doubles.rounded usage.promptTokens
  let completionTokens := Doubles.rounded usage.completionTokens
  let cr := Doubles.rounded usage.cachedTokens
  let cc5m := Doubles.rounded
    (if anthropic then usage.claudeCacheCreation5mTokens else usage.cachedCreationTokens : ℤ)
  let cc1h := Doubles.rounded (if anthropic then usage.claudeCacheCreation1hTokens else 0 : ℤ)
  let img := Doubles.rounded usage.promptImageTokens
  let ai := Doubles.rounded usage.promptAudioTokens
  let imgO := Doubles.rounded usage.completionImageTokens
  let ao := Doubles.rounded usage.completionAudioTokens
  let inputLen :=
    if isClaudeUsageSemantic then
      Doubles.rounded (Doubles.rounded (Doubles.rounded (promptTokens + cr) + cc5m) + cc1h)
    else promptTokens
  let p :=
    if isClaudeUsageSemantic then promptTokens
    else
      exclude64 usedVars "ai" ai <|
        exclude64 usedVars "img" img <|
          exclude64 usedVars "cc1h" cc1h <|
            exclude64 usedVars "cc" cc5m <|
              exclude64 usedVars "cr" cr promptTokens
  let c :=
    if isClaudeUsageSemantic then completionTokens
    else exclude64 usedVars "ao" ao (exclude64 usedVars "img_o" imgO completionTokens)
  { p := if p < 0 then 0 else p
    c := if c < 0 then 0 else c
    len := inputLen
    cr := cr
    cc := cc5m
    cc1h := cc1h
    img := img
    imgO := imgO
    ai := ai
    ao := ao }

/-- Whole counts, as doubles. -/
def TokenParams.toDoubles (params : TokenParams) : TokenParams64 where
  p := params.p
  c := params.c
  len := params.len
  cr := params.cr
  cc := params.cc
  cc1h := params.cc1h
  img := params.img
  imgO := params.imgO
  ai := params.ai
  ao := params.ao

/-- The tokens that a usage counts as written to a cache, by how long they are kept.  Claude's usage
has counters of its own for them. -/
def TieredUsage.cacheCreation (usage : TieredUsage) : ℤ × ℤ :=
  if usage.usageSemantic = "anthropic" then
    (usage.claudeCacheCreation5mTokens, usage.claudeCacheCreation1hTokens)
  else (usage.cachedCreationTokens, 0)

/-- No count of a usage is negative, and the categories fit into the totals. -/
structure TieredUsage.Partitioned (usage : TieredUsage) : Prop where
  cached : 0 ≤ usage.cachedTokens
  creation5m : 0 ≤ usage.cacheCreation.1
  creation1h : 0 ≤ usage.cacheCreation.2
  promptImage : 0 ≤ usage.promptImageTokens
  promptAudio : 0 ≤ usage.promptAudioTokens
  completionImage : 0 ≤ usage.completionImageTokens
  completionAudio : 0 ≤ usage.completionAudioTokens
  prompt : usage.cachedTokens + (usage.cacheCreation.1 + usage.cacheCreation.2) +
    usage.promptImageTokens + usage.promptAudioTokens ≤ usage.promptTokens
  completion : usage.completionImageTokens + usage.completionAudioTokens ≤ usage.completionTokens

/-- The tokens of a category, if an expression uses its name. -/
def usedCount (usedVars : Option (List String)) (name : String) (count : ℤ) : ℤ :=
  if (usedVars.getD []).contains name then count else 0

variable (params : TokenParams64) (usedVars : Option (List String))

theorem exclude_eq (name : String) (count total : ℤ) :
    exclude usedVars name count total = total - usedCount usedVars name count := by
  unfold exclude usedCount
  split
  · rfl
  · exact (Int.sub_zero total).symm

theorem usedCount_bounds (name : String) {count : ℤ} (h : 0 ≤ count) :
    0 ≤ usedCount usedVars name count ∧ usedCount usedVars name count ≤ count := by
  unfold usedCount
  split
  · exact ⟨h, Int.le_refl count⟩
  · exact ⟨Int.le_refl 0, h⟩

@[simp] theorem TokenParams64.used_nil : params.used usedVars [] = 0 := rfl

theorem TokenParams64.used_cons {params : TokenParams64} {name : String} {count : ℤ}
    (names : List String) (h : params.value name = count) :
    params.used usedVars (name :: names) =
      (usedCount usedVars name count : ℤ) + params.used usedVars names := by
  unfold TokenParams64.used usedOf usedCount
  rw [List.filter_cons]
  split
  · rw [List.map_cons, List.sum_cons, h]
  · rw [Int.cast_zero, zero_add]

/-- One rate prices a total and its categories like their sum. -/
theorem TokenParams64.sum_rate (rate : ℚ) (names : List String) :
    (names.map fun name => rate * params.value name).sum = rate * (names.map params.value).sum := by
  induction names with
  | nil => simp
  | cons name names ih =>
    simp only [List.map_cons, List.sum_cons, ih]
    ring

theorem TokenParams64.linearCharge_eq (promptRate completionRate : ℚ) :
    params.linearCharge usedVars promptRate completionRate =
      promptRate * (params.p + params.used usedVars promptCategories) +
        completionRate * (params.c + params.used usedVars completionCategories) := by
  unfold linearCharge
  rw [params.sum_rate, params.sum_rate]
  rfl

theorem exclude64_eq {usedVars : Option (List String)} {name : String} {count total : ℤ}
    (hcount : 0 ≤ count) (hle : count ≤ total) (htotal : total ≤ 2 ^ 53) :
    exclude64 usedVars name count total = (total - usedCount usedVars name count : ℤ) := by
  unfold exclude64 usedCount
  split
  · rw [← Int.cast_sub, Doubles.rounded_intCast (abs_le.2 ⟨by omega, by omega⟩)]
  · rw [sub_zero]

/-- **Counts up to 2⁵³ are exact**: no sum or difference is rounded. -/
theorem buildTieredTokenParams64_eq {usage : TieredUsage} (h : usage.Partitioned)
    (hprompt : usage.promptTokens ≤ 2 ^ 53) (hcompletion : usage.completionTokens ≤ 2 ^ 53)
    (usedVars : Option (List String)) :
    buildTieredTokenParams64 usage false usedVars =
      (buildTieredTokenParams usage false usedVars).toDoubles := by
  obtain ⟨hcached, hcreation, hcreation', himage, haudio, himageO, haudioO, hsum, hsumO⟩ := h
  have hcc5m : (if usage.usageSemantic = "anthropic" then usage.claudeCacheCreation5mTokens
      else usage.cachedCreationTokens) = usage.cacheCreation.1 := by
    unfold TieredUsage.cacheCreation
    split <;> rfl
  have hcc1h : (if usage.usageSemantic = "anthropic" then usage.claudeCacheCreation1hTokens
      else 0) = usage.cacheCreation.2 := by
    unfold TieredUsage.cacheCreation
    split <;> rfl
  have hround : ∀ {n : ℤ}, 0 ≤ n → n ≤ 2 ^ 53 → Doubles.rounded n = n := fun hn hle =>
    Doubles.rounded_intCast (abs_le.2 ⟨by omega, hle⟩)
  have hcr := usedCount_bounds usedVars "cr" hcached
  have hcc := usedCount_bounds usedVars "cc" hcreation
  have hcc' := usedCount_bounds usedVars "cc1h" hcreation'
  have himg := usedCount_bounds usedVars "img" himage
  have himgO := usedCount_bounds usedVars "img_o" himageO
  have hclamp : ∀ n : ℤ, (if (n : ℚ) < 0 then 0 else (n : ℚ)) = ((if n < 0 then 0 else n : ℤ) : ℚ) := by
    intro n
    simp only [Int.cast_lt_zero]
    split <;> simp
  simp only [buildTieredTokenParams64, buildTieredTokenParams, TokenParams.toDoubles,
    Bool.false_eq_true, if_false, hcc5m, hcc1h]
  -- each difference is one of whole numbers that fit
  rw [hround (n := usage.promptTokens) (by omega) hprompt,
    hround (n := usage.completionTokens) (by omega) hcompletion,
    hround (n := usage.cachedTokens) (by omega) (by omega),
    hround (n := usage.cacheCreation.1) (by omega) (by omega),
    hround (n := usage.cacheCreation.2) (by omega) (by omega),
    hround (n := usage.promptImageTokens) (by omega) (by omega),
    hround (n := usage.promptAudioTokens) (by omega) (by omega),
    hround (n := usage.completionImageTokens) (by omega) (by omega),
    hround (n := usage.completionAudioTokens) (by omega) (by omega)]
  simp only [exclude_eq]
  rw [exclude64_eq hcached (by omega) hprompt, exclude64_eq hcreation (by omega) (by omega),
    exclude64_eq hcreation' (by omega) (by omega), exclude64_eq himage (by omega) (by omega),
    exclude64_eq haudio (by omega) (by omega), exclude64_eq himageO (by omega) hcompletion,
    exclude64_eq haudioO (by omega) (by omega), hclamp, hclamp]

/-- The rest of the prompt and the categories of it that an expression uses make it up. -/
theorem p_add_used {usage : TieredUsage} (h : usage.Partitioned) (usedVars : Option (List String)) :
    let params := (buildTieredTokenParams usage false usedVars).toDoubles
    params.p + params.used usedVars promptCategories = usage.promptTokens := by
  intro params
  have hcr := (usedCount_bounds usedVars "cr" h.cached).2
  have hcc := (usedCount_bounds usedVars "cc" h.creation5m).2
  have hcc1h := (usedCount_bounds usedVars "cc1h" h.creation1h).2
  have himg := (usedCount_bounds usedVars "img" h.promptImage).2
  have hai := (usedCount_bounds usedVars "ai" h.promptAudio).2
  have hprompt := h.prompt
  have hcounts : usage.cacheCreation = ((buildTieredTokenParams usage false usedVars).cc,
      (buildTieredTokenParams usage false usedVars).cc1h) := by
    simp only [TieredUsage.cacheCreation, buildTieredTokenParams]
    split <;> rfl
  rw [hcounts] at hcc hcc1h hprompt
  simp only at hcc hcc1h hprompt
  have hused : params.used usedVars promptCategories =
      ((usedCount usedVars "cr" usage.cachedTokens +
        (usedCount usedVars "cc" (buildTieredTokenParams usage false usedVars).cc +
          (usedCount usedVars "cc1h" (buildTieredTokenParams usage false usedVars).cc1h +
            (usedCount usedVars "img" usage.promptImageTokens +
              usedCount usedVars "ai" usage.promptAudioTokens))) : ℤ) : ℚ) := by
    unfold promptCategories
    rw [TokenParams64.used_cons usedVars _ rfl, TokenParams64.used_cons usedVars _ rfl,
      TokenParams64.used_cons usedVars _ rfl, TokenParams64.used_cons usedVars _ rfl,
      TokenParams64.used_cons usedVars _ rfl, TokenParams64.used_nil, add_zero]
    push_cast
    rfl
  have hp : (buildTieredTokenParams usage false usedVars).p = usage.promptTokens -
      (usedCount usedVars "cr" usage.cachedTokens +
        (usedCount usedVars "cc" (buildTieredTokenParams usage false usedVars).cc +
          (usedCount usedVars "cc1h" (buildTieredTokenParams usage false usedVars).cc1h +
            (usedCount usedVars "img" usage.promptImageTokens +
              usedCount usedVars "ai" usage.promptAudioTokens)))) := by
    by_cases hsemantic : usage.usageSemantic = "anthropic"
    · simp only [buildTieredTokenParams, exclude_eq, hsemantic, Bool.false_eq_true, if_false,
        if_true] at hcc hcc1h hprompt ⊢
      split <;> omega
    · simp only [buildTieredTokenParams, exclude_eq, hsemantic, Bool.false_eq_true,
        if_false] at hcc hcc1h hprompt ⊢
      split <;> omega
  have hcast : params.p = ((buildTieredTokenParams usage false usedVars).p : ℚ) := rfl
  rw [hused, hcast, hp]
  push_cast
  ring

/-- The rest of the completion and the categories of it that an expression uses make it up. -/
theorem c_add_used {usage : TieredUsage} (h : usage.Partitioned) (usedVars : Option (List String)) :
    let params := (buildTieredTokenParams usage false usedVars).toDoubles
    params.c + params.used usedVars completionCategories = usage.completionTokens := by
  intro params
  have himg := (usedCount_bounds usedVars "img_o" h.completionImage).2
  have hao := (usedCount_bounds usedVars "ao" h.completionAudio).2
  have hcompletion := h.completion
  have hused : params.used usedVars completionCategories =
      ((usedCount usedVars "img_o" usage.completionImageTokens +
        usedCount usedVars "ao" usage.completionAudioTokens : ℤ) : ℚ) := by
    unfold completionCategories
    rw [TokenParams64.used_cons usedVars _ rfl, TokenParams64.used_cons usedVars _ rfl,
      TokenParams64.used_nil, add_zero]
    push_cast
    rfl
  have hc : (buildTieredTokenParams usage false usedVars).c = usage.completionTokens -
      (usedCount usedVars "img_o" usage.completionImageTokens +
        usedCount usedVars "ao" usage.completionAudioTokens) := by
    simp only [buildTieredTokenParams, exclude_eq, Bool.false_eq_true, if_false]
    split <;> omega
  have hcast : params.c = ((buildTieredTokenParams usage false usedVars).c : ℚ) := rfl
  rw [hused, hcast, hc]
  push_cast
  ring

/-- **Every token is priced once**, of a usage with at most 2⁵³ tokens.  Whatever names an expression
uses: the rest of the prompt and the categories of it that are priced under their own names make up
the prompt, and likewise the completion; so one rate for all names charges each token once.  The
rests are never negative, whatever a usage says. -/
theorem token_normalisation_partition (usage : TieredUsage) (usedVars : Option (List String)) :
    (usage.Partitioned → usage.promptTokens ≤ 2 ^ 53 → usage.completionTokens ≤ 2 ^ 53 →
      let params := buildTieredTokenParams64 usage false usedVars
      params.p + params.used usedVars promptCategories = usage.promptTokens ∧
        params.c + params.used usedVars completionCategories = usage.completionTokens ∧
        params.len = usage.promptTokens ∧
        ∀ promptRate completionRate : ℚ,
          params.linearCharge usedVars promptRate completionRate =
            promptRate * usage.promptTokens + completionRate * usage.completionTokens) ∧
      ∀ isClaudeUsageSemantic : Bool,
        0 ≤ (buildTieredTokenParams64 usage isClaudeUsageSemantic usedVars).p ∧
          0 ≤ (buildTieredTokenParams64 usage isClaudeUsageSemantic usedVars).c := by
  constructor
  · intro h hprompt hcompletion params
    have hexact : params = (buildTieredTokenParams usage false usedVars).toDoubles :=
      buildTieredTokenParams64_eq h hprompt hcompletion usedVars
    have hp := p_add_used h usedVars
    have hc := c_add_used h usedVars
    rw [← hexact] at hp hc
    refine ⟨hp, hc, by rw [hexact]; rfl, ?_⟩
    intro promptRate completionRate
    rw [TokenParams64.linearCharge_eq, hp, hc]
  · intro isClaudeUsageSemantic
    have hclamp : ∀ x : ℚ, 0 ≤ if x < 0 then 0 else x := by
      intro x
      split
      · exact le_rfl
      · rename_i hneg
        exact not_lt.1 hneg
    exact ⟨hclamp _, hclamp _⟩

/-- A usage of 1000 tokens, of which 200 are read from a cache and 100 belong to an image. -/
def gptUsage : TieredUsage where
  promptTokens := 1000
  completionTokens := 500
  cachedTokens := 200
  cachedCreationTokens := 0
  promptImageTokens := 100
  promptAudioTokens := 0
  completionImageTokens := 0
  completionAudioTokens := 100
  usageSemantic := ""
  claudeCacheCreation5mTokens := 0
  claudeCacheCreation1hTokens := 0

/-- An expression that prices the tokens read from a cache leaves 800 to the rest of the prompt. -/
theorem token_normalisation_partition_cached :
    (buildTieredTokenParams64 gptUsage false (some ["p", "c", "cr"])).p + 200 = 1000 ∧
      (buildTieredTokenParams64 gptUsage false (some ["p", "c", "cr"])).p = 800 := by
  have hpartitioned : gptUsage.Partitioned := by constructor <;> decide
  have hp := ((token_normalisation_partition gptUsage (some ["p", "c", "cr"])).1 hpartitioned
    (by decide) (by decide)).1
  have hused : (buildTieredTokenParams64 gptUsage false (some ["p", "c", "cr"])).used
      (some ["p", "c", "cr"]) promptCategories = 200 := by decide +kernel
  rw [hused] at hp
  exact ⟨hp, by decide +kernel⟩

/-- A usage of a prompt with some tokens that are read from a cache, and nothing else. -/
def promptUsage (promptTokens cachedTokens : ℤ) : TieredUsage :=
  { gptUsage with
    promptTokens := promptTokens
    cachedTokens := cachedTokens
    promptImageTokens := 0
    completionAudioTokens := 0 }

/-- **Beyond 2⁵³ a token gets lost or is priced twice**: the length of 2⁵³ + 1 tokens is one less,
and of 2⁵⁴ tokens with one in a cache all are left to the rest. -/
theorem token_priced_twice :
    (promptUsage (2 ^ 53 + 1) 0).Partitioned ∧ (promptUsage (2 ^ 54) 1).Partitioned ∧
      (buildTieredTokenParams64 (promptUsage (2 ^ 53 + 1) 0) false none).len = 2 ^ 53 ∧
      (buildTieredTokenParams64 (promptUsage (2 ^ 54) 1) false (some ["p", "cr"])).p +
          (buildTieredTokenParams64 (promptUsage (2 ^ 54) 1) false (some ["p", "cr"])).used
            (some ["p", "cr"]) promptCategories = 2 ^ 54 + 1 := by
  refine ⟨?_, ?_, by decide +kernel, by decide +kernel⟩
  · constructor <;> decide
  · constructor <;> decide

/-! ### The tokens written to a cache -/

/-- What the settlement by ratios reads of a request.  The final format of the request and the type
of its channel are given by what is asked about them. -/
structure TextPricing where
  isClaudeFormat : Bool
  isOpenRouter : Bool
  usePrice : Bool
  hasCustomModelRatio : Bool
  modelRatio : ℚ
  completionRatio : ℚ
  cacheRatio : ℚ
  cacheCreationRatio : ℚ
  cacheCreation5mRatio : ℚ
  cacheCreation1hRatio : ℚ
  quotaPerUnit : ℚ
deriving DecidableEq

/-- A usage with where it comes from and what it has cost. -/
structure CostedUsage extends TieredUsage where
  usageSource : String := ""
  cost : Option ℚ := none
deriving DecidableEq

def usageSemanticFromUsage (pricing : TextPricing) (usage : CostedUsage) : String :=
  if usage.usageSemantic ≠ "" then usage.usageSemantic
  else if pricing.isClaudeFormat then "anthropic"
  else "openai"

def isLegacyClaudeDerivedOpenAIUsage (pricing : TextPricing) (usage : CostedUsage) : Bool :=
  if pricing.isClaudeFormat then false
  else if usage.usageSource ≠ "" ∨ usage.usageSemantic ≠ "" then false
  else 0 < usage.claudeCacheCreation5mTokens || 0 < usage.claudeCacheCreation1hTokens

/-- The tokens written to a cache, as they follow from what the request has cost.  A cost that is
not a number counts as zero. -/
def calcOpenRouterCacheCreateTokens (usage : CostedUsage) (pricing : TextPricing) : ℤ :=
  if pricing.cacheCreationRatio = 1 then 0
  else
    let quotaPrice := pricing.modelRatio / pricing.quotaPerUnit
    let promptCacheCreatePrice := quotaPrice * pricing.cacheCreationRatio
    let promptCacheReadPrice := quotaPrice * pricing.cacheRatio
    let completionPrice := quotaPrice * pricing.completionRatio
    quotaRound ((usage.cost.getD 0 - usage.promptTokens * quotaPrice +
      usage.cachedTokens * (quotaPrice - promptCacheReadPrice) -
      usage.completionTokens * completionPrice) / (promptCacheCreatePrice - quotaPrice))

/-- The tokens that the settlement by ratios prices. -/
structure TextQuotaTokens where
  promptTokens : ℤ
  cacheTokens : ℤ
  cacheCreationTokens : ℤ
  cacheCreationTokens5m : ℤ
  cacheCreationTokens1h : ℤ
  isClaudeUsageSemantic : Bool
  legacyClaudeDerived : Bool
deriving DecidableEq, Repr

/-- The tokens written to a cache that a usage of OpenRouter leaves to be found out. -/
def openRouterCacheCreation (pricing : TextPricing) (usage : CostedUsage) : ℤ :=
  let isUsingCustomSettings := pricing.usePrice || pricing.hasCustomModelRatio
  -- a cost that has been read from a JSON text is never equal to the integer zero
  if usage.cachedCreationTokens = 0 ∧ pricing.cacheCreationRatio ≠ 1 ∧
      isUsingCustomSettings = false then
    let maybeCacheCreationTokens := calcOpenRouterCacheCreateTokens usage pricing
    if 0 ≤ maybeCacheCreationTokens ∧
        maybeCacheCreationTokens ≤ usage.promptTokens - usage.cachedTokens then
      maybeCacheCreationTokens
    else usage.cachedCreationTokens
  else usage.cachedCreationTokens

/-- The counts of `calculateTextQuotaSummary`. -/
def textQuotaTokens (pricing : TextPricing) (usage : CostedUsage) : TextQuotaTokens :=
  let isClaudeUsageSemantic := usageSemanticFromUsage pricing usage = "anthropic"
  let isOpenRouterClaudeBilling := pricing.isOpenRouter = true ∧ isClaudeUsageSemantic
  let cacheCreationTokens :=
    if isOpenRouterClaudeBilling then openRouterCacheCreation pricing usage
    else usage.cachedCreationTokens
  { promptTokens :=
      if isOpenRouterClaudeBilling then
        usage.promptTokens - usage.cachedTokens - cacheCreationTokens
      else usage.promptTokens
    cacheTokens := usage.cachedTokens
    cacheCreationTokens := cacheCreationTokens
    cacheCreationTokens5m := usage.claudeCacheCreation5mTokens
    cacheCreationTokens1h := usage.claudeCacheCreation1hTokens
    isClaudeUsageSemantic := isClaudeUsageSemantic
    legacyClaudeDerived := isLegacyClaudeDerivedOpenAIUsage pricing usage }

/-- The tokens written to a cache that are priced, and the ratios they are priced at: what the split
leaves of the total, and the split. -/
def TextQuotaTokens.pricedCacheCreation (pricing : TextPricing) (tokens : TextQuotaTokens) :
    List (ℤ × ℚ) :=
  let hasSplitCacheCreationTokens :=
    0 < tokens.cacheCreationTokens5m ∨ 0 < tokens.cacheCreationTokens1h
  if tokens.cacheCreationTokens ≠ 0 ∨ hasSplitCacheCreationTokens then
    if tokens.isClaudeUsageSemantic = false ∧ tokens.legacyClaudeDerived = false then
      [(tokens.cacheCreationTokens, pricing.cacheCreationRatio)]
    else
      let remaining :=
        tokens.cacheCreationTokens - tokens.cacheCreationTokens5m - tokens.cacheCreationTokens1h
      [(if remaining < 0 then 0 else remaining, pricing.cacheCreationRatio),
        (tokens.cacheCreationTokens5m, pricing.cacheCreation5mRatio),
        (tokens.cacheCreationTokens1h, pricing.cacheCreation1hRatio)]
  else []

/-- The total that the log states. -/
def cacheWriteTokensTotal (tokens : TextQuotaTokens) : ℤ :=
  if 0 < tokens.cacheCreationTokens5m ∨ 0 < tokens.cacheCreationTokens1h then
    let splitCacheWriteTokens := tokens.cacheCreationTokens5m + tokens.cacheCreationTokens1h
    if splitCacheWriteTokens < tokens.cacheCreationTokens then tokens.cacheCreationTokens
    else splitCacheWriteTokens
  else tokens.cacheCreationTokens

/-- All tokens written to a cache: the total, or the split if it is more. -/
def TieredUsage.cacheCreationTotal (usage : TieredUsage) : ℤ :=
  max usage.cachedCreationTokens
    (usage.claudeCacheCreation5mTokens + usage.claudeCacheCreation1hTokens)

/-- **Both settlements price all tokens written to a cache**, and the length of the context counts
them. -/
def BilledInFull (pricing : TextPricing) (usage : CostedUsage) (usedVars : Option (List String)) :
    Prop :=
  let tokens := textQuotaTokens pricing usage
  let params := buildTieredTokenParams usage.toTieredUsage tokens.isClaudeUsageSemantic usedVars
  let priced := ((tokens.pricedCacheCreation pricing).map Prod.fst).sum
  params.cc + params.cc1h = priced ∧ params.cc + params.cc1h = usage.cacheCreationTotal ∧
    priced = usage.cacheCreationTotal ∧
    params.len = usage.promptTokens + usage.cachedTokens + usage.cacheCreationTotal

/-- **The condition**: if the usage says that it is Claude's, the split is at least the total,
otherwise at most; and no tokens beyond the split are found out from the cost. -/
def CompleteSplit (pricing : TextPricing) (usage : CostedUsage) : Prop :=
  let split := usage.claudeCacheCreation5mTokens + usage.claudeCacheCreation1hTokens
  (if usage.usageSemantic = "anthropic" then usage.cachedCreationTokens ≤ split
    else split ≤ usage.cachedCreationTokens) ∧
    (pricing.isOpenRouter = true → usage.cachedCreationTokens = 0 →
      openRouterCacheCreation pricing usage ≤ max split 0)

instance (pricing : TextPricing) (usage : CostedUsage) : Decidable (CompleteSplit pricing usage) :=
  inferInstanceAs (Decidable (_ ∧ _))

/-- What is priced of a total and a split of it. -/
theorem sum_pricedCacheCreation (pricing : TextPricing) {tokens : TextQuotaTokens}
    (hclaude : tokens.isClaudeUsageSemantic = true) :
    ((tokens.pricedCacheCreation pricing).map Prod.fst).sum =
      if tokens.cacheCreationTokens ≠ 0 ∨ 0 < tokens.cacheCreationTokens5m ∨
          0 < tokens.cacheCreationTokens1h then
        max tokens.cacheCreationTokens
          (tokens.cacheCreationTokens5m + tokens.cacheCreationTokens1h)
      else 0 := by
  unfold TextQuotaTokens.pricedCacheCreation
  by_cases hany : tokens.cacheCreationTokens ≠ 0 ∨ 0 < tokens.cacheCreationTokens5m ∨
      0 < tokens.cacheCreationTokens1h
  · simp only [if_pos hany, hclaude, Bool.true_eq_false, false_and, if_false, List.map_cons,
      List.map_nil, List.sum_cons, List.sum_nil]
    split
    · omega
    · omega
  · simp only [if_neg hany, List.map_nil, List.sum_nil]

/-- What the cost tells is a number of tokens. -/
theorem openRouterCacheCreation_nonneg {pricing : TextPricing} {usage : CostedUsage}
    (h : usage.cachedCreationTokens = 0) : 0 ≤ openRouterCacheCreation pricing usage := by
  unfold openRouterCacheCreation
  simp only [h]
  split
  · split
    · rename_i hestimate
      exact hestimate.1
    · exact Int.le_refl 0
  · exact Int.le_refl 0

theorem openRouterCacheCreation_of_ne {pricing : TextPricing} {usage : CostedUsage}
    (h : usage.cachedCreationTokens ≠ 0) :
    openRouterCacheCreation pricing usage = usage.cachedCreationTokens := by
  unfold openRouterCacheCreation
  rw [if_neg fun hzero => h hzero.1]

/-- The total that the settlement by ratios prices. -/
theorem cacheCreationTokens_eq {pricing : TextPricing} {usage : CostedUsage}
    (hsemantic : usageSemanticFromUsage pricing usage = "anthropic") :
    (textQuotaTokens pricing usage).cacheCreationTokens =
      if pricing.isOpenRouter = true ∧ usage.cachedCreationTokens = 0 then
        openRouterCacheCreation pricing usage
      else usage.cachedCreationTokens := by
  simp only [textQuotaTokens, hsemantic, and_true]
  by_cases hrouter : pricing.isOpenRouter = true
  · by_cases hzero : usage.cachedCreationTokens = 0
    · rw [if_pos hrouter, if_pos ⟨hrouter, hzero⟩]
    · rw [if_pos hrouter, if_neg fun h => hzero h.2, openRouterCacheCreation_of_ne hzero]
  · rw [if_neg hrouter, if_neg fun h => hrouter h.1]

/-- A request in Claude's format, with ratios for what is written to a cache. -/
def claudePricing : TextPricing where
  isClaudeFormat := true
  isOpenRouter := false
  usePrice := false
  hasCustomModelRatio := false
  modelRatio := 1
  completionRatio := 5
  cacheRatio := 1 / 10
  cacheCreationRatio := 5 / 4
  cacheCreation5mRatio := 5 / 4
  cacheCreation1hRatio := 2
  quotaPerUnit := 500000

/-- Claude's usage, with a total of tokens written to a cache and a split of it. -/
def claudeUsage (total tokens5m tokens1h : ℤ) : CostedUsage :=
  { gptUsage with
    cachedCreationTokens := total
    promptImageTokens := 0
    completionAudioTokens := 0
    usageSemantic := "anthropic"
    claudeCacheCreation5mTokens := tokens5m
    claudeCacheCreation1hTokens := tokens1h }

end NewApi
