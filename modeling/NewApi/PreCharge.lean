/-
**The quota that is taken before a request is sent.**

A request may name the most tokens that its answer may have, and these are paid for in advance.  The
number is unsigned in the body of a request and signed from then on; one format bounds one of its
fields, the others bound none.  The quota is a product of doubles, cut off after the point.

Main definitions:

* `NewApi.RequestBody`, `NewApi.getAndValidateRequest` — the bodies, and which are accepted;
* `NewApi.RequestBody.tokenCountMeta` — what the pricing reads of a body;
* `NewApi.quotaToPreConsume` — the quota of `ModelPriceHelper`;
* `NewApi.doubleProduct`, `NewApi.exactProduct` — the product of doubles it is cut off from, for a
  number of tokens without bounds, and the exact one;
* `NewApi.PreChargeSound`, `NewApi.BoundedTokens` — what is to be shown, and its condition.

Main results:

* `NewApi.pre_charge_sound` — **the quota is that product, not negative, and grows with the number of
  tokens**;
* `NewApi.negative_pre_charge` — a request that is credited what it should pay, and one that is
  charged one unit too many.
-/

import NewApi.Lib.Doubles
import NewApi.Remix

set_option autoImplicit false

namespace NewApi

/-! ### Bodies -/

/-- A field that takes any value. -/
inductive AnyField where
  | absent
  | text (value : String)
  | other
deriving DecidableEq

inductive TextRelayMode where
  | chatCompletions
  | completions
  | embeddings
  | moderations
  | edits
  | other
deriving DecidableEq

/-- A text request in the format of OpenAI.  The number of its messages is what is checked of them. -/
structure GeneralOpenAIRequest where
  model : String
  messages : ℕ
  prompt : AnyField
  fimPrefix : AnyField
  fimSuffix : AnyField
  input : AnyField
  instruction : String
  searchContextSize : Option String
  maxTokens : Option UInt64
  maxCompletionTokens : Option UInt64

structure ClaudeRequest where
  model : String
  messages : ℕ
  maxTokens : Option UInt64

structure OpenAIResponsesRequest where
  model : String
  input : AnyField
  maxOutputTokens : Option UInt64

/-- A request in the format of Gemini, with the two spellings of its field. -/
structure GeminiChatRequest where
  contents : ℕ
  requests : ℕ
  maxOutputTokens : Option UInt64
  maxOutputTokensSnake : Option UInt64

/-- A decoded body. -/
inductive RequestBody where
  | openAI (relayMode : TextRelayMode) (pathModel : String) (request : GeneralOpenAIRequest)
  | claude (request : ClaudeRequest)
  | responses (request : OpenAIResponsesRequest)
  | gemini (request : GeminiChatRequest)
  | geminiEmbedding

/-- The model of a request that names none. -/
def GeneralOpenAIRequest.withDefaultModel (relayMode : TextRelayMode) (pathModel : String)
    (request : GeneralOpenAIRequest) : GeneralOpenAIRequest :=
  if request.model ≠ "" then request
  else
    match relayMode with
    | .moderations => { request with model := "text-moderation-latest" }
    | .embeddings => { request with model := pathModel }
    | _ => request

def checkSearchContextSize (request : GeneralOpenAIRequest) : Except String GeneralOpenAIRequest :=
  match request.searchContextSize with
  | none => .ok request
  | some "" => .ok { request with searchContextSize := some "medium" }
  | some size =>
    if size = "high" ∨ size = "medium" ∨ size = "low" then .ok request
    else .error "invalid search_context_size, must be one of: high, medium, low"

/-- What a request must have depends on what is asked for. -/
def checkRelayMode (relayMode : TextRelayMode) (request : GeneralOpenAIRequest) :
    Except String GeneralOpenAIRequest :=
  match relayMode with
  | .completions =>
    if request.prompt = .text "" then .error "field prompt is required" else .ok request
  | .chatCompletions =>
    if request.messages = 0 ∧ request.fimPrefix = .absent ∧ request.fimSuffix = .absent then
      .error "field messages is required"
    else .ok request
  | .moderations =>
    if request.input = .absent ∨ request.input = .text "" then .error "field input is required"
    else .ok request
  | .edits =>
    if request.instruction = "" then .error "field instruction is required" else .ok request
  | .embeddings | .other => .ok request

def getAndValidateTextRequest (relayMode : TextRelayMode) (pathModel : String)
    (textRequest : GeneralOpenAIRequest) : Except String GeneralOpenAIRequest :=
  let textRequest := textRequest.withDefaultModel relayMode pathModel
  -- half of the largest number of 32 bits; the other field is not looked at
  if (2 ^ 31 - 1) / 2 < (textRequest.maxTokens.getD 0).toNat then .error "max_tokens is invalid"
  else if textRequest.model = "" then .error "model is required"
  else
    match checkSearchContextSize textRequest with
    | .error err => .error err
    | .ok textRequest => checkRelayMode relayMode textRequest

def getAndValidateClaudeRequest (textRequest : ClaudeRequest) : Except String ClaudeRequest :=
  if textRequest.messages = 0 then .error "field messages is required"
  else if textRequest.model = "" then .error "field model is required"
  else .ok textRequest

def getAndValidateResponsesRequest (request : OpenAIResponsesRequest) :
    Except String OpenAIResponsesRequest :=
  if request.model = "" then .error "model is required"
  else if request.input = .absent then .error "input is required"
  else .ok request

def getAndValidateGeminiRequest (request : GeminiChatRequest) : Except String GeminiChatRequest :=
  if request.contents = 0 ∧ request.requests = 0 then .error "contents is required"
  else .ok request

def getAndValidateRequest : RequestBody → Except String RequestBody
  | .openAI relayMode pathModel request =>
    (getAndValidateTextRequest relayMode pathModel request).map (.openAI relayMode pathModel)
  | .claude request => (getAndValidateClaudeRequest request).map .claude
  | .responses request => (getAndValidateResponsesRequest request).map .responses
  | .gemini request => (getAndValidateGeminiRequest request).map .gemini
  | .geminiEmbedding => .ok .geminiEmbedding

/-! ### What the pricing reads -/

/-- An unsigned number of 64 bits as a signed one. -/
def intOfUint (x : UInt64) : ℤ := wrap64 x.toNat

structure TokenCountMeta where
  maxTokens : ℤ
  imagePriceRatio : ℚ

/-- The number of tokens that a body names.  The count of the tokens of a prompt may be turned off,
and Gemini's field is not read then. -/
def RequestBody.maxTokensField (counted : Bool) : RequestBody → UInt64
  | .openAI _ _ request =>
    let maxTokens := request.maxTokens.getD 0
    let maxCompletionTokens := request.maxCompletionTokens.getD 0
    if maxTokens < maxCompletionTokens then maxCompletionTokens else maxTokens
  | .claude request => request.maxTokens.getD 0
  | .responses request => request.maxOutputTokens.getD 0
  | .gemini request =>
    if counted then (request.maxOutputTokensSnake.or request.maxOutputTokens).getD 0 else 0
  | .geminiEmbedding => 0

/-- `GetTokenCountMeta`, or `fastTokenCountMetaForPricing` where nothing is counted. -/
def RequestBody.tokenCountMeta (counted : Bool) (request : RequestBody) : TokenCountMeta where
  maxTokens := intOfUint (request.maxTokensField counted)
  imagePriceRatio := 0

@[simp] theorem tokenCountMeta_maxTokens (counted : Bool) (request : RequestBody) :
    (request.tokenCountMeta counted).maxTokens = intOfUint (request.maxTokensField counted) := by
  simp only [RequestBody.tokenCountMeta]

/-! ### The quota -/

/-- How a model is billed: by a price, by a ratio, which may not have been set, or by an expression of
the tokens of the prompt and the completion, which may fail, or come to no finite number. -/
inductive ModelBilling where
  | price (modelPrice : ℚ)
  | ratio (modelRatio : ℚ) (success acceptUnsetRatio : Bool)
  | tieredExpr (runExpr : RequestBody → ℤ → ℤ → Option (Option ℚ))

structure PreChargeSettings where
  quotaPerUnit : ℚ
  preConsumedQuota : Int64
  enableFreeModelPreConsume : Bool
  groupRatio : ℚ
  billing : ModelBilling

/-- A whole number of a double as one of 64 bits.  One that does not fit becomes the smallest, as it
does on amd64. -/
def intOfDouble (x : Option ℚ) (whole : ℚ → ℤ) : ℤ :=
  match x with
  | none => -2 ^ 63
  | some x => if -2 ^ 63 ≤ whole x ∧ whole x < 2 ^ 63 then whole x else -2 ^ 63

namespace PreChargeSettings

variable (settings : PreChargeSettings)

/-- A model that is free may be taken nothing for. -/
def unlessFree (price : Option ℚ) (quota : ℤ) : ℤ :=
  if settings.enableFreeModelPreConsume = false ∧ (settings.groupRatio = 0 ∨ price = some 0) then 0
  else quota

def ratioProduct (modelRatio : ℚ) (tokens : ℤ) : Option ℚ :=
  Doubles.mul (Doubles.ofRat tokens) (Doubles.ofRat (modelRatio * settings.groupRatio))

def priceProduct (modelPrice : Option ℚ) : Option ℚ :=
  Doubles.mul (Doubles.mul modelPrice (some settings.quotaPerUnit)) (some settings.groupRatio)

/-- What an expression has come to, as quota. -/
def tieredProduct (rawCost : Option ℚ) : Option ℚ :=
  Doubles.mul
    (Doubles.mul (rawCost.bind fun cost => Doubles.ofRat (cost / 1000000))
      (some settings.quotaPerUnit))
    (some settings.groupRatio)

end PreChargeSettings

def preConsumedTokens (settings : PreChargeSettings) (promptTokens : Int64)
    (tokenMeta : TokenCountMeta) : ℤ :=
  let preConsumedTokens := max promptTokens.toInt settings.preConsumedQuota.toInt
  if tokenMeta.maxTokens ≠ 0 then wrap64 (preConsumedTokens + tokenMeta.maxTokens)
  else preConsumedTokens

def modelPriceHelperTiered (settings : PreChargeSettings)
    (runExpr : ℤ → ℤ → Option (Option ℚ)) (promptTokens : Int64) (tokenMeta : TokenCountMeta) :
    Option ℤ :=
  let estimatedCompletionTokens := if tokenMeta.maxTokens ≠ 0 then tokenMeta.maxTokens else 0
  (runExpr promptTokens.toInt estimatedCompletionTokens).map fun rawCost =>
    let preConsumedQuota := intOfDouble (settings.tieredProduct rawCost) quotaRound
    if settings.enableFreeModelPreConsume = false ∧ settings.groupRatio = 0 then 0
    else preConsumedQuota

/-- The `QuotaToPreConsume` of `ModelPriceHelper`, which fails for a model without a ratio. -/
def quotaToPreConsume (settings : PreChargeSettings) (request : RequestBody)
    (promptTokens : Int64) (tokenMeta : TokenCountMeta) : Option ℤ :=
  match settings.billing with
  | .tieredExpr runExpr =>
    modelPriceHelperTiered settings (runExpr request) promptTokens tokenMeta
  | .ratio modelRatio success acceptUnsetRatio =>
    if success = false ∧ acceptUnsetRatio = false then none
    else
      some (settings.unlessFree (some modelRatio)
        (intOfDouble (settings.ratioProduct modelRatio
          (preConsumedTokens settings promptTokens tokenMeta)) truncQuota))
  | .price modelPrice =>
    let modelPrice :=
      if tokenMeta.imagePriceRatio ≠ 0 then
        Doubles.mul (some modelPrice) (some tokenMeta.imagePriceRatio)
      else some modelPrice
    some (settings.unlessFree modelPrice
      (intOfDouble (settings.priceProduct modelPrice) truncQuota))

/-- The tokens that are paid for in advance, without bounds. -/
def exactTokens (settings : PreChargeSettings) (promptTokens : Int64) (maxTokens : ℕ) : ℤ :=
  max promptTokens.toInt settings.preConsumedQuota.toInt + maxTokens

/-- **The product of doubles** for a number of tokens without bounds; none where the pricing fails. -/
def doubleProduct (settings : PreChargeSettings) (request : RequestBody) (promptTokens : Int64)
    (maxTokens : ℕ) : Option (Option ℚ) :=
  match settings.billing with
  | .tieredExpr runExpr =>
    (runExpr request promptTokens.toInt maxTokens).map settings.tieredProduct
  | .ratio modelRatio success acceptUnsetRatio =>
    if success = false ∧ acceptUnsetRatio = false then none
    else some (settings.ratioProduct modelRatio (exactTokens settings promptTokens maxTokens))
  | .price modelPrice => some (settings.priceProduct (some modelPrice))

/-- How a product becomes a whole number: that of an expression is rounded. -/
def PreChargeSettings.whole (settings : PreChargeSettings) (x : ℚ) : ℤ :=
  match settings.billing with
  | .tieredExpr _ => quotaRound x
  | _ => truncQuota x

/-- **The exact product** of a price or a ratio. -/
def exactProduct (settings : PreChargeSettings) (promptTokens : Int64) (maxTokens : ℕ) : Option ℚ :=
  match settings.billing with
  | .tieredExpr _ => none
  | .ratio modelRatio _ _ =>
    some (exactTokens settings promptTokens maxTokens * (modelRatio * settings.groupRatio))
  | .price modelPrice => some (modelPrice * settings.quotaPerUnit * settings.groupRatio)

/-! ### The property and its condition -/

/-- The same body with other numbers of tokens: those of its two fields, or of the two spellings of
its field. -/
def RequestBody.withMaxTokens (first second : Option UInt64) : RequestBody → RequestBody
  | .openAI relayMode pathModel request =>
    .openAI relayMode pathModel
      { request with
        maxTokens := first
        maxCompletionTokens := second }
  | .claude request => .claude { request with maxTokens := first }
  | .responses request => .responses { request with maxOutputTokens := first }
  | .gemini request =>
    .gemini
      { request with
        maxOutputTokens := first
        maxOutputTokensSnake := second }
  | .geminiEmbedding => .geminiEmbedding

/-- The quota that a body is charged in advance. -/
def RequestBody.preCharge (settings : PreChargeSettings) (counted : Bool) (promptTokens : Int64)
    (request : RequestBody) : Option ℤ :=
  quotaToPreConsume settings request promptTokens (request.tokenCountMeta counted)

def RequestBody.doubleProduct (settings : PreChargeSettings) (counted : Bool)
    (promptTokens : Int64) (request : RequestBody) : Option (Option ℚ) :=
  NewApi.doubleProduct settings request promptTokens (request.maxTokensField counted).toNat

/-- **What is to be shown**: the number of tokens is not negative; the quota is the product of doubles,
as a whole number, and for a price or a ratio close to the exact product; it is not negative, and not
smaller than that of the same body with a smaller number of tokens. -/
structure PreChargeSound (settings : PreChargeSettings) (counted : Bool) (promptTokens : Int64)
    (request : RequestBody) : Prop where
  maxTokens : 0 ≤ (request.tokenCountMeta counted).maxTokens
  product : request.preCharge settings counted promptTokens =
    (request.doubleProduct settings counted promptTokens).bind fun product =>
      product.map settings.whole
  close : ∀ quota exact, request.preCharge settings counted promptTokens = some quota →
    exactProduct settings promptTokens (request.maxTokensField counted).toNat = some exact →
      |quota - exact| ≤ exact / 2 ^ 51 + 2
  nonneg : ∀ quota, request.preCharge settings counted promptTokens = some quota → 0 ≤ quota
  mono : ∀ first second, (request.withMaxTokens first second).maxTokensField counted ≤
      request.maxTokensField counted →
    ∀ quota quota', request.preCharge settings counted promptTokens = some quota →
      (request.withMaxTokens first second).preCharge settings counted promptTokens = some quota' →
        quota' ≤ quota

/-- The number of tokens as far as it is not checked: `max_tokens` is, in the format of OpenAI. -/
def RequestBody.uncheckedField (counted : Bool) : RequestBody → UInt64
  | .openAI _ _ request => request.maxCompletionTokens.getD 0
  | request => request.maxTokensField counted

/-- **The condition**: what is not checked fits into 63 bits, and so do the tokens that a ratio is
applied to; the product of doubles fits; and an expression does not itself come to less for more
tokens. -/
structure BoundedTokens (settings : PreChargeSettings) (counted : Bool) (promptTokens : Int64)
    (request : RequestBody) : Prop where
  unchecked : (request.uncheckedField counted).toNat < 2 ^ 63
  tokens : ∀ modelRatio success acceptUnsetRatio,
    settings.billing = .ratio modelRatio success acceptUnsetRatio →
      exactTokens settings promptTokens (request.maxTokensField counted).toNat < 2 ^ 63
  fits : ∀ product, request.doubleProduct settings counted promptTokens = some product →
    ∃ x, product = some x ∧ settings.whole x < 2 ^ 63
  expression : ∀ runExpr, settings.billing = .tieredExpr runExpr →
    ∀ first second, (request.withMaxTokens first second).maxTokensField counted ≤
        request.maxTokensField counted →
      ∀ cost cost', runExpr request promptTokens.toInt (request.maxTokensField counted).toNat =
          some (some cost) →
        runExpr (request.withMaxTokens first second) promptTokens.toInt
            ((request.withMaxTokens first second).maxTokensField counted).toNat =
          some (some cost') → cost' ≤ cost

/-- No price and no ratio is negative, and no expression comes to less than nothing; the ratio of the
group is a double. -/
structure PreChargeSettings.NonNegative (settings : PreChargeSettings) : Prop where
  quotaPerUnit : 0 ≤ settings.quotaPerUnit
  groupRatio : 0 ≤ settings.groupRatio
  finite : settings.groupRatio < 2 ^ 1024
  billing :
    match settings.billing with
    | .price modelPrice => 0 ≤ modelPrice
    | .ratio modelRatio _ _ => 0 ≤ modelRatio
    | .tieredExpr runExpr => ∀ request p c cost, 0 ≤ p → 0 ≤ c →
        runExpr request p c = some (some cost) → 0 ≤ cost

/-! ### Numbers of 64 bits -/

/-- A number is read as one that is not negative exactly if it fits into 63 bits. -/
theorem intOfUint_nonneg_iff (x : UInt64) : 0 ≤ intOfUint x ↔ x.toNat < 2 ^ 63 := by
  have hlt := x.toNat_lt
  unfold intOfUint
  by_cases h : x.toNat < 2 ^ 63
  · rw [wrap64_of_lt (by omega) (by omega)]
    omega
  · rw [wrap64_of_ge (by omega) (by omega)]
    omega

theorem intOfUint_of_lt {x : UInt64} (h : x.toNat < 2 ^ 63) : intOfUint x = x.toNat :=
  wrap64_of_lt (by omega) (by omega)

/-! ### The tokens that are paid for -/

section Tokens

variable {settings : PreChargeSettings} {promptTokens : Int64}

/-- The tokens are the exact ones, as a number of 64 bits. -/
theorem preConsumedTokens_eq (counted : Bool) (request : RequestBody) :
    preConsumedTokens settings promptTokens (request.tokenCountMeta counted) =
      wrap64 (exactTokens settings promptTokens (request.maxTokensField counted).toNat) := by
  have hlow := Int64.le_toInt promptTokens
  have hhigh := Int64.toInt_lt promptTokens
  have hlow' := Int64.le_toInt settings.preConsumedQuota
  have hhigh' := Int64.toInt_lt settings.preConsumedQuota
  have hlt := (request.maxTokensField counted).toNat_lt
  unfold preConsumedTokens exactTokens
  simp only [tokenCountMeta_maxTokens, intOfUint]
  by_cases hzero : wrap64 (request.maxTokensField counted).toNat = 0
  · have hnone : (request.maxTokensField counted).toNat = 0 := by
      by_cases hsmall : (request.maxTokensField counted).toNat < 2 ^ 63
      · rw [wrap64_of_lt (by omega) (by omega)] at hzero
        omega
      · rw [wrap64_of_ge (by omega) (by omega)] at hzero
        omega
    simp only [hzero, ne_eq, not_true_eq_false, if_false]
    rw [hnone, Nat.cast_zero, add_zero]
    unfold wrap64
    rw [Int.bmod_eq_of_le] <;> omega
  · simp only [ne_eq, hzero, not_false_eq_true, if_true]
    exact wrap64_add_wrap64 _ _

theorem exactTokens_nonneg (hprompt : 0 ≤ promptTokens.toInt) (maxTokens : ℕ) :
    0 ≤ exactTokens settings promptTokens maxTokens := by
  unfold exactTokens
  omega

theorem exactTokens_mono {a b : ℕ} (h : a ≤ b) :
    exactTokens settings promptTokens a ≤ exactTokens settings promptTokens b := by
  unfold exactTokens
  omega

theorem truncQuota_nonneg {x : ℚ} (h : 0 ≤ x) : 0 ≤ truncQuota x := by
  rw [truncQuota, if_pos h]
  exact Int.floor_nonneg.2 h

theorem truncQuota_nonpos {x : ℚ} (h : x ≤ 0) : truncQuota x ≤ 0 := by
  unfold truncQuota
  split
  · rename_i hnonneg
    rw [le_antisymm h hnonneg, Int.floor_zero]
  · exact Int.ceil_le.2 (by exact_mod_cast h)

theorem truncQuota_mono {x y : ℚ} (h : x ≤ y) : truncQuota x ≤ truncQuota y := by
  by_cases hx : 0 ≤ x
  · rw [truncQuota, truncQuota, if_pos hx, if_pos (hx.trans h)]
    exact Int.floor_le_floor h
  · by_cases hy : 0 ≤ y
    · exact (truncQuota_nonpos (not_le.1 hx).le).trans (truncQuota_nonneg hy)
    · rw [truncQuota, truncQuota, if_neg hx, if_neg hy]
      exact Int.ceil_le_ceil h

theorem truncQuota_error {x : ℚ} (h : 0 ≤ x) : |(truncQuota x : ℚ) - x| ≤ 1 := by
  have hlow := Int.floor_le x
  have hhigh := Int.lt_floor_add_one x
  rw [truncQuota, if_pos h, abs_le]
  constructor <;> linarith

end Tokens

/-! ### The quota -/

section Quota

variable {settings : PreChargeSettings} {counted : Bool} {promptTokens : Int64}
  {request : RequestBody}

theorem intOfDouble_of_fits {x : ℚ} {whole : ℚ → ℤ} (hnonneg : 0 ≤ whole x)
    (hfits : whole x < 2 ^ 63) : intOfDouble (some x) whole = whole x :=
  if_pos ⟨by omega, hfits⟩

/-- A model that is free is charged nothing anyway. -/
theorem unlessFree_eq {price : Option ℚ} {quota : ℤ}
    (hzero : settings.groupRatio = 0 ∨ price = some 0 → quota = 0) :
    settings.unlessFree price quota = quota := by
  unfold PreChargeSettings.unlessFree
  split
  · rename_i hfree
    exact (hzero hfree.2).symm
  · rfl

theorem priceProduct_eq_some {modelPrice x : ℚ}
    (h : settings.priceProduct (some modelPrice) = some x) :
    ∃ price, Doubles.ofRat (modelPrice * settings.quotaPerUnit) = some price ∧
      Doubles.ofRat (price * settings.groupRatio) = some x := by
  obtain ⟨price, group, hprice, hgroup, hx⟩ := Doubles.mul_eq_some.1 h
  obtain ⟨model, unit, hmodel, hunit, hprice⟩ := Doubles.mul_eq_some.1 hprice
  obtain rfl := Option.some.inj hgroup
  obtain rfl := Option.some.inj hmodel
  obtain rfl := Option.some.inj hunit
  exact ⟨price, hprice, hx⟩

theorem priceProduct_nonneg {modelPrice x : ℚ} (h : settings.NonNegative) (hprice : 0 ≤ modelPrice)
    (hx : settings.priceProduct (some modelPrice) = some x) : 0 ≤ x := by
  obtain ⟨price, hmul, hx⟩ := priceProduct_eq_some hx
  have hprice := Doubles.ofRat_nonneg (mul_nonneg hprice h.quotaPerUnit) hmul
  exact Doubles.ofRat_nonneg (mul_nonneg hprice h.groupRatio) hx

/-- What is less for a smaller cost. -/
theorem tieredProduct_mono {cost cost' x : ℚ} (h : settings.NonNegative) (hcost : 0 ≤ cost')
    (hle : cost' ≤ cost) (hx : settings.tieredProduct (some cost) = some x) :
    ∃ x', settings.tieredProduct (some cost') = some x' ∧ 0 ≤ x' ∧ x' ≤ x := by
  obtain ⟨before, group, hbefore, hgroup, hx⟩ := Doubles.mul_eq_some.1 hx
  obtain ⟨million, unit, hmillion, hunit, hbefore⟩ := Doubles.mul_eq_some.1 hbefore
  obtain rfl := Option.some.inj hgroup
  obtain rfl := Option.some.inj hunit
  rw [Option.bind_some] at hmillion
  obtain ⟨million', hmillion', hpos, hless⟩ := Doubles.ofRat_mono
    (by positivity : 0 ≤ cost' / 1000000) (by linarith) hmillion
  obtain ⟨before', hbefore', hpos, hless⟩ := Doubles.ofRat_mono
    (mul_nonneg hpos h.quotaPerUnit) (mul_le_mul_of_nonneg_right hless h.quotaPerUnit) hbefore
  obtain ⟨x', hx', hpos, hless⟩ := Doubles.ofRat_mono
    (mul_nonneg hpos h.groupRatio) (mul_le_mul_of_nonneg_right hless h.groupRatio) hx
  refine ⟨x', Doubles.mul_eq_some.2 ⟨before', _, Doubles.mul_eq_some.2 ⟨million', _, ?_, rfl,
    hbefore'⟩, rfl, hx'⟩, hpos, hless⟩
  exact hmillion'

/-- What is less for fewer tokens. -/
theorem ratioProduct_mono {modelRatio x : ℚ} {tokens tokens' : ℤ} (h : settings.NonNegative)
    (hratio : 0 ≤ modelRatio) (htokens : 0 ≤ tokens') (hle : tokens' ≤ tokens)
    (hx : settings.ratioProduct modelRatio tokens = some x) :
    ∃ x', settings.ratioProduct modelRatio tokens' = some x' ∧ 0 ≤ x' ∧ x' ≤ x := by
  obtain ⟨count, ratio, hcount, hratio', hx⟩ := Doubles.mul_eq_some.1 hx
  have hpos := Doubles.ofRat_nonneg (mul_nonneg hratio h.groupRatio) hratio'
  have htokens' : (0 : ℚ) ≤ tokens' := by exact_mod_cast htokens
  have hle' : (tokens' : ℚ) ≤ tokens := by exact_mod_cast hle
  obtain ⟨count', hcount', hpos', hless⟩ := Doubles.ofRat_mono htokens' hle' hcount
  obtain ⟨x', hx', hxpos, hless⟩ := Doubles.ofRat_mono
    (mul_nonneg hpos' hpos) (mul_le_mul_of_nonneg_right hless hpos) hx
  exact ⟨x', Doubles.mul_eq_some.2 ⟨count', ratio, hcount', hratio', hx'⟩, hxpos, hless⟩

theorem maxTokens_nonneg_iff : 0 ≤ (request.tokenCountMeta counted).maxTokens ↔
    (request.maxTokensField counted).toNat < 2 ^ 63 := by
  rw [tokenCountMeta_maxTokens, intOfUint_nonneg_iff]

/-- The expression is given the number of tokens, and what it comes to is charged. -/
theorem modelPriceHelperTiered_eq {runExpr : ℤ → ℤ → Option (Option ℚ)}
    {tokenMeta : TokenCountMeta} :
    modelPriceHelperTiered settings runExpr promptTokens tokenMeta =
      (runExpr promptTokens.toInt tokenMeta.maxTokens).map fun rawCost =>
        if settings.enableFreeModelPreConsume = false ∧ settings.groupRatio = 0 then 0
        else intOfDouble (settings.tieredProduct rawCost) quotaRound := by
  have hsame : (if tokenMeta.maxTokens ≠ 0 then tokenMeta.maxTokens else 0) =
      tokenMeta.maxTokens := by
    split
    · rfl
    · rename_i hzero
      exact (not_not.1 hzero).symm
  unfold modelPriceHelperTiered
  simp only [hsame]

/-! ### The three ways of billing -/

/-- A request that has a price is charged it, however many tokens it names. -/
theorem sound_price {modelPrice : ℚ} (h : settings.NonNegative)
    (hfield : (request.maxTokensField counted).toNat < 2 ^ 63)
    (hbilling : settings.billing = .price modelPrice)
    (hbound : BoundedTokens settings counted promptTokens request) :
    PreChargeSound settings counted promptTokens request := by
  have hprice : 0 ≤ modelPrice := by
    have hbill := h.billing
    rw [hbilling] at hbill
    exact hbill
  have hproduct : ∀ request : RequestBody, request.doubleProduct settings counted promptTokens =
      some (settings.priceProduct (some modelPrice)) := by
    intro request
    simp only [RequestBody.doubleProduct, doubleProduct, hbilling]
  have hwhole : settings.whole = truncQuota := by
    funext x
    simp only [PreChargeSettings.whole, hbilling]
  obtain ⟨x, hx, hfits⟩ := hbound.fits _ (hproduct request)
  rw [hwhole] at hfits
  have hpos := priceProduct_nonneg h hprice hx
  obtain ⟨price, hmul, hgroup⟩ := priceProduct_eq_some hx
  have hcharge : ∀ request : RequestBody,
      request.preCharge settings counted promptTokens = some (truncQuota x) := by
    intro request
    simp only [RequestBody.preCharge, quotaToPreConsume, hbilling, RequestBody.tokenCountMeta,
      ne_eq, not_true_eq_false, if_false, hx,
      intOfDouble_of_fits (truncQuota_nonneg hpos) hfits, Option.some.injEq]
    refine unlessFree_eq fun hzero => ?_
    have hnone : price * settings.groupRatio = 0 := by
      rcases hzero with hzero | hzero
      · rw [hzero, mul_zero]
      · rw [Option.some.inj hzero, zero_mul, Doubles.ofRat_zero] at hmul
        rw [← Option.some.inj hmul, zero_mul]
    rw [hnone, Doubles.ofRat_zero] at hgroup
    rw [← Option.some.inj hgroup]
    rfl
  refine ⟨maxTokens_nonneg_iff.2 hfield, ?_, ?_, ?_, ?_⟩
  · rw [hcharge, hproduct, hx, hwhole]
    rfl
  · intro quota exact hquota hexact
    rw [hcharge] at hquota
    simp only [exactProduct, hbilling, Option.some.injEq] at hexact
    have hmodel := mul_nonneg hprice h.quotaPerUnit
    have herr := Doubles.rounded_mul_error hmodel h.groupRatio
      (Doubles.ofRat_nonneg hmodel hmul) h.groupRatio (Doubles.lt_of_ofRat hmodel hmul)
      (h.finite.trans (pow_lt_pow_right₀ one_lt_two (by norm_num)))
      (Doubles.ofRat_eq hmul ▸ Doubles.rounded_error hmodel)
      (by rw [sub_self, abs_zero]; have := h.groupRatio; positivity)
    rw [← Doubles.ofRat_eq hgroup] at herr
    rw [← Option.some.inj hquota, ← hexact]
    exact (abs_sub_le _ x _).trans (by linarith [truncQuota_error hpos])
  · intro quota hquota
    rw [hcharge] at hquota
    rw [← Option.some.inj hquota]
    exact truncQuota_nonneg hpos
  · intro first second _ quota quota' hquota hquota'
    rw [hcharge] at hquota hquota'
    rw [Option.some.inj (hquota.symm.trans hquota')]

theorem sound_ratio {modelRatio : ℚ} {success acceptUnsetRatio : Bool} (h : settings.NonNegative)
    (hprompt : 0 ≤ promptTokens.toInt) (hfield : (request.maxTokensField counted).toNat < 2 ^ 63)
    (hbilling : settings.billing = .ratio modelRatio success acceptUnsetRatio)
    (hbound : BoundedTokens settings counted promptTokens request) :
    PreChargeSound settings counted promptTokens request := by
  have hratio : 0 ≤ modelRatio := by
    have hbill := h.billing
    rw [hbilling] at hbill
    exact hbill
  have hproduct : ∀ request : RequestBody, request.doubleProduct settings counted promptTokens =
      if success = false ∧ acceptUnsetRatio = false then none
      else some (settings.ratioProduct modelRatio
        (exactTokens settings promptTokens (request.maxTokensField counted).toNat)) := by
    intro request
    simp only [RequestBody.doubleProduct, doubleProduct, hbilling]
  have hwhole : settings.whole = truncQuota := by
    funext x
    simp only [PreChargeSettings.whole, hbilling]
  have hcharge : ∀ request : RequestBody, request.preCharge settings counted promptTokens =
      if success = false ∧ acceptUnsetRatio = false then none
      else some (settings.unlessFree (some modelRatio) (intOfDouble (settings.ratioProduct modelRatio
        (wrap64 (exactTokens settings promptTokens (request.maxTokensField counted).toNat)))
          truncQuota)) := by
    intro request
    simp only [RequestBody.preCharge, quotaToPreConsume, hbilling, preConsumedTokens_eq]
  by_cases hfail : success = false ∧ acceptUnsetRatio = false
  · have hnone : ∀ request : RequestBody,
        request.preCharge settings counted promptTokens = none := fun request =>
      (hcharge request).trans (if_pos hfail)
    have hnone' := (hproduct request).trans (if_pos hfail)
    refine ⟨maxTokens_nonneg_iff.2 hfield, by rw [hnone, hnone']; rfl, ?_, ?_, ?_⟩ <;>
      simp [hnone]
  · have hnonneg := fun maxTokens =>
      @exactTokens_nonneg settings promptTokens hprompt maxTokens
    obtain ⟨x, hx, hfits⟩ := hbound.fits _ ((hproduct request).trans (if_neg hfail))
    rw [hwhole] at hfits
    have htokens := hbound.tokens _ _ _ hbilling
    -- a body with fewer tokens is charged the product as well
    have hsome : ∀ request' : RequestBody,
        request'.maxTokensField counted ≤ request.maxTokensField counted →
        ∃ x', settings.ratioProduct modelRatio
            (exactTokens settings promptTokens (request'.maxTokensField counted).toNat) = some x' ∧
          0 ≤ x' ∧ x' ≤ x ∧
          request'.preCharge settings counted promptTokens = some (truncQuota x') := by
      intro request' hle
      have hless : exactTokens settings promptTokens (request'.maxTokensField counted).toNat ≤
          exactTokens settings promptTokens (request.maxTokensField counted).toNat :=
        exactTokens_mono (UInt64.le_iff_toNat_le.1 hle)
      obtain ⟨x', hx', hpos, hxle⟩ := ratioProduct_mono h hratio (hnonneg _) hless hx
      have hmono := truncQuota_mono hxle
      refine ⟨x', hx', hpos, hxle, ?_⟩
      rw [hcharge, if_neg hfail, wrap64_of_lt (hnonneg _) (by omega), hx',
        intOfDouble_of_fits (truncQuota_nonneg hpos) (by omega), unlessFree_eq]
      intro hzero
      have hnone : modelRatio * settings.groupRatio = 0 := by
        rcases hzero with hzero | hzero
        · rw [hzero, mul_zero]
        · rw [Option.some.inj hzero, zero_mul]
      obtain ⟨count, ratio, _, hr, hx'⟩ := Doubles.mul_eq_some.1 hx'
      rw [hnone, Doubles.ofRat_zero] at hr
      rw [← Option.some.inj hr, mul_zero, Doubles.ofRat_zero] at hx'
      rw [← Option.some.inj hx']
      rfl
    obtain ⟨x', hx', hpos, -, hquota₀⟩ := hsome request (UInt64.le_refl _)
    obtain rfl : x = x' := Option.some.inj (hx.symm.trans hx')
    refine ⟨maxTokens_nonneg_iff.2 hfield, ?_, ?_, ?_, ?_⟩
    · rw [hquota₀, hproduct, if_neg hfail, hx, hwhole]
      rfl
    · intro quota exact hquota hexact
      rw [hquota₀] at hquota
      simp only [exactProduct, hbilling, Option.some.injEq] at hexact
      obtain ⟨count, ratio, hcount, hratio', hmul⟩ := Doubles.mul_eq_some.1 hx
      have hr := mul_nonneg hratio h.groupRatio
      have ht : (0 : ℚ) ≤ exactTokens settings promptTokens
          (request.maxTokensField counted).toNat := by exact_mod_cast hnonneg _
      have herr := Doubles.rounded_mul_error ht hr (Doubles.ofRat_nonneg ht hcount)
        (Doubles.ofRat_nonneg hr hratio') (Doubles.lt_of_ofRat ht hcount)
        (Doubles.lt_of_ofRat hr hratio') (Doubles.ofRat_eq hcount ▸ Doubles.rounded_error ht)
        (Doubles.ofRat_eq hratio' ▸ Doubles.rounded_error hr)
      rw [← Doubles.ofRat_eq hmul] at herr
      rw [← Option.some.inj hquota, ← hexact]
      exact (abs_sub_le _ x _).trans (by linarith [truncQuota_error hpos])
    · intro quota hquota
      rw [hquota₀] at hquota
      rw [← Option.some.inj hquota]
      exact truncQuota_nonneg hpos
    · intro first second hle quota quota' hquota hquota'
      obtain ⟨x', _, _, hxle, hquota₁⟩ := hsome _ hle
      rw [hquota₀] at hquota
      rw [hquota₁] at hquota'
      rw [← Option.some.inj hquota, ← Option.some.inj hquota']
      exact truncQuota_mono hxle

theorem sound_tiered {runExpr : RequestBody → ℤ → ℤ → Option (Option ℚ)}
    (h : settings.NonNegative) (hprompt : 0 ≤ promptTokens.toInt)
    (hfield : (request.maxTokensField counted).toNat < 2 ^ 63)
    (hbilling : settings.billing = .tieredExpr runExpr)
    (hbound : BoundedTokens settings counted promptTokens request) :
    PreChargeSound settings counted promptTokens request := by
  have hbill := h.billing
  rw [hbilling] at hbill
  have hwhole : settings.whole = quotaRound := by
    funext x
    simp only [PreChargeSettings.whole, hbilling]
  have hproduct : request.doubleProduct settings counted promptTokens =
      (runExpr request promptTokens.toInt (request.maxTokensField counted).toNat).map
        settings.tieredProduct := by
    simp only [RequestBody.doubleProduct, doubleProduct, hbilling]
  have hcharge : ∀ request' : RequestBody,
      request'.maxTokensField counted ≤ request.maxTokensField counted →
      request'.preCharge settings counted promptTokens =
        (runExpr request' promptTokens.toInt (request'.maxTokensField counted).toNat).map
          fun rawCost =>
            if settings.enableFreeModelPreConsume = false ∧ settings.groupRatio = 0 then 0
            else intOfDouble (settings.tieredProduct rawCost) quotaRound := by
    intro request' hle
    have hle' := UInt64.le_iff_toNat_le.1 hle
    simp only [RequestBody.preCharge, quotaToPreConsume, hbilling]
    rw [modelPriceHelperTiered_eq, tokenCountMeta_maxTokens, intOfUint_of_lt (by omega)]
  -- what fits is charged, also of a model that is free
  have hquota : ∀ {rawCost : Option ℚ} {x : ℚ}, settings.tieredProduct rawCost = some x → 0 ≤ x →
      quotaRound x < 2 ^ 63 →
      (if settings.enableFreeModelPreConsume = false ∧ settings.groupRatio = 0 then 0
        else intOfDouble (settings.tieredProduct rawCost) quotaRound) = quotaRound x := by
    intro rawCost x hx hpos hfits
    rw [hx, intOfDouble_of_fits (quotaRound_nonneg hpos) hfits]
    split
    · rename_i hfree
      obtain ⟨before, group, _, hgroup, hx⟩ := Doubles.mul_eq_some.1 hx
      rw [← Option.some.inj hgroup, hfree.2, mul_zero, Doubles.ofRat_zero] at hx
      rw [← Option.some.inj hx]
      decide +kernel
    · rfl
  cases hrun : runExpr request promptTokens.toInt (request.maxTokensField counted).toNat with
  | none =>
    have hnone : request.preCharge settings counted promptTokens = none := by
      rw [hcharge request (UInt64.le_refl _), hrun, Option.map_none]
    have hnone' : request.doubleProduct settings counted promptTokens = none := by
      rw [hproduct, hrun, Option.map_none]
    refine ⟨maxTokens_nonneg_iff.2 hfield, by rw [hnone, hnone']; rfl, ?_, ?_, ?_⟩ <;>
      simp [hnone]
  | some rawCost =>
    rw [hrun, Option.map_some] at hproduct
    obtain ⟨x, hx, hfits⟩ := hbound.fits _ hproduct
    rw [hwhole] at hfits
    obtain ⟨cost, rfl⟩ : ∃ cost, rawCost = some cost := by
      cases rawCost with
      | none => cases hx
      | some cost => exact ⟨cost, rfl⟩
    have hcost := hbill request promptTokens.toInt _ cost hprompt (Int.natCast_nonneg _) hrun
    have hpos : 0 ≤ x := by
      obtain ⟨x', hx', hpos, -⟩ := tieredProduct_mono h hcost le_rfl hx
      rw [Option.some.inj (hx.symm.trans hx')]
      exact hpos
    have hquota₀ : request.preCharge settings counted promptTokens = some (quotaRound x) := by
      rw [hcharge request (UInt64.le_refl _), hrun, Option.map_some, hquota hx hpos hfits]
    refine ⟨maxTokens_nonneg_iff.2 hfield, ?_, ?_, ?_, ?_⟩
    · rw [hquota₀, hproduct, hx, hwhole]
      rfl
    · intro quota exact _ hexact
      simp only [exactProduct, hbilling, reduceCtorEq] at hexact
    · intro quota hsame
      rw [hquota₀] at hsame
      rw [← Option.some.inj hsame]
      exact quotaRound_nonneg hpos
    · intro first second hle quota quota' hsame hsame'
      rw [hquota₀] at hsame
      rw [hcharge _ hle, Option.map_eq_some_iff] at hsame'
      obtain ⟨rawCost', hrun', hsame'⟩ := hsame'
      have hround := quotaRound_nonneg hpos
      rw [← Option.some.inj hsame, ← hsame']
      cases rawCost' with
      | none =>
        -- a cost that is not finite is charged the smallest number
        have hnone : settings.tieredProduct none = none := rfl
        rw [hnone]
        split
        · exact hround
        · simp only [intOfDouble]
          omega
      | some cost' =>
        have hcost' := hbill _ _ _ _ hprompt (Int.natCast_nonneg _) hrun'
        obtain ⟨x', hx', hpos', hless⟩ := tieredProduct_mono h hcost'
          (hbound.expression _ hbilling first second hle cost cost' hrun hrun') hx
        have hmono := quotaRound_mono hless
        rw [hquota hx' hpos' (by omega)]
        exact hmono

end Quota

/-! ### Every accepted body -/

theorem checkSearchContextSize_maxTokens {request checked : GeneralOpenAIRequest}
    (h : checkSearchContextSize request = .ok checked) : checked.maxTokens = request.maxTokens := by
  unfold checkSearchContextSize at h
  split at h
  · cases h
    rfl
  · cases h
    rfl
  · split at h
    · cases h
      rfl
    · cases h

theorem checkRelayMode_eq {relayMode : TextRelayMode} {request checked : GeneralOpenAIRequest}
    (h : checkRelayMode relayMode request = .ok checked) : checked = request := by
  unfold checkRelayMode at h
  cases relayMode with
  | embeddings => exact (Except.ok.inj h).symm
  | other => exact (Except.ok.inj h).symm
  | chatCompletions | completions | moderations | edits =>
    simp only at h
    split at h
    · cases h
    · exact (Except.ok.inj h).symm

/-- An accepted text request has a small number of tokens. -/
theorem maxTokens_of_accepted {relayMode : TextRelayMode} {pathModel : String}
    {request accepted : GeneralOpenAIRequest}
    (h : getAndValidateTextRequest relayMode pathModel request = .ok accepted) :
    (accepted.maxTokens.getD 0).toNat ≤ (2 ^ 31 - 1) / 2 := by
  unfold getAndValidateTextRequest at h
  simp only at h
  generalize request.withDefaultModel relayMode pathModel = named at h
  split at h
  · cases h
  · rename_i hsmall
    split at h
    · cases h
    · split at h
      · cases h
      · rename_i checked hchecked
        rw [checkRelayMode_eq h, checkSearchContextSize_maxTokens hchecked]
        exact not_lt.1 hsmall

/-- What an accepted body names is bounded as far as it is not checked. -/
theorem uncheckedField_lt_iff {body request : RequestBody} (counted : Bool)
    (haccepted : getAndValidateRequest body = .ok request) :
    (request.maxTokensField counted).toNat < 2 ^ 63 ↔
      (request.uncheckedField counted).toNat < 2 ^ 63 := by
  cases request with
  | openAI relayMode pathModel accepted =>
    have hsmall : (accepted.maxTokens.getD 0).toNat ≤ (2 ^ 31 - 1) / 2 := by
      cases body with
      | openAI relayMode' pathModel' request =>
        rw [getAndValidateRequest] at haccepted
        cases hvalid : getAndValidateTextRequest relayMode' pathModel' request with
        | error err =>
          rw [hvalid] at haccepted
          cases haccepted
        | ok accepted' =>
          rw [hvalid] at haccepted
          cases haccepted
          exact maxTokens_of_accepted hvalid
      | claude request =>
        rw [getAndValidateRequest] at haccepted
        cases hvalid : getAndValidateClaudeRequest request <;> rw [hvalid] at haccepted <;>
          cases haccepted
      | responses request =>
        rw [getAndValidateRequest] at haccepted
        cases hvalid : getAndValidateResponsesRequest request <;> rw [hvalid] at haccepted <;>
          cases haccepted
      | gemini request =>
        rw [getAndValidateRequest] at haccepted
        cases hvalid : getAndValidateGeminiRequest request <;> rw [hvalid] at haccepted <;>
          cases haccepted
      | geminiEmbedding => cases haccepted
    simp only [RequestBody.maxTokensField, RequestBody.uncheckedField]
    split
    · exact Iff.rfl
    · rename_i hle
      have hle' := UInt64.le_iff_toNat_le.1 (UInt64.not_lt.1 hle)
      constructor
      · intro _
        omega
      · intro _
        omega
  | claude request => exact Iff.rfl
  | responses request => exact Iff.rfl
  | gemini request => exact Iff.rfl
  | geminiEmbedding => exact Iff.rfl

/-- **For every body that is accepted and whose tokens are bounded**: the number of tokens is not
negative, and the quota is the product of doubles, close to the exact one, is not negative and does
not grow when the number of tokens gets smaller. -/
theorem pre_charge_sound {settings : PreChargeSettings} (h : settings.NonNegative)
    (counted : Bool) {promptTokens : Int64} (hprompt : 0 ≤ promptTokens.toInt)
    {body request : RequestBody} (haccepted : getAndValidateRequest body = .ok request)
    (hbound : BoundedTokens settings counted promptTokens request) :
    PreChargeSound settings counted promptTokens request := by
  have hfield := (uncheckedField_lt_iff counted haccepted).2 hbound.unchecked
  cases hbilling : settings.billing with
  | price modelPrice => exact sound_price h hfield hbilling hbound
  | ratio modelRatio success acceptUnsetRatio => exact sound_ratio h hprompt hfield hbilling hbound
  | tieredExpr runExpr => exact sound_tiered h hprompt hfield hbilling hbound

/-- The settings of a model with a ratio. -/
def ratioSettings (modelRatio : ℚ) : PreChargeSettings where
  quotaPerUnit := 500000
  preConsumedQuota := 500
  enableFreeModelPreConsume := true
  groupRatio := 1
  billing := .ratio modelRatio true false

def claudeBody (maxTokens : UInt64) : RequestBody := .claude ⟨"claude-3-haiku", 1, some maxTokens⟩

theorem pre_charge_sound_small :
    PreChargeSound (ratioSettings (1 / 4)) true 1024 (claudeBody 4096) ∧
      (claudeBody 4096).preCharge (ratioSettings (1 / 4)) true 1024 = some 1280 := by
  have h : (ratioSettings (1 / 4)).NonNegative := by
    refine ⟨by decide, by decide, ?_, ?_⟩
    · show (1 : ℚ) < 2 ^ 1024
      exact one_lt_pow₀ one_lt_two (by norm_num)
    · show (0 : ℚ) ≤ 1 / 4
      norm_num
  have haccepted : getAndValidateRequest (claudeBody 4096) = .ok (claudeBody 4096) := rfl
  have hproduct : (claudeBody 4096).doubleProduct (ratioSettings (1 / 4)) true 1024 =
      some (some 1280) := by decide +kernel
  constructor
  · refine pre_charge_sound h true (by decide) haccepted ⟨by decide, fun _ _ _ _ => by decide, ?_, ?_⟩
    · intro product heq
      rw [hproduct] at heq
      exact ⟨1280, (Option.some.inj heq).symm, by decide +kernel⟩
    · intro runExpr hbilling
      cases hbilling
  · decide +kernel

/-- The double that is written 0.7. -/
def sevenTenths : ℚ := 6305039478318694 / 2 ^ 53

/-- **A request that names 2⁶³ tokens is credited what it should pay**, though the product fits into 63
bits.  And the product of doubles is not the exact one: 500 tokens at the ratio 0.7 are charged for
with 350, and the exact product is less. -/
theorem negative_pre_charge :
    getAndValidateRequest (claudeBody (2 ^ 63)) = .ok (claudeBody (2 ^ 63)) ∧
      ((claudeBody (2 ^ 63)).tokenCountMeta true).maxTokens = -2 ^ 63 ∧
      (exactProduct (ratioSettings (1 / 4)) 1024 (2 ^ 63)).map truncQuota = some (2 ^ 61 + 256) ∧
      (claudeBody (2 ^ 63)).preCharge (ratioSettings (1 / 4)) true 1024 = some (-2 ^ 61 + 256) ∧
      (exactProduct (ratioSettings sevenTenths) 0 0).map truncQuota = some 349 ∧
      (claudeBody 0).preCharge (ratioSettings sevenTenths) true 0 = some 350 :=
  ⟨rfl, by decide +kernel, by decide +kernel, by decide +kernel, by decide +kernel,
    by decide +kernel⟩

end NewApi
