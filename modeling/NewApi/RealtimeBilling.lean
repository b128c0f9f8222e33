/-
**What a realtime session is charged.**

A realtime session is charged in two ways.  Every usage that the upstream reports is charged at
once, from the funding source and from the token; the billing session of the request does not know
of these charges.  At the end the sum of all usages is priced, written to the used quotas and to the
log, and the billing session is settled at this amount, as if nothing had been charged in between.

The ratios of a model and of a group may be changed while a session goes on.  The charges in between
take them as they are set, the last one takes those that are kept with the request.  Tokens are
weighted and multiplied exactly, and the product is rounded; one that is not positive counts as one
unless the ratio is zero.

Main definitions:

* `NewApi.calculateAudioQuota` — the quota of a usage;
* `NewApi.preWssConsumeQuota`, `NewApi.postWssConsumeQuota` — a charge in between, and the last one;
* `NewApi.wssStep` — a realtime session, with other requests in between;
* `NewApi.PaidOnce` — what has been taken is what has been written down, up to a tolerance.

Main results:

* `NewApi.run_wss` — what a realtime session has taken before it ends;
* `NewApi.realtime_paid_once` — **it is paid once, up to rounding, exactly if the charges in between
  come to no more than what is rounded**.
-/

import NewApi.Realtime
import NewApi.Remix
import NewApi.TextLedgers

set_option autoImplicit false

namespace NewApi

open BillingSession

/-! ### The quota of a usage -/

/-- The ratios of the groups and of the models, as they are set. -/
structure AudioRatioSettings where
  groups : RatioSettings
  modelRatio : String → ℚ
  completionRatio : String → ℚ
  audioRatio : String → ℚ
  audioCompletionRatio : String → ℚ

structure TokenDetails where
  textTokens : ℤ
  audioTokens : ℤ
deriving DecidableEq, Repr

structure QuotaInfo where
  inputDetails : TokenDetails
  outputDetails : TokenDetails
  modelName : String
  usePrice : Bool
  modelPrice : ℚ
  modelRatio : ℚ
  groupRatio : ℚ
deriving DecidableEq, Repr

/-- The weighted tokens at the ratio, before they are rounded. -/
def exactAudioQuota (settings : AudioRatioSettings) (info : QuotaInfo) : ℚ :=
  let completionRatio := settings.completionRatio info.modelName
  let audioRatio := settings.audioRatio info.modelName
  let audioCompletionRatio := settings.audioCompletionRatio info.modelName
  (info.inputDetails.textTokens + info.outputDetails.textTokens * completionRatio +
    info.inputDetails.audioTokens * audioRatio +
    info.outputDetails.audioTokens * audioRatio * audioCompletionRatio) *
      (info.groupRatio * info.modelRatio)

def calculateAudioQuota (cfg : QuotaConfig) (settings : AudioRatioSettings) (info : QuotaInfo) :
    ℤ :=
  if info.usePrice then truncQuota (info.modelPrice * cfg.quotaPerUnit * info.groupRatio)
  else
    let quota := exactAudioQuota settings info
    quotaRound (if info.groupRatio * info.modelRatio ≠ 0 ∧ quota ≤ 0 then 1 else quota)

/-- A usage, to be priced.  The price of the model is left out. -/
def RealtimeUsage.quotaInfo (usage : RealtimeUsage) (modelName : String) (usePrice : Bool)
    (modelRatio groupRatio : ℚ) : QuotaInfo where
  inputDetails := ⟨usage.inputTextTokens, usage.inputAudioTokens⟩
  outputDetails := ⟨usage.outputTextTokens, usage.outputAudioTokens⟩
  modelName := modelName
  usePrice := usePrice
  modelPrice := 0
  modelRatio := modelRatio
  groupRatio := groupRatio

/-! ### The charges -/

/-- The fields of a request that has a session are those of the session. -/
def RequestBilling.withRelayInfo (relayInfo : RelayInfo) : RequestBilling → RequestBilling
  | .session s => .session { s with relayInfo := relayInfo }
  | .plain _ => .plain relayInfo

/-- A realtime request.  `autoGroup` is the automatic group that has been selected, if any. -/
structure WssRequest extends TextRequest where
  usePrice : Bool
  autoGroup : Option String

/-- What the look-ups for a charge answer, and the outcome of its statements. -/
structure PreWssEnv where
  userQuota : Except String ℤ
  token : Except String (Bool × ℤ)
  faults : SettleFaults := {}

namespace WssRequest

/-- The request after the group has been looked up. -/
def grouped (r : WssRequest) : WssRequest :=
  { r with
    pricing := { r.pricing with usingGroup := r.autoGroup.getD r.pricing.usingGroup } }

/-- A usage of the request as it is priced in between. -/
def preQuotaInfo (settings : AudioRatioSettings) (usage : RealtimeUsage) (r : WssRequest) :
    QuotaInfo :=
  let modelName := r.billing.relayInfo.originModelName
  let usingGroup := r.grouped.pricing.usingGroup
  usage.quotaInfo modelName r.usePrice (settings.modelRatio modelName)
    (groupRatioInfo settings.groups r.pricing.userGroup usingGroup).groupRatio

/-- A usage of the request as it is priced at the end. -/
def postQuotaInfo (modelName : String) (usage : RealtimeUsage) (r : WssRequest) : QuotaInfo :=
  let price := r.pricing.priceData
  usage.quotaInfo modelName price.usePrice price.modelRatio price.groupRatioInfo.groupRatio

/-- A charge of a usage while the request goes on. -/
def preWssConsumeQuota (cfg : TextConfig) (settings : AudioRatioSettings) (env : PreWssEnv)
    (usage : RealtimeUsage) (r : WssRequest) (w : World) : (Fault × WssRequest) × World :=
  if r.usePrice then ((none, r), w)
  else
    match env.userQuota, env.token with
    | .error e, _ => ((some e, r), w)
    | _, .error e => ((some e, r), w)
    | .ok userQuota, .ok (unlimitedQuota, remainQuota) =>
      let quota := calculateAudioQuota cfg.quota settings (r.preQuotaInfo settings usage)
      let r := r.grouped
      if userQuota < quota then
        ((some ("user quota is not enough, user quota: " ++ cfg.billing.formatQuota userQuota ++
          ", need quota: " ++ cfg.billing.formatQuota quota), r), w)
      else if unlimitedQuota = false ∧ remainQuota < quota then
        ((some ("token quota is not enough, token remain quota: " ++
          cfg.billing.formatQuota remainQuota ++ ", need quota: " ++
          cfg.billing.formatQuota quota), r), w)
      else
        let charged := postConsumeQuota cfg.billing env.faults r.billing.relayInfo quota w
        ((charged.1.1, { r with billing := r.billing.withRelayInfo charged.1.2 }), charged.2)

/-- The quota of the whole session; `modelName` is the name of the model for the channel.
`exprCost` is what the expression comes to, if the request is billed by one and it can be
evaluated. -/
def wssQuota (cfg : TextConfig) (settings : AudioRatioSettings) (modelName : String)
    (usage : RealtimeUsage) (exprCost : Option ℚ) (r : WssRequest) : ℤ :=
  let quota := calculateAudioQuota cfg.quota settings (r.postQuotaInfo modelName usage)
  let quota := ((tryTieredSettle r.priced exprCost).map (·.1)).getD quota
  if usage.totalTokens = 0 then 0 else quota

/-- The end of the request: what it comes to is added to the used quotas, settled and logged. -/
def postWssConsumeQuota (cfg : TextConfig) (settings : AudioRatioSettings) (modelName : String)
    (usage : RealtimeUsage) (exprCost : Option ℚ) (faults : SettleFaults) (r : WssRequest)
    (l : Ledgers) : (Fault × WssRequest) × Ledgers :=
  let quota := r.wssQuota cfg settings modelName usage exprCost
  let l :=
    if usage.totalTokens = 0 then l
    else
      (l.updateUserUsedQuota r.billing.relayInfo.userId quota).updateChannelUsedQuota r.channelId
        quota
  let settled := settleBilling cfg.billing faults r.billing quota l.world
  ((settled.1.1, { r with billing := settled.1.2 }),
    { l with world := settled.2 }.recordConsumeLog cfg (r.consumeLog quota))

end WssRequest

/-! ### A session -/

/-- A charge of a usage, or other requests changing the world. -/
inductive WssOp where
  | charge (settings : AudioRatioSettings) (env : PreWssEnv) (usage : RealtimeUsage)
  | others (ledgers : Ledgers)

/-- A realtime session.  The last two fields record what it has taken from the funding source and
from the token. -/
structure WssState where
  request : WssRequest
  ledgers : Ledgers
  sumUsage : RealtimeUsage
  fundingTaken : ℤ
  tokenTaken : ℤ

/-- The session's code leaves `request` and `world`. -/
def WssState.move (request : WssRequest) (world : World) (s : WssState) : WssState :=
  let funding := s.request.billing.funding
  let tokenId := s.request.billing.relayInfo.tokenId
  { s with
    request := request
    ledgers := { s.ledgers with world := world }
    fundingTaken := s.fundingTaken +
      (funding.balance s.ledgers.world - funding.balance world)
    tokenTaken := s.tokenTaken + (s.ledgers.world.tokenRemain tokenId - world.tokenRemain tokenId) }

/-- A usage is added to the sum and charged; or the world changes. -/
def wssStep (cfg : TextConfig) (s : WssState) : WssOp → WssState
  | .charge settings env usage =>
    let charged := s.request.preWssConsumeQuota cfg settings env usage s.ledgers.world
    { s.move charged.1.2 charged.2 with sumUsage := s.sumUsage + usage }
  | .others ledgers => { s with ledgers := ledgers }

/-- A charge succeeds, and other requests leave the tables in order. -/
def WssSucceeds (cfg : TextConfig) (s : WssState) : WssOp → Prop
  | .charge settings env usage =>
    (s.request.preWssConsumeQuota cfg settings env usage s.ledgers.world).1.1 = none
  | .others ledgers => StoreInv ledgers.world.store

/-- The end of a session. -/
def WssState.finish (cfg : TextConfig) (settings : AudioRatioSettings) (modelName : String)
    (exprCost : Option ℚ) (faults : SettleFaults) (s : WssState) : Fault × WssState :=
  let finished := s.request.postWssConsumeQuota cfg settings modelName s.sumUsage exprCost faults
    s.ledgers
  (finished.1.1,
    { s.move finished.1.2 finished.2.world with ledgers := finished.2 })

/-- A request before its first usage: nothing has been charged for it, or a session has been opened
for it, and what has been refused has been given back. -/
def WssRequest.Opened (cfg : BillingConfig) (w : World) (fundingTaken tokenTaken : ℤ)
    (r : WssRequest) : Prop :=
  (∃ relayInfo, r.billing = .plain relayInfo ∧ relayInfo.finalPreConsumedQuota = 0 ∧
    relayInfo.billingSource ≠ billingSourceSubscription ∧ StoreInv w.store ∧ fundingTaken = 0 ∧
      tokenTaken = 0) ∨
  ∃ env relayInfo quota w₀ start, StoreInv w₀.store ∧
    w₀.store.record relayInfo.requestId = none ∧ 0 ≤ quota ∧ env.RollsBack cfg ∧
    openBilling cfg env relayInfo quota w₀ = some start ∧ r.billing = .session start.session ∧
    w = start.world ∧ fundingTaken = start.fundingTaken ∧ tokenTaken = start.tokenTaken

/-- A session before its first usage. -/
def WssState.start (r : WssRequest) (l : Ledgers) (fundingTaken tokenTaken : ℤ) : WssState where
  request := r
  ledgers := l
  sumUsage := 0
  fundingTaken := fundingTaken
  tokenTaken := tokenTaken

/-! ### What is said of a session -/

/-- What is charged at once, and what it would be without rounding. -/
structure WssCharge where
  quota : ℤ
  exact : ℚ
deriving DecidableEq, Repr

/-- The charges in between. -/
def wssCharges (cfg : TextConfig) (r : WssRequest) (ops : List WssOp) : List WssCharge :=
  ops.filterMap fun
    | .charge settings _ usage =>
      let info := r.preQuotaInfo settings usage
      some ⟨calculateAudioQuota cfg.quota settings info, exactAudioQuota settings info⟩
    | .others _ => none

/-- The last charge, of all usages. -/
def WssRequest.lastCharge (cfg : TextConfig) (settings : AudioRatioSettings) (modelName : String)
    (usage : RealtimeUsage) (r : WssRequest) : WssCharge :=
  let info := r.postQuotaInfo modelName usage
  ⟨calculateAudioQuota cfg.quota settings info, exactAudioQuota settings info⟩

/-- What the charges come to. -/
def totalCharge (charges : List WssCharge) : ℤ := (charges.map (·.quota)).sum

/-- What is rounded in the charges. -/
def totalRounding (charges : List WssCharge) : ℚ :=
  (charges.map fun c => |(c.quota : ℚ) - c.exact|).sum

/-- What has been charged before the usages. -/
def RequestBilling.preConsumed : RequestBilling → ℤ
  | .session s => s.preConsumedQuota
  | .plain relayInfo => relayInfo.finalPreConsumedQuota

/-- What is not given back of `-delta` because there is less that has been used. -/
def FundingSource.notGivenBack (delta : ℤ) (w : World) : FundingSource → ℤ
  | .wallet _ => 0
  | .subscription f =>
    if delta = 0 then 0 else max 0 (-(w.store.amountUsed f.subscriptionId + delta))

/-- **What has been taken is what has been written down**, in the used quotas and in the log, up to
a tolerance; from the token, too, unless the request comes from the playground. -/
def PaidOnce (cfg : TextConfig) (tolerance : ℚ) (s s' : WssState) : Prop :=
  ∃ amount : ℤ,
    s'.ledgers.userUsedQuota =
      increased s.ledgers.userUsedQuota s.request.billing.relayInfo.userId amount ∧
    s'.ledgers.channelUsedQuota =
      increased s.ledgers.channelUsedQuota s.request.channelId amount ∧
    s'.ledgers.consumeLogs = s.ledgers.consumeLogs ++
      (if cfg.logConsumeEnabled then [s.request.consumeLog amount] else []) ∧
    |(s'.fundingTaken : ℚ) - amount| ≤ tolerance ∧
    (s.request.billing.relayInfo.isPlayground = false →
      |(s'.tokenTaken : ℚ) - amount| ≤ tolerance)

/-! ### The quota of a usage is not negative -/

/-- **A charge by the ratio takes nothing back.** -/
theorem calculateAudioQuota_nonneg (cfg : QuotaConfig) (settings : AudioRatioSettings)
    {info : QuotaInfo} (hprice : info.usePrice = false) :
    0 ≤ calculateAudioQuota cfg settings info := by
  unfold calculateAudioQuota
  rw [hprice, if_neg Bool.false_ne_true]
  simp only
  apply quotaRound_nonneg
  by_cases hpos : 0 < exactAudioQuota settings info
  · rw [if_neg (by rintro ⟨-, hle⟩; exact absurd hpos (not_lt.2 hle))]
    exact hpos.le
  · by_cases hratio : info.groupRatio * info.modelRatio ≠ 0
    · rw [if_pos ⟨hratio, not_lt.1 hpos⟩]
      exact zero_le_one
    · rw [if_neg (fun h => hratio h.1), exactAudioQuota, not_not.1 hratio, mul_zero]

/-! ### What is charged -/

section Charge

variable {cfg : BillingConfig} {billing : RequestBilling} {w w' : World}

/-- The fields of a request are those of what it is charged to, and it has not been settled. -/
def RequestBilling.Ready : RequestBilling → Prop
  | .session s => s.settled = false ∧ s.fundingSettled = false ∧
      s.relayInfo.billingSource = s.funding.source ∧
      match s.funding with
      | .wallet f => f.userId = s.relayInfo.userId
      | .subscription f => s.relayInfo.subscriptionId = f.subscriptionId
  | .plain relayInfo => relayInfo.billingSource ≠ billingSourceSubscription ∧
      relayInfo.finalPreConsumedQuota = 0

/-- The used amount of a subscription after a change. -/
theorem postConsume_used {faults : TxFaults} {id delta : ℤ}
    (h : FundingSource.postConsume faults id delta w = .ok w') (hdelta : delta ≠ 0) :
    w'.store.amountUsed id = max 0 (w.store.amountUsed id + delta) ∧
      w'.tokenRemain = w.tokenRemain ∧ Writes w.store w'.store := by
  unfold FundingSource.postConsume at h
  cases hpost : postConsumeUserSubscriptionDelta faults id delta w.store with
  | error e =>
    rw [hpost] at h
    cases h
  | ok t =>
    rw [hpost] at h
    obtain rfl : { w with store := t } = w' := Except.ok.inj h
    refine ⟨?_, rfl, postConsume_writes hpost⟩
    rcases postConsume_ok hpost with ⟨hzero, -⟩ | ⟨sub, hsub, -, rfl⟩
    · exact absurd hzero hdelta
    · have hself := Tables.saveSub_amountUsed_self w.store
        { sub with amountUsed := max 0 (sub.amountUsed + delta) }
      have hid : sub.id = id := (Tables.sub_mem hsub).2
      rw [Tables.amountUsed_of_sub hsub]
      subst hid
      exact hself

/-- What a settlement of a funding source takes: the difference, or less if not all can be given
back. -/
theorem settle_taken {faults : FundingSource.ChangeFaults} {delta : ℤ} {funding : FundingSource}
    (h : funding.settle cfg faults delta w = .ok w') :
    funding.balance w - funding.balance w' = delta + funding.notGivenBack delta w ∧
      w'.tokenRemain = w.tokenRemain := by
  cases funding with
  | wallet f =>
    have htakes := FundingSource.settle_takes h trivial
    refine ⟨?_, htakes.token⟩
    rw [htakes.balance]
    simp only [FundingSource.notGivenBack]
    omega
  | subscription f =>
    simp only [FundingSource.settle] at h
    by_cases hzero : delta = 0
    · rw [if_pos hzero] at h
      obtain rfl := Except.ok.inj h
      refine ⟨?_, rfl⟩
      simp only [FundingSource.notGivenBack, if_pos hzero]
      omega
    · rw [if_neg hzero] at h
      obtain ⟨hused, htoken, -⟩ := postConsume_used h hzero
      refine ⟨?_, htoken⟩
      simp only [FundingSource.balance, FundingSource.notGivenBack, if_neg hzero, hused]
      omega

/-- A settlement of the token takes the difference. -/
theorem settleToken_taken {fault : Fault} {delta : ℤ} {relayInfo : RelayInfo}
    (h : settleToken cfg fault delta relayInfo w = .ok w') :
    w.tokenRemain relayInfo.tokenId - w'.tokenRemain relayInfo.tokenId =
        (if relayInfo.isPlayground then 0 else delta) ∧
      w'.store = w.store ∧ ∀ funding : FundingSource, funding.balance w' = funding.balance w := by
  obtain rfl := settleToken_ok h
  refine ⟨?_, RelayInfo.takeToken_store relayInfo delta w, fun funding => ?_⟩
  · rw [remain_takeToken]
    omega
  · exact balance_takeToken funding relayInfo delta w

/-- The charge of the source of a request, which is asked for what is not negative. -/
theorem postConsumeFunding_ok (hready : billing.Ready) (hinv : StoreInv w.store)
    {faults : FundingSource.ChangeFaults} {quota : ℤ} (hquota : 0 ≤ quota) {relayInfo : RelayInfo}
    (h : postConsumeFunding cfg faults billing.relayInfo quota w = .ok (relayInfo, w')) :
    billing.funding.Takes quota w w' ∧
      ∃ delta, relayInfo = { billing.relayInfo with subscriptionPostDelta := delta } := by
  have hsame : billing.relayInfo = { billing.relayInfo with
    subscriptionPostDelta := billing.relayInfo.subscriptionPostDelta } := rfl
  -- the wallet is charged in two branches
  have hwallet : ∀ f : WalletFunding, f.userId = billing.relayInfo.userId →
      (if 0 < quota then
        (decreaseUserQuota cfg faults.user billing.relayInfo.userId quota w).map fun w =>
          (billing.relayInfo, w)
      else
        (increaseUserQuota cfg faults.user billing.relayInfo.userId (-quota) w).map fun w =>
          (billing.relayInfo, w)) = .ok (relayInfo, w') →
      (FundingSource.wallet f).Takes quota w w' ∧ relayInfo = billing.relayInfo := by
    intro f hf hcharge
    rw [← hf] at hcharge
    by_cases hpos : 0 < quota
    · rw [if_pos hpos] at hcharge
      cases hdecrease : decreaseUserQuota cfg faults.user f.userId quota w with
      | error e =>
        rw [hdecrease] at hcharge
        cases hcharge
      | ok w₁ =>
        rw [hdecrease] at hcharge
        obtain ⟨rfl, rfl⟩ := Prod.mk.inj (Except.ok.inj hcharge)
        rw [(changeQuota_ok hdecrease).2]
        exact ⟨FundingSource.takes_of_userQuota, rfl⟩
    · rw [if_neg hpos] at hcharge
      cases hincrease : increaseUserQuota cfg faults.user f.userId (-quota) w with
      | error e =>
        rw [hincrease] at hcharge
        cases hcharge
      | ok w₁ =>
        rw [hincrease] at hcharge
        obtain ⟨rfl, rfl⟩ := Prod.mk.inj (Except.ok.inj hcharge)
        rw [(changeQuota_ok hincrease).2]
        exact ⟨FundingSource.takes_of_userQuota, rfl⟩
  unfold postConsumeFunding at h
  cases billing with
  | plain info =>
    have hsource : (RequestBilling.plain info).relayInfo.billingSource ≠
        billingSourceSubscription := hready.1
    rw [if_neg hsource] at h
    obtain ⟨htakes, rfl⟩ := hwallet ⟨info.userId, 0⟩ rfl h
    exact ⟨htakes, _, hsame⟩
  | session s =>
    obtain ⟨-, -, hsource, hfields⟩ := hready
    have hinfo : (RequestBilling.session s).relayInfo = s.relayInfo := rfl
    have hfunding : (RequestBilling.session s).funding = s.funding := rfl
    rw [hinfo] at h hwallet hsame ⊢
    rw [hfunding]
    cases hf : s.funding with
    | wallet f =>
      rw [hf] at hsource hfields
      have hnot : s.relayInfo.billingSource ≠ billingSourceSubscription := by
        rw [hsource]
        exact (by decide : billingSourceWallet ≠ billingSourceSubscription)
      rw [if_neg hnot] at h
      obtain ⟨htakes, rfl⟩ := hwallet f hfields h
      exact ⟨htakes, _, hsame⟩
    | subscription f =>
      rw [hf] at hsource hfields
      have hid : s.relayInfo.subscriptionId = f.subscriptionId := hfields
      have hsub : s.relayInfo.billingSource = billingSourceSubscription := hsource
      rw [if_pos hsub] at h
      by_cases hmissing : s.relayInfo.subscriptionId = 0
      · rw [if_pos hmissing] at h
        cases h
      · rw [if_neg hmissing] at h
        by_cases hzero : quota = 0
        · rw [if_pos hzero] at h
          obtain ⟨rfl, rfl⟩ := Prod.mk.inj (Except.ok.inj h)
          rw [hzero]
          exact ⟨.refl _ _, _, hsame⟩
        · rw [if_neg hzero] at h
          cases hpost : FundingSource.postConsume faults.sub s.relayInfo.subscriptionId quota w
            with
          | error e =>
            rw [hpost] at h
            cases h
          | ok w₁ =>
            rw [hpost] at h
            obtain ⟨rfl, rfl⟩ := Prod.mk.inj (Except.ok.inj h)
            have hcovers : (FundingSource.subscription f).Covers quota w := by
              have hused := hinv.amountUsed_nonneg f.subscriptionId
              exact Int.add_nonneg hused hquota
            rw [hid] at hpost
            exact ⟨FundingSource.takes_of_postConsume hpost hcovers, _, rfl⟩

/-- **A charge that succeeds takes the quota**, from the source and from the token, and leaves the
fields of the request but for one. -/
theorem postConsumeQuota_ok (hready : billing.Ready) (hinv : StoreInv w.store)
    {faults : SettleFaults} {quota : ℤ} (hquota : 0 ≤ quota)
    (h : (postConsumeQuota cfg faults billing.relayInfo quota w).1.1 = none) :
    let charged := postConsumeQuota cfg faults billing.relayInfo quota w
    billing.funding.balance w - billing.funding.balance charged.2 = quota ∧
      w.tokenRemain billing.relayInfo.tokenId - charged.2.tokenRemain billing.relayInfo.tokenId =
        (if billing.relayInfo.isPlayground then 0 else quota) ∧
      StoreInv charged.2.store ∧
      ∃ delta, charged.1.2 = { billing.relayInfo with subscriptionPostDelta := delta } := by
  unfold postConsumeQuota at h ⊢
  cases hfunding : postConsumeFunding cfg faults.funding billing.relayInfo quota w with
  | error e =>
    rw [hfunding] at h
    cases h
  | ok charged =>
    obtain ⟨relayInfo, w₁⟩ := charged
    rw [hfunding] at h
    obtain ⟨htakes, delta, rfl⟩ := postConsumeFunding_ok hready hinv hquota hfunding
    simp only at h ⊢
    cases htoken : settleToken cfg faults.token quota
        { billing.relayInfo with subscriptionPostDelta := delta } w₁ with
    | error e =>
      rw [htoken] at h
      cases h
    | ok w₂ =>
      obtain ⟨htaken, hstore, hbalance⟩ := settleToken_taken htoken
      simp only at htaken ⊢
      refine ⟨?_, ?_, ?_, delta, rfl⟩
      · rw [hbalance, htakes.balance]
        omega
      · rw [← htakes.token]
        exact htaken
      · rw [hstore]
        exact Writes.inv hinv htakes.writes

/-- **A settlement that succeeds takes the difference**, or less from a subscription that cannot be
given back all of it. -/
theorem settleBilling_ok (hready : billing.Ready) (hinv : StoreInv w.store) {faults : SettleFaults}
    {quota : ℤ} (hquota : 0 ≤ quota)
    (h : (settleBilling cfg faults billing quota w).1.1 = none) :
    let delta := quota - billing.preConsumed
    let settled := settleBilling cfg faults billing quota w
    billing.funding.balance w - billing.funding.balance settled.2 =
        delta + billing.funding.notGivenBack delta w ∧
      w.tokenRemain billing.relayInfo.tokenId - settled.2.tokenRemain billing.relayInfo.tokenId =
        (if billing.relayInfo.isPlayground then 0 else delta) := by
  intro delta settled
  cases billing with
  | plain info =>
    have hdelta : delta = quota - info.finalPreConsumedQuota := rfl
    have hzero : info.finalPreConsumedQuota = 0 := hready.2
    have hcut : (RequestBilling.plain info).funding.notGivenBack delta w = 0 := rfl
    simp only [settleBilling, ← hdelta] at h
    have hsettled : settled.2 =
        if delta = 0 then w else (postConsumeQuota cfg faults info delta w).2 := by
      simp only [settled, settleBilling, ← hdelta]
      split
      · rfl
      · rfl
    rw [hsettled, hcut, add_zero]
    by_cases hnothing : delta = 0
    · rw [if_pos hnothing, hnothing, sub_self, sub_self, ite_self]
      exact ⟨rfl, rfl⟩
    · rw [if_neg hnothing] at h ⊢
      obtain ⟨hfunding, htoken, -⟩ := @postConsumeQuota_ok cfg (.plain info) w hready hinv faults
        delta (by omega) h
      exact ⟨hfunding, htoken⟩
  | session s =>
    obtain ⟨hsettled, hfunding, -⟩ := hready
    have hdelta : delta = quota - s.preConsumedQuota := rfl
    simp only [settled, settleBilling, BillingSession.settle, hsettled, hfunding,
      Bool.false_eq_true, if_false, ← hdelta] at h ⊢
    simp only [RequestBilling.funding, RequestBilling.relayInfo]
    by_cases hnothing : delta = 0
    · rw [if_pos hnothing, hnothing, sub_self, sub_self]
      constructor
      · cases s.funding with
        | wallet f => rfl
        | subscription f => rfl
      · exact (ite_self 0).symm
    · rw [if_neg hnothing] at h ⊢
      cases hchange : s.funding.settle cfg faults.funding delta w with
      | error e =>
        rw [hchange] at h
        cases h
      | ok w₁ =>
        rw [hchange] at h
        obtain ⟨htaken, htokens⟩ := settle_taken hchange
        simp only at h ⊢
        cases htoken : settleToken cfg faults.token delta s.relayInfo w₁ with
        | error e =>
          rw [htoken] at h
          cases h
        | ok w₂ =>
          obtain ⟨htokenTaken, -, hbalance⟩ := settleToken_taken htoken
          simp only
          rw [hbalance, ← htokens]
          exact ⟨htaken, htokenTaken⟩

end Charge

/-! ### A session before its end -/

section Run

variable {cfg : TextConfig} {r r' : WssRequest} {s : WssState}

/-- The request `r'` is `r` after some charges: another group may be in use, and the source may have
been charged. -/
def WssRequest.Continues (r r' : WssRequest) : Prop :=
  ∃ usingGroup delta, r.autoGroup.getD usingGroup = r.autoGroup.getD r.pricing.usingGroup ∧
    r' = { r with
      pricing := { r.pricing with usingGroup := usingGroup }
      billing := r.billing.withRelayInfo
        { r.billing.relayInfo with subscriptionPostDelta := delta } }

theorem WssRequest.Continues.refl (r : WssRequest) : r.Continues r := by
  refine ⟨r.pricing.usingGroup, r.billing.relayInfo.subscriptionPostDelta, rfl, ?_⟩
  obtain ⟨⟨channelId, pricing, billing⟩, usePrice, autoGroup⟩ := r
  cases billing with
  | session session => rfl
  | plain info => rfl

/-- What stays the same while a request goes on. -/
structure WssRequest.SameRequest (r r' : WssRequest) : Prop where
  funding : r'.billing.funding = r.billing.funding
  preConsumed : r'.billing.preConsumed = r.billing.preConsumed
  userId : r'.billing.relayInfo.userId = r.billing.relayInfo.userId
  tokenId : r'.billing.relayInfo.tokenId = r.billing.relayInfo.tokenId
  isPlayground : r'.billing.relayInfo.isPlayground = r.billing.relayInfo.isPlayground
  usePrice : r'.usePrice = r.usePrice
  channelId : r'.channelId = r.channelId
  snapshot : r'.pricing.tieredBillingSnapshot = r.pricing.tieredBillingSnapshot
  price : r'.pricing.priceData = r.pricing.priceData
  preQuotaInfo : ∀ settings usage, r'.preQuotaInfo settings usage = r.preQuotaInfo settings usage
  ready : r.billing.Ready → r'.billing.Ready

theorem WssRequest.Continues.same (h : r.Continues r') : r.SameRequest r' := by
  obtain ⟨usingGroup, delta, hgroup, rfl⟩ := h
  have hinfo : ∀ settings usage, WssRequest.preQuotaInfo settings usage
      { r with
        pricing := { r.pricing with usingGroup := usingGroup }
        billing := r.billing.withRelayInfo
          { r.billing.relayInfo with subscriptionPostDelta := delta } } =
      r.preQuotaInfo settings usage := by
    intro settings usage
    unfold WssRequest.preQuotaInfo WssRequest.grouped
    simp only [hgroup]
    cases r.billing with
    | session s => rfl
    | plain info => rfl
  cases hbilling : r.billing with
  | session session | plain info =>
    rw [hbilling] at hinfo
    constructor
    case preQuotaInfo => exact hinfo
    case ready =>
      rw [hbilling]
      exact id
    all_goals first
      | rfl
      | (rw [hbilling]; rfl)

/-- A charge does not end the request, whatever comes of it. -/
theorem WssRequest.Continues.charge (h : r.Continues r') (settings : AudioRatioSettings)
    (usage : RealtimeUsage) {env : PreWssEnv} {w : World} (hprice : r.usePrice = false)
    (hready : r.billing.Ready) (hinv : StoreInv w.store)
    (hok : (r'.preWssConsumeQuota cfg settings env usage w).1.1 = none) :
    let quota := calculateAudioQuota cfg.quota settings (r.preQuotaInfo settings usage)
    let charged := r'.preWssConsumeQuota cfg settings env usage w
    r.Continues charged.1.2 ∧ StoreInv charged.2.store ∧
      r.billing.funding.balance w - r.billing.funding.balance charged.2 = quota ∧
      w.tokenRemain r.billing.relayInfo.tokenId -
          charged.2.tokenRemain r.billing.relayInfo.tokenId =
        (if r.billing.relayInfo.isPlayground then 0 else quota) := by
  intro quota charged
  have hsame := h.same
  have hprice' : r'.usePrice = false := hsame.usePrice.trans hprice
  have hquota : 0 ≤ quota := calculateAudioQuota_nonneg _ _ hprice
  have hinfo : calculateAudioQuota cfg.quota settings (r'.preQuotaInfo settings usage) = quota := by
    rw [hsame.preQuotaInfo]
  have hcharged : charged = r'.preWssConsumeQuota cfg settings env usage w := rfl
  unfold WssRequest.preWssConsumeQuota at hok hcharged
  rw [hprice', if_neg Bool.false_ne_true] at hok hcharged
  cases huser : env.userQuota with
  | error e =>
    simp only [huser] at hok
    cases hok
  | ok userQuota =>
    cases htoken : env.token with
    | error e =>
      simp only [huser, htoken] at hok
      cases hok
    | ok token =>
      obtain ⟨unlimitedQuota, remainQuota⟩ := token
      simp only [huser, htoken, hinfo] at hok hcharged
      by_cases huserShort : userQuota < quota
      · rw [if_pos huserShort] at hok
        cases hok
      · rw [if_neg huserShort] at hok hcharged
        by_cases htokenShort : unlimitedQuota = false ∧ remainQuota < quota
        · rw [if_pos htokenShort] at hok
          cases hok
        · rw [if_neg htokenShort] at hok hcharged
          obtain ⟨hfunding, htokens, hstore, delta, hdelta⟩ :=
            @postConsumeQuota_ok cfg.billing r'.billing w (hsame.ready hready) hinv env.faults
              quota hquota hok
          rw [hcharged]
          rw [hsame.funding] at hfunding
          rw [hsame.tokenId, hsame.isPlayground] at htokens
          refine ⟨?_, hstore, hfunding, htokens⟩
          -- only the group and one field of the request have changed
          have hbilling : r'.grouped.billing.relayInfo = r'.billing.relayInfo := rfl
          simp only [hbilling, hdelta]
          obtain ⟨usingGroup, delta', hgroup, rfl⟩ := h
          refine ⟨r.autoGroup.getD usingGroup, delta, ?_, ?_⟩
          · rw [hgroup]
            cases r.autoGroup with
            | none => rfl
            | some autoGroup => rfl
          · unfold WssRequest.grouped
            cases r.billing with
            | session session => rfl
            | plain info => rfl

/-- What a session has taken before its end. -/
structure WssTaken (r : WssRequest) (fundingTaken tokenTaken charged : ℤ) (s : WssState) :
    Prop where
  continues : r.Continues s.request
  store : StoreInv s.ledgers.world.store
  funding : s.fundingTaken = fundingTaken + charged
  token : s.tokenTaken = tokenTaken + if r.billing.relayInfo.isPlayground then 0 else charged

/-- **Before its end a session has taken every charge**, on top of what was taken before. -/
theorem run_wss (hprice : r.usePrice = false) (hready : r.billing.Ready)
    {fundingTaken tokenTaken charged : ℤ} {ops : List WssOp}
    (hs : WssTaken r fundingTaken tokenTaken charged s)
    (hops : Transition.Along (wssStep cfg) (WssSucceeds cfg) s ops) :
    WssTaken r fundingTaken tokenTaken (charged + totalCharge (wssCharges cfg r ops))
      (Transition.run (wssStep cfg) s ops) := by
  induction ops generalizing s charged with
  | nil =>
    rw [Transition.run_nil]
    have hnone : totalCharge (wssCharges cfg r []) = 0 := rfl
    rw [hnone, add_zero]
    exact hs
  | cons op ops ih =>
    obtain ⟨hop, hops⟩ := hops
    rw [Transition.run_cons]
    cases op with
    | others ledgers =>
      have hcharges : wssCharges cfg r (.others ledgers :: ops) = wssCharges cfg r ops := rfl
      rw [hcharges]
      exact ih ⟨hs.continues, hop, hs.funding, hs.token⟩ hops
    | charge settings env usage =>
      have hsame := hs.continues.same
      obtain ⟨hcontinues, hstore, hfunding, htoken⟩ :=
        hs.continues.charge settings usage hprice hready hs.store hop
      have hnext : WssTaken r fundingTaken tokenTaken (charged +
          calculateAudioQuota cfg.quota settings (r.preQuotaInfo settings usage))
          (wssStep cfg s (.charge settings env usage)) := by
        refine ⟨hcontinues, hstore, ?_, ?_⟩
        · simp only [wssStep, WssState.move, hsame.funding, hfunding, hs.funding]
          omega
        · simp only [wssStep, WssState.move, hsame.tokenId, htoken, hs.token]
          split
          · omega
          · omega
      have hrest := ih hnext hops
      have hcharges : totalCharge (wssCharges cfg r (.charge settings env usage :: ops)) =
          calculateAudioQuota cfg.quota settings (r.preQuotaInfo settings usage) +
            totalCharge (wssCharges cfg r ops) := rfl
      rw [hcharges, ← add_assoc]
      exact hrest

/-- A session that has just been opened has the fields of what it is charged to. -/
theorem openBilling_ready {cfg : BillingConfig} {env : OpenEnv} {relayInfo : RelayInfo}
    {quota : ℤ} {w : World} {start : BillingState}
    (hopen : openBilling cfg env relayInfo quota w = some start) :
    (RequestBilling.session start.session).Ready := by
  have hcases : Opens cfg env relayInfo quota w
      (newBillingSession cfg env (some relayInfo) quota w) := newBillingSession_cases
  unfold openBilling at hopen
  rcases hcases with ⟨e, w₁, herr, -⟩ | hhang | ⟨session, w₀, w', -, hok, hopened⟩
  · rw [herr] at hopen
    cases hopen
  · cases hr : newBillingSession cfg env (some relayInfo) quota w with
    | mk r w₁ =>
      rw [hr] at hhang hopen
      obtain rfl : r = .error .hang := hhang
      cases hopen
  · rw [hok] at hopen
    obtain rfl := Option.some.inj hopen
    rcases hopened with ⟨userQuota, trusted, rfl, -⟩ | ⟨userQuota, f, res, rfl, -⟩
    · exact ⟨rfl, rfl, rfl, rfl⟩
    · exact ⟨rfl, rfl, rfl, rfl⟩

/-- What has been taken for a request before its first usage. -/
theorem WssRequest.Opened.taken {cfg : BillingConfig} {l : Ledgers} {fundingTaken tokenTaken : ℤ}
    (h : r.Opened cfg l.world fundingTaken tokenTaken) :
    r.billing.Ready ∧ fundingTaken = r.billing.preConsumed ∧
      (r.billing.relayInfo.isPlayground = false → tokenTaken = r.billing.preConsumed) ∧
      StoreInv l.world.store := by
  rcases h with ⟨relayInfo, hbilling, hzero, hsource, hinv, rfl, rfl⟩ |
    ⟨env, relayInfo, quota, w₀, start, hinv, hfresh, hquota, hroll, hopen, hbilling, hworld, rfl,
      rfl⟩
  · rw [hbilling]
    exact ⟨⟨hsource, hzero⟩, hzero.symm, fun _ => hzero.symm, hinv⟩
  · obtain ⟨hstart, hopened⟩ := openBilling_opened hinv hfresh hquota hopen
    have hready := openBilling_ready hopen
    have hnet : start.fundingTaken = start.session.preConsumedQuota := by
      rw [hstart]
      exact hopened.holds.net
    have hfollows : TokenFollows start := by
      rw [hstart]
      exact hopened.token hroll
    rw [hbilling, hworld]
    refine ⟨hready, hnet, fun hplay => ?_, hopened.store⟩
    have hplay' : start.session.relayInfo.isPlayground = false := hplay
    rw [hfollows hready.1, hplay', hnet]
    rfl

end Run

/-! ### The end of a session -/

section Finish

variable {cfg : TextConfig} {r : WssRequest} {s : WssState}

theorem wssQuota_nonneg (hratio : r.pricing.priceData.usePrice = false)
    (htiered : r.pricing.tieredBillingSnapshot = none) (settings : AudioRatioSettings)
    (modelName : String) (usage : RealtimeUsage) (exprCost : Option ℚ) :
    0 ≤ r.wssQuota cfg settings modelName usage exprCost := by
  have hnone : tryTieredSettle r.priced exprCost = none := by
    unfold tryTieredSettle TextRequest.priced
    simp only [htiered]
  unfold WssRequest.wssQuota
  rw [hnone]
  split
  · exact le_rfl
  · exact calculateAudioQuota_nonneg _ _ hratio

theorem notGivenBack_nonneg (delta : ℤ) (w : World) (funding : FundingSource) :
    0 ≤ funding.notGivenBack delta w := by
  cases funding with
  | wallet f => exact Int.le_refl 0
  | subscription f =>
    simp only [FundingSource.notGivenBack]
    by_cases hzero : delta = 0
    · rw [if_pos hzero]
    · rw [if_neg hzero]
      exact le_max_left _ _

theorem totalCharge_nonneg (hprice : r.usePrice = false) (ops : List WssOp) :
    0 ≤ totalCharge (wssCharges cfg r ops) := by
  refine List.sum_nonneg fun n hn => ?_
  obtain ⟨c, hc, rfl⟩ := List.mem_map.1 hn
  obtain ⟨op, -, hop⟩ := List.mem_filterMap.1 hc
  cases op with
  | others ledgers => cases hop
  | charge settings env usage =>
    obtain rfl := Option.some.inj hop
    exact calculateAudioQuota_nonneg _ _ hprice

/-- What is written at the end of a session. -/
theorem finish_written (settings : AudioRatioSettings) (modelName : String) (exprCost : Option ℚ)
    (faults : SettleFaults) :
    let amount := s.request.wssQuota cfg settings modelName s.sumUsage exprCost
    let s' := (s.finish cfg settings modelName exprCost faults).2
    s'.ledgers.userUsedQuota =
        increased s.ledgers.userUsedQuota s.request.billing.relayInfo.userId amount ∧
      s'.ledgers.channelUsedQuota =
        increased s.ledgers.channelUsedQuota s.request.channelId amount ∧
      s'.ledgers.consumeLogs = s.ledgers.consumeLogs ++
        (if cfg.logConsumeEnabled then [s.request.consumeLog amount] else []) ∧
      s'.ledgers.world =
        (settleBilling cfg.billing faults s.request.billing amount s.ledgers.world).2 ∧
      (s.finish cfg settings modelName exprCost faults).1 =
        (settleBilling cfg.billing faults s.request.billing amount s.ledgers.world).1.1 := by
  intro amount s'
  have hamount : amount = s.request.wssQuota cfg settings modelName s.sumUsage exprCost := rfl
  simp only [s', WssState.finish, WssRequest.postWssConsumeQuota, ← hamount]
  by_cases htokens : s.sumUsage.totalTokens = 0
  · have hzero : amount = 0 := by
      rw [hamount, WssRequest.wssQuota, if_pos htokens]
    simp only [if_pos htokens, hzero, increased_zero, Ledgers.recordConsumeLog]
    split
    · exact ⟨rfl, rfl, rfl, rfl, trivial⟩
    · exact ⟨rfl, rfl, (List.append_nil _).symm, rfl, trivial⟩
  · simp only [if_neg htokens, Ledgers.recordConsumeLog]
    split
    · exact ⟨rfl, rfl, rfl, rfl, rfl⟩
    · exact ⟨rfl, rfl, (List.append_nil _).symm, rfl, rfl⟩

end Finish

/-- **What a realtime session is charged.**  All charges of a session that is billed by the ratio
succeed, and so does its settlement.  Then it has taken, in the end, what has been written in the
used quotas and in the log, and on top of that the charges in between and what a subscription could
not be given back.  So it is paid once, up to what is rounded, exactly if these come to no more than
that. -/
theorem realtime_paid_once {cfg : TextConfig} {r : WssRequest} {l : Ledgers}
    {fundingTaken tokenTaken : ℤ}
    (hopened : r.Opened cfg.billing l.world fundingTaken tokenTaken)
    (hprice : r.usePrice = false) (hratio : r.pricing.priceData.usePrice = false)
    (htiered : r.pricing.tieredBillingSnapshot = none) {ops : List WssOp}
    (hops : Transition.Along (wssStep cfg) (WssSucceeds cfg)
      (.start r l fundingTaken tokenTaken) ops)
    {settings : AudioRatioSettings} {modelName : String} {exprCost : Option ℚ}
    {faults : SettleFaults}
    (hend : ((Transition.run (wssStep cfg) (.start r l fundingTaken tokenTaken) ops).finish cfg
      settings modelName exprCost faults).1 = none) :
    let s := Transition.run (wssStep cfg) (.start r l fundingTaken tokenTaken) ops
    let s' := (s.finish cfg settings modelName exprCost faults).2
    let amount := s.request.wssQuota cfg settings modelName s.sumUsage exprCost
    let charges := wssCharges cfg r ops
    let rounding := totalRounding (charges ++ [r.lastCharge cfg settings modelName s.sumUsage])
    let notGivenBack :=
      r.billing.funding.notGivenBack (amount - r.billing.preConsumed) s.ledgers.world
    s'.fundingTaken = amount + totalCharge charges + notGivenBack ∧
      (r.billing.relayInfo.isPlayground = false →
        s'.tokenTaken = amount + totalCharge charges) ∧
      (PaidOnce cfg rounding s s' ↔
        ((totalCharge charges + notGivenBack : ℤ) : ℚ) ≤ rounding) := by
  intro s s' amount charges rounding notGivenBack
  obtain ⟨hready, hfundingTaken, htokenTaken, hinv⟩ := hopened.taken
  have hstart : WssTaken r fundingTaken tokenTaken 0 (.start r l fundingTaken tokenTaken) := by
    refine ⟨.refl r, hinv, (add_zero _).symm, ?_⟩
    rw [ite_self, add_zero]
    rfl
  have htaken : WssTaken r fundingTaken tokenTaken (0 + totalCharge charges) s :=
    run_wss hprice hready hstart hops
  rw [zero_add] at htaken
  have hsame := htaken.continues.same
  have hnonneg : 0 ≤ amount :=
    wssQuota_nonneg (hsame.price ▸ hratio) (hsame.snapshot.trans htiered) _ _ _ _
  obtain ⟨huser, hchannel, hlogs, hworld, hfault⟩ :=
    @finish_written cfg s settings modelName exprCost faults
  obtain ⟨hfunding, htoken⟩ := settleBilling_ok (hsame.ready hready) htaken.store hnonneg
    (hfault.symm.trans hend)
  rw [hsame.funding, hsame.preConsumed] at hfunding
  rw [hsame.preConsumed, hsame.tokenId, hsame.isPlayground] at htoken
  have hfundingTaken' : s'.fundingTaken = amount + totalCharge charges + notGivenBack := by
    have hmove : s'.fundingTaken = s.fundingTaken +
        (s.request.billing.funding.balance s.ledgers.world -
          s.request.billing.funding.balance s'.ledgers.world) := rfl
    rw [hmove, hsame.funding, hworld, hfunding, htaken.funding, hfundingTaken]
    omega
  have htokenTaken' : r.billing.relayInfo.isPlayground = false →
      s'.tokenTaken = amount + totalCharge charges := by
    intro hplay
    have hmove : s'.tokenTaken = s.tokenTaken +
        (s.ledgers.world.tokenRemain s.request.billing.relayInfo.tokenId -
          s'.ledgers.world.tokenRemain s.request.billing.relayInfo.tokenId) := rfl
    rw [hmove, hsame.tokenId, hworld, htoken, htaken.token, htokenTaken hplay, hplay]
    simp only [Bool.false_eq_true, if_false]
    omega
  refine ⟨hfundingTaken', htokenTaken', ?_⟩
  have hcharges : 0 ≤ totalCharge charges := totalCharge_nonneg hprice ops
  have hcut : 0 ≤ notGivenBack := notGivenBack_nonneg _ _ _
  have hmore : |(s'.fundingTaken : ℚ) - amount| =
      ((totalCharge charges + notGivenBack : ℤ) : ℚ) := by
    rw [hfundingTaken']
    push_cast
    rw [abs_of_nonneg]
    · ring
    · have hsum : (0 : ℚ) ≤ totalCharge charges + notGivenBack := by
        exact_mod_cast add_nonneg hcharges hcut
      linarith
  constructor
  · rintro ⟨amount', huser', -, -, hclose, -⟩
    obtain rfl : amount = amount' := increased_inj (huser.symm.trans huser')
    rw [← hmore]
    exact hclose
  · intro hle
    refine ⟨amount, huser, hchannel, hlogs, hmore.trans_le hle, fun hplay => ?_⟩
    have hplay' : r.billing.relayInfo.isPlayground = false := hsame.isPlayground ▸ hplay
    rw [htokenTaken' hplay']
    push_cast at hle ⊢
    have hcut' : (0 : ℚ) ≤ notGivenBack := by exact_mod_cast hcut
    have hcharges' : (0 : ℚ) ≤ totalCharge charges := by exact_mod_cast hcharges
    rw [add_sub_cancel_left, abs_of_nonneg hcharges']
    linarith

/-! ### Two responses -/

/-- A model with a ratio in a group with the ratio 1. -/
def plainRatios (ratio : ℚ) : AudioRatioSettings where
  groups := ⟨fun _ => some 1, fun _ _ => none⟩
  modelRatio _ := ratio
  completionRatio _ := 1
  audioRatio _ := 1
  audioCompletionRatio _ := 1

/-- A request of user 1 through channel 7, for which 100 has been taken from the wallet. -/
def realtimeRequest (ratio : ℚ) : WssRequest where
  channelId := 7
  pricing := ⟨"default", "default", ⟨0, ratio, false, [], ⟨1, -1, false⟩⟩, none, 0⟩
  billing := .session walletStart.session
  usePrice := false
  autoGroup := none

theorem opened_realtimeRequest (ratio : ℚ) :
    (realtimeRequest ratio).Opened plainConfig emptyLedgers.world 100 100 :=
  .inr ⟨plainOpen, plainRequest "wallet_only", 100, plainWorld (Tables.empty fun _ => "default"),
    walletStart, StoreInv.empty _, by decide, by decide, by decide, openBilling_walletStart, rfl,
    rfl, by decide, by decide⟩

/-- A response with as many tokens of text. -/
def response (ratio : ℚ) (tokens : ℤ) : WssOp :=
  .charge (plainRatios ratio) { userQuota := .ok 1000, token := .ok (true, 0) }
    ⟨tokens, 0, tokens, 0, 0, 0, tokens, 0⟩

theorem succeeds_response {ratio : ℚ} {tokens : ℤ} {s : WssState}
    (h : (s.request.preWssConsumeQuota plainText (plainRatios ratio)
      { userQuota := .ok 1000, token := .ok (true, 0) } ⟨tokens, 0, tokens, 0, 0, 0, tokens, 0⟩
      s.ledgers.world).1.1 = none) : WssSucceeds plainText s (response ratio tokens) := h

/-- The session of the request after two responses. -/
def twoResponses (ratio : ℚ) (tokens : ℤ) : WssState :=
  Transition.run (wssStep plainText) (.start (realtimeRequest ratio) emptyLedgers 100 100)
    [response ratio tokens, response ratio tokens]

/-- The end of the session. -/
def twoResponsesEnd (ratio : ℚ) (tokens : ℤ) : Fault × WssState :=
  (twoResponses ratio tokens).finish plainText (plainRatios ratio) "gpt-4o-realtime" none {}

/-- What is rounded in the two charges and in the last one. -/
def twoResponsesRounding (ratio : ℚ) (tokens : ℤ) : ℚ :=
  totalRounding (wssCharges plainText (realtimeRequest ratio)
      [response ratio tokens, response ratio tokens] ++
    [(realtimeRequest ratio).lastCharge plainText (plainRatios ratio) "gpt-4o-realtime"
      (twoResponses ratio tokens).sumUsage])

/-- Two responses of a fraction each, which is rounded to nothing: one is paid for both, at the
end. -/
theorem realtime_paid_once_fractions :
    (twoResponsesEnd (2 / 5) 1).2.ledgers.consumeLogs.map (·.quota) = [1] ∧
      (twoResponsesEnd (2 / 5) 1).2.fundingTaken = 1 ∧
      PaidOnce plainText (twoResponsesRounding (2 / 5) 1) (twoResponses (2 / 5) 1)
        (twoResponsesEnd (2 / 5) 1).2 := by
  have hops : Transition.Along (wssStep plainText) (WssSucceeds plainText)
      (.start (realtimeRequest (2 / 5)) emptyLedgers 100 100)
      [response (2 / 5) 1, response (2 / 5) 1] :=
    ⟨succeeds_response (by decide +kernel), succeeds_response (by decide +kernel), trivial⟩
  have hend : (twoResponsesEnd (2 / 5) 1).1 = none := by decide +kernel
  have honce := realtime_paid_once (opened_realtimeRequest (2 / 5)) rfl rfl rfl hops hend
  exact ⟨by decide +kernel, by decide +kernel, honce.2.2.2 (by decide +kernel)⟩

/-- **Two responses of 200 tokens each are paid twice**: 400 has been written, and 800 taken. -/
theorem realtime_paid_twice :
    (realtimeRequest 1).Opened plainConfig emptyLedgers.world 100 100 ∧
      Transition.Along (wssStep plainText) (WssSucceeds plainText)
        (.start (realtimeRequest 1) emptyLedgers 100 100) [response 1 200, response 1 200] ∧
      (twoResponsesEnd 1 200).1 = none ∧
      (twoResponsesEnd 1 200).2.ledgers.consumeLogs.map (·.quota) = [400] ∧
      (twoResponsesEnd 1 200).2.fundingTaken = 800 ∧ (twoResponsesEnd 1 200).2.tokenTaken = 800 ∧
      twoResponsesRounding 1 200 = 0 ∧
      ¬ PaidOnce plainText (twoResponsesRounding 1 200) (twoResponses 1 200)
        (twoResponsesEnd 1 200).2 := by
  have hlogs : (twoResponsesEnd 1 200).2.ledgers.consumeLogs.map (·.quota) = [400] := by
    decide +kernel
  have htaken : (twoResponsesEnd 1 200).2.fundingTaken = 800 := by decide +kernel
  have hrounding : twoResponsesRounding 1 200 = 0 := by decide +kernel
  refine ⟨opened_realtimeRequest 1,
    ⟨succeeds_response (by decide +kernel), succeeds_response (by decide +kernel), trivial⟩,
    by decide +kernel, hlogs, htaken, by decide +kernel, hrounding, ?_⟩
  rintro ⟨amount, -, -, hlog, hclose, -⟩
  have hamount : amount = 400 := by
    have hnone : (twoResponses 1 200).ledgers.consumeLogs = [] := by decide
    rw [hlog, hnone] at hlogs
    exact List.singleton_inj.1 hlogs
  rw [htaken, hamount, hrounding] at hclose
  norm_num at hclose

end NewApi
