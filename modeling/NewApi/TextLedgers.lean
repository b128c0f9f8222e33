/-
**One amount for a text request.**

When a text request has been answered its quota is computed, and it goes to four places: to the used
quota of the user, to that of the channel, to the consume log, and to the settlement, which takes the
difference to what has been charged before from the funding source.  A request of a free model has
no billing session; it is settled by an older path, against the wallet.

The quota is computed in two ways.  The price or the ratio of the model gives nothing for a request
without tokens; a billing expression is then put in its place, and it may come to anything: it can be
a constant, tools are added to it, and if it cannot be evaluated it is what has been charged before.
Of the four places the two used quotas are skipped for a request without tokens, the other two are
not.

All statements succeed here, and a quota counts the changes that are queued for a batch as made.

Main definitions:

* `NewApi.settleBilling`, `NewApi.postConsumeQuota` — the settlement;
* `NewApi.Ledgers`, `NewApi.TextRequest.postTextConsumeQuota` — the four places, and what is written;
* `NewApi.RequestBilling.Charged` — how a request gets to its settlement.

Main results:

* `NewApi.text_ledgers_agree` — **the amounts are the same just for the requests that have tokens or
  come to nothing, and whose funding source can take the difference**;
* `NewApi.constant_expression_unused` — a request that is charged, and not counted as used.
-/

import NewApi.GroupSettlement
import NewApi.BillingLifecycle

set_option autoImplicit false

namespace NewApi

open BillingSession

/-! ### The settlement of a request -/

/-- What a request keeps of its charge: its session or, if it has none, its own fields. -/
inductive RequestBilling where
  | session (s : BillingSession)
  | plain (relayInfo : RelayInfo)

def RequestBilling.relayInfo : RequestBilling → RelayInfo
  | .session s => s.relayInfo
  | .plain relayInfo => relayInfo

/-- What a request is charged to. -/
def RequestBilling.funding : RequestBilling → FundingSource
  | .session s => s.funding
  | .plain relayInfo => .wallet ⟨relayInfo.userId, 0⟩

/-- The source of a request without a session is charged `quota` more. -/
def postConsumeFunding (cfg : BillingConfig) (faults : FundingSource.ChangeFaults)
    (relayInfo : RelayInfo) (quota : ℤ) (w : World) : Except String (RelayInfo × World) :=
  if relayInfo.billingSource = billingSourceSubscription then
    if relayInfo.subscriptionId = 0 then .error "subscription id is missing"
    else if quota = 0 then .ok (relayInfo, w)
    else
      (FundingSource.postConsume faults.sub relayInfo.subscriptionId quota w).map fun w =>
        ({ relayInfo with subscriptionPostDelta := relayInfo.subscriptionPostDelta + quota }, w)
  else if 0 < quota then
    (decreaseUserQuota cfg faults.user relayInfo.userId quota w).map fun w => (relayInfo, w)
  else
    (increaseUserQuota cfg faults.user relayInfo.userId (-quota) w).map fun w => (relayInfo, w)

/-- A request without a session is charged `quota` more, and so is its token. -/
def postConsumeQuota (cfg : BillingConfig) (faults : SettleFaults) (relayInfo : RelayInfo)
    (quota : ℤ) (w : World) : (Fault × RelayInfo) × World :=
  match postConsumeFunding cfg faults.funding relayInfo quota w with
  | .error e => ((some e, relayInfo), w)
  | .ok (relayInfo, w) =>
    match settleToken cfg faults.token quota relayInfo w with
    | .error e => ((some e, relayInfo), w)
    | .ok w => ((none, relayInfo), w)

/-- Replace what has been charged for a request by the actual amount. -/
def settleBilling (cfg : BillingConfig) (faults : SettleFaults) (billing : RequestBilling)
    (actualQuota : ℤ) (w : World) : (Fault × RequestBilling) × World :=
  match billing with
  | .session s =>
    let r := s.settle cfg faults actualQuota w
    ((r.1.1, .session r.1.2), r.2)
  | .plain relayInfo =>
    let quotaDelta := actualQuota - relayInfo.finalPreConsumedQuota
    if quotaDelta = 0 then ((none, .plain relayInfo), w)
    else
      let r := postConsumeQuota cfg faults relayInfo quotaDelta w
      ((r.1.1, .plain r.1.2), r.2)

/-! ### The ledgers -/

/-- A consume log: for whom, and how much. -/
structure ConsumeLog where
  userId : ℤ
  channelId : ℤ
  tokenId : ℤ
  quota : ℤ
deriving DecidableEq, Repr

/-- Where the quota of a request is written. -/
structure Ledgers where
  world : World
  userUsedQuota : ℤ → ℤ
  channelUsedQuota : ℤ → ℤ
  consumeLogs : List ConsumeLog

structure TextConfig where
  quota : QuotaConfig
  billing : BillingConfig
  logConsumeEnabled : Bool

/-- `f` with `x` added at `id`. -/
def increased (f : ℤ → ℤ) (id x : ℤ) : ℤ → ℤ := Function.update f id (f id + x)

def Ledgers.updateUserUsedQuota (id quota : ℤ) (l : Ledgers) : Ledgers :=
  { l with userUsedQuota := increased l.userUsedQuota id quota }

def Ledgers.updateChannelUsedQuota (id quota : ℤ) (l : Ledgers) : Ledgers :=
  { l with channelUsedQuota := increased l.channelUsedQuota id quota }

def Ledgers.recordConsumeLog (cfg : TextConfig) (log : ConsumeLog) (l : Ledgers) : Ledgers :=
  if cfg.logConsumeEnabled then { l with consumeLogs := l.consumeLogs ++ [log] } else l

/-- A text request that has been answered. -/
structure TextRequest where
  channelId : ℤ
  pricing : RelayPricing
  billing : RequestBilling

namespace TextRequest

/-- What is kept about the price of a request, with what has been charged for it. -/
def priced (r : TextRequest) : RelayPricing :=
  { r.pricing with finalPreConsumedQuota := r.billing.relayInfo.finalPreConsumedQuota }

/-- The quota of the request. -/
def quota (cfg : TextConfig) (usage : TextUsage) (reported : Bool) (r : TextRequest) : ℤ :=
  NewApi.postTextConsumeQuota cfg.quota r.priced usage reported

/-- The log of the request, at the quota `quota`. -/
def consumeLog (quota : ℤ) (r : TextRequest) : ConsumeLog where
  userId := r.billing.relayInfo.userId
  channelId := r.channelId
  tokenId := r.billing.relayInfo.tokenId
  quota := quota

/-- The settlement of a text request, with the four writes. -/
def postTextConsumeQuota (cfg : TextConfig) (usage : TextUsage) (reported : Bool)
    (r : TextRequest) (l : Ledgers) : TextRequest × Ledgers :=
  let quota := r.quota cfg usage reported
  let l :=
    if usage.totalTokens = 0 then l
    else
      (l.updateUserUsedQuota r.billing.relayInfo.userId quota).updateChannelUsedQuota r.channelId
        quota
  let settled := settleBilling cfg.billing {} r.billing quota l.world
  ({ r with billing := settled.1.2 },
    { l with world := settled.2 }.recordConsumeLog cfg (r.consumeLog quota))

end TextRequest

/-! ### What is said of a settlement -/

/-- How a request with the charge `billing` gets to its settlement, `taken` having been taken from
its funding source: it is a request of a free model, for which nothing has been charged; or it has a
session that was opened for it and is neither settled nor refunded, whatever has been reserved in
between, and whatever other requests have done. -/
def RequestBilling.Charged (cfg : BillingConfig) (w : World) (taken : ℤ)
    (billing : RequestBilling) : Prop :=
  (∃ relayInfo, billing = .plain relayInfo ∧ relayInfo.finalPreConsumedQuota = 0 ∧
    relayInfo.billingSource ≠ billingSourceSubscription ∧ taken = 0) ∨
  ∃ env relayInfo quota w₀ start ops, StoreInv w₀.store ∧
    w₀.store.record relayInfo.requestId = none ∧ 0 ≤ quota ∧
    openBilling cfg env relayInfo quota w₀ = some start ∧
    Transition.Along (billingStep cfg) (Regular cfg True) start ops ∧
    let s := Transition.run (billingStep cfg) start ops
    s.session.settled = false ∧ s.session.refunded = false ∧
      billing = .session s.session ∧ w = s.world ∧ taken = s.fundingTaken

/-- One amount has been written everywhere: to the used quotas of the user and of the channel, to the
log, if there is one, and what has been taken from the funding source has come to it. -/
def OneAmount (cfg : TextConfig) (r : TextRequest) (taken : ℤ) (l l' : Ledgers) : Prop :=
  ∃ amount,
    l'.userUsedQuota = increased l.userUsedQuota r.billing.relayInfo.userId amount ∧
    l'.channelUsedQuota = increased l.channelUsedQuota r.channelId amount ∧
    l'.consumeLogs = l.consumeLogs ++
      (if cfg.logConsumeEnabled then [r.consumeLog amount] else []) ∧
    taken + (r.billing.funding.balance l.world - r.billing.funding.balance l'.world) = amount

/-- The source can take `delta` more, or be given it back when it is negative: a subscription must be
there, and its used amount must stay within its total and not go below zero. -/
def FundingSource.Affords (delta : ℤ) (funding : FundingSource) (w : World) : Prop :=
  match funding with
  | .wallet _ => True
  | .subscription f => delta = 0 ∨ ∃ sub, w.store.sub f.subscriptionId = some sub ∧
      0 ≤ sub.amountUsed + delta ∧
      (0 < sub.amountTotal → sub.amountUsed + delta ≤ sub.amountTotal)

namespace FundingSource

variable {cfg : BillingConfig} {funding : FundingSource} {delta : ℤ} {w : World}

/-- A source takes what it can take. -/
theorem settle_of_affords (hinv : StoreInv w.store) (h : funding.Affords delta w) :
    ∃ w', funding.settle cfg {} delta w = .ok w' ∧ funding.Takes delta w w' := by
  cases funding with
  | wallet f =>
    have hok : ∃ w', (FundingSource.wallet f).settle cfg {} delta w = .ok w' := by
      simp only [settle]
      split_ifs with hzero hpos
      · exact ⟨w, rfl⟩
      · exact ⟨_, changeQuota_reliable w (by omega) (Or.inr rfl)⟩
      · exact ⟨_, changeQuota_reliable w (by omega) (Or.inr rfl)⟩
    obtain ⟨w', hw'⟩ := hok
    exact ⟨w', hw', settle_takes hw' trivial⟩
  | subscription f =>
    rcases h with rfl | ⟨sub, hsub, hpos, htotal⟩
    · exact ⟨w, by simp [settle], .refl _ _⟩
    · by_cases hzero : delta = 0
      · subst hzero
        exact ⟨w, by simp [settle], .refl _ _⟩
      · obtain ⟨hmem, hid⟩ := Tables.sub_mem hsub
        have hidPos := (hinv.subIdsLt sub hmem).1
        have hcovers : (FundingSource.subscription f).Covers delta w := by
          simp only [Covers, Tables.amountUsed_of_sub hsub]
          exact hpos
        have hpost := postConsume_of_sub (by omega : 0 < f.subscriptionId) hzero hsub
          (by rw [max_eq_right hpos]; exact htotal)
        have hok : ∃ w', (FundingSource.subscription f).settle cfg {} delta w = .ok w' := by
          simp [settle, hzero, postConsume, hpost, Except.map]
        obtain ⟨w', hw'⟩ := hok
        exact ⟨w', hw', settle_takes hw' hcovers⟩

/-- What would give back more than what is used is not refused. -/
theorem settle_below {f : SubscriptionFunding} (hinv : StoreInv w.store)
    (hbelow : delta < (FundingSource.subscription f).balance w)
    (hused : (FundingSource.subscription f).balance w < 0) :
    ∃ w', (FundingSource.subscription f).settle cfg {} delta w = .ok w' := by
  simp only [balance] at hbelow hused
  cases hsub : w.store.sub f.subscriptionId with
  | none =>
    simp only [Tables.amountUsed, hsub, Option.map_none, Option.getD_none] at hused
    omega
  | some sub =>
    obtain ⟨hmem, hid⟩ := Tables.sub_mem hsub
    have hidPos := (hinv.subIdsLt sub hmem).1
    rw [Tables.amountUsed_of_sub hsub] at hbelow hused
    have hpost := postConsume_of_sub (by omega : 0 < f.subscriptionId) (by omega : delta ≠ 0)
      hsub (by intro htotal; omega)
    have hzero : delta ≠ 0 := by omega
    simp [settle, hzero, postConsume, hpost, Except.map]

/-- What a source cannot take is refused, or it is more than what can be given back, and all of this
is given back. -/
theorem settle_of_not_affords (hinv : StoreInv w.store) (h : ¬ funding.Affords delta w) :
    (∃ f, funding = .subscription f) ∧ delta ≠ 0 ∧
      (((∃ e, funding.settle cfg {} delta w = .error e) ∧
          ¬ (delta < funding.balance w ∧ funding.balance w < 0)) ∨
        ∃ w', funding.settle cfg {} delta w = .ok w' ∧ funding.balance w' = 0 ∧
          delta < funding.balance w) := by
  cases funding with
  | wallet f => exact absurd trivial h
  | subscription f =>
    have hzero : delta ≠ 0 := fun hzero => h (.inl hzero)
    refine ⟨⟨f, rfl⟩, hzero, ?_⟩
    cases hok : (FundingSource.subscription f).settle cfg {} delta w with
    | error e =>
      refine .inl ⟨⟨e, rfl⟩, fun hbelow => ?_⟩
      obtain ⟨w', hw'⟩ := settle_below hinv hbelow.1 hbelow.2
      rw [hok] at hw'
      simp at hw'
    | ok w' =>
      refine .inr ⟨w', rfl, ?_⟩
      simp only [settle, if_neg hzero, postConsume] at hok
      cases hpost : postConsumeUserSubscriptionDelta {} f.subscriptionId delta w.store with
      | error e => simp [hpost, Except.map] at hok
      | ok t =>
        obtain rfl : { w with store := t } = w' := by simpa [hpost, Except.map] using hok
        rcases postConsume_ok hpost with ⟨hdelta, _⟩ | ⟨sub, hsub, htotal, rfl⟩
        · exact absurd hdelta hzero
        · have hcut : sub.amountUsed + delta < 0 := by
            by_contra hpos
            rw [max_eq_right (by omega)] at htotal
            exact h (.inr ⟨sub, hsub, by omega, htotal⟩)
          generalize hcutSub :
            ({ sub with amountUsed := max 0 (sub.amountUsed + delta) } : UserSubscription)
              = cutSub
          have hid : cutSub.id = f.subscriptionId := by
            rw [← hcutSub]
            exact (Tables.sub_mem hsub).2
          have hused : cutSub.amountUsed = 0 := by
            rw [← hcutSub]
            exact max_eq_left hcut.le
          have hself := Tables.saveSub_amountUsed_self w.store cutSub
          rw [hid, hused] at hself
          simp only [balance, Tables.amountUsed_of_sub hsub, hself]
          omega

end FundingSource

/-! ### What a settlement takes -/

/-- What has been taken for a request after it has been settled at `quota`. -/
def RequestBilling.takenAfter (cfg : BillingConfig) (w : World) (taken quota : ℤ)
    (billing : RequestBilling) : ℤ :=
  taken + (billing.funding.balance w
    - billing.funding.balance (settleBilling cfg {} billing quota w).2)

section Settle

variable {cfg : BillingConfig} {billing : RequestBilling} {w : World} {taken : ℤ}

/-- A request that nothing has been charged for is settled against the wallet. -/
theorem takenAfter_plain {relayInfo : RelayInfo} (quota : ℤ)
    (hpre : relayInfo.finalPreConsumedQuota = 0)
    (hsource : relayInfo.billingSource ≠ billingSourceSubscription) :
    (RequestBilling.plain relayInfo).takenAfter cfg w 0 quota = quota := by
  simp only [RequestBilling.takenAfter, RequestBilling.funding, settleBilling, hpre, sub_zero]
  by_cases hzero : quota = 0
  · rw [if_pos hzero, hzero]
    simp
  · have hfunded : postConsumeFunding cfg {} relayInfo quota w
        = .ok (relayInfo, w.addUserQuota relayInfo.userId (-quota)) := by
      simp only [postConsumeFunding, if_neg hsource]
      split_ifs with hpos
      · rw [decreaseUserQuota, changeQuota_reliable w hpos.le (.inr rfl)]
        rfl
      · rw [increaseUserQuota, changeQuota_reliable w (by omega) (.inr rfl)]
        rfl
    rw [if_neg hzero]
    simp only [postConsumeQuota, hfunded]
    cases htoken : settleToken cfg none quota relayInfo
        (w.addUserQuota relayInfo.userId (-quota)) with
    | error e => simp [FundingSource.balance]
    | ok w' =>
      rw [settleToken_ok htoken]
      simp [FundingSource.balance]

/-- What a settlement leaves in the funding source is what the change of the source leaves. -/
theorem settle_balance (s : BillingSession) (quota : ℤ) (hsettled : s.settled = false)
    (hfunding : s.fundingSettled = false) :
    s.funding.balance (s.settle cfg {} quota w).2 =
      match s.funding.settle cfg {} (quota - s.preConsumedQuota) w with
      | .error _ => s.funding.balance w
      | .ok w' => s.funding.balance w' := by
  simp only [BillingSession.settle, hsettled, hfunding, Bool.false_eq_true, if_false]
  by_cases hzero : quota - s.preConsumedQuota = 0
  · rw [if_pos hzero, hzero]
    cases s.funding with
    | wallet f => simp [FundingSource.settle]
    | subscription f => simp [FundingSource.settle]
  · rw [if_neg hzero]
    cases s.funding.settle cfg {} (quota - s.preConsumedQuota) w with
    | error e => rfl
    | ok w' =>
      cases htoken : settleToken cfg none (quota - s.preConsumedQuota) s.relayInfo w' with
      | error e => simp [htoken]
      | ok w'' =>
        simp only [htoken]
        rw [settleToken_ok htoken, balance_takeToken]

/-- A session that is neither settled nor refunded holds what it has taken. -/
theorem RequestBilling.Charged.holds (h : billing.Charged cfg w taken) :
    (∃ relayInfo, billing = .plain relayInfo ∧ relayInfo.finalPreConsumedQuota = 0 ∧
      relayInfo.billingSource ≠ billingSourceSubscription ∧ taken = 0) ∨
    ∃ s, billing = .session s ∧ StoreInv w.store ∧ s.settled = false ∧ s.fundingSettled = false ∧
      s.Counted w ∧ s.preConsumedQuota = taken := by
  rcases h with h | ⟨env, relayInfo, quota, w₀, start, ops, hinv, hfresh, hquota, hopen, hops,
    hsettled, hrefunded, rfl, rfl, rfl⟩
  · exact .inl h
  · obtain ⟨hstart, hopened⟩ := openBilling_opened hinv hfresh hquota hopen
    have hholds : Holds start (.held start.session.preConsumedQuota) := by
      rw [hstart]
      exact hopened.holds
    obtain ⟨hstore, hold, _, hs⟩ := run_holds hopened.store hholds hops
    have hheld := hs.of_open hsettled hrefunded
    rw [hheld] at hs
    refine .inr ⟨_, rfl, hstore, hsettled, ?_⟩
    cases hs with
    | held _ _ hfunding _ _ hcounted _ htaken => exact ⟨hfunding, hcounted, htaken.symm⟩

/-- A request is settled at its quota if its source can take the difference. -/
theorem takenAfter_of_affords (h : billing.Charged cfg w taken) {quota : ℤ}
    (hafford : billing.funding.Affords (quota - taken) w) :
    billing.takenAfter cfg w taken quota = quota := by
  rcases h.holds with ⟨relayInfo, rfl, hpre, hsource, rfl⟩ |
    ⟨s, rfl, hinv, hsettled, hfunding, _, rfl⟩
  · exact takenAfter_plain quota hpre hsource
  · obtain ⟨w', hw', htakes⟩ := @FundingSource.settle_of_affords cfg _ _ _ hinv hafford
    simp only [RequestBilling.takenAfter, RequestBilling.funding] at hw' htakes ⊢
    rw [settleBilling, settle_balance s quota hsettled hfunding, hw']
    simp only [htakes.balance]
    omega

/-- A request is not settled at its quota if its source cannot take the difference; it comes to
nothing if the quota is negative and all that was used of the source is the request's charge. -/
theorem takenAfter_of_not_affords (h : billing.Charged cfg w taken) {quota : ℤ}
    (hafford : ¬ billing.funding.Affords (quota - taken) w) :
    billing.takenAfter cfg w taken quota ≠ quota ∧
      (billing.takenAfter cfg w taken quota = 0 ↔
        quota < 0 ∧ billing.funding.balance w = -taken) := by
  rcases h.holds with ⟨relayInfo, rfl, _⟩ | ⟨s, rfl, hinv, hsettled, hfunding, hcounted, rfl⟩
  · exact absurd trivial hafford
  · obtain ⟨⟨f, hf⟩, hzero, hcases⟩ :=
      @FundingSource.settle_of_not_affords cfg _ _ _ hinv hafford
    have hpos : 0 < s.preConsumedQuota := by
      obtain ⟨_, _, hextra, hcharge⟩ := hcounted
      rw [show s.funding = .subscription f from hf] at hcharge
      obtain ⟨hsum, hpre, _⟩ := hcharge
      omega
    simp only [RequestBilling.takenAfter, RequestBilling.funding] at hcases ⊢
    rw [settleBilling, settle_balance s quota hsettled hfunding]
    rcases hcases with ⟨⟨e, he⟩, hbelow⟩ | ⟨w', hw', hempty, hbelow⟩
    · rw [he]
      simp only
      constructor
      · omega
      · constructor
        · omega
        · rintro ⟨hneg, hused⟩
          exact absurd ⟨by omega, by omega⟩ hbelow
    · rw [hw']
      simp only [hempty]
      constructor
      · omega
      · constructor
        · intro hnothing
          omega
        · rintro ⟨hneg, hused⟩
          omega

end Settle

/-! ### One amount -/

theorem increased_zero (f : ℤ → ℤ) (id : ℤ) : increased f id 0 = f := by
  simp [increased]

theorem increased_inj {f : ℤ → ℤ} {id x y : ℤ} (h : increased f id x = increased f id y) :
    x = y := by
  have hid := congrFun h id
  simp only [increased, Function.update_self] at hid
  omega

/-- What a request comes to by its expression; nothing, if it is not billed by one, or if its channel
has not reported a usage. -/
def RelayPricing.tieredTextQuota (cfg : QuotaConfig) (usage : TextUsage) (reported : Bool)
    (info : RelayPricing) : ℤ :=
  if reported = false then 0
  else
    match tryTieredSettle info usage.exprCost with
    | some (tieredQuota, result) =>
      composeTieredTextQuota info (calculateTextQuotaSummary cfg info usage).1 tieredQuota result
    | none => 0

namespace TextRequest

variable {cfg : TextConfig} {r : TextRequest} {usage : TextUsage} {reported : Bool}

/-- Without tokens there is nothing but the expression. -/
theorem quota_of_no_tokens (h : usage.totalTokens = 0) :
    r.quota cfg usage reported = r.priced.tieredTextQuota cfg.quota usage reported := by
  have hquota : (calculateTextQuotaSummary cfg.quota r.priced usage).2 = 0 := by
    simp [calculateTextQuotaSummary, h]
  cases reported with
  | false =>
    simp only [quota, NewApi.postTextConsumeQuota, RelayPricing.tieredTextQuota, hquota, if_true]
  | true =>
    cases htiered : tryTieredSettle r.priced usage.exprCost with
    | none | some tiered =>
      simp only [quota, NewApi.postTextConsumeQuota, RelayPricing.tieredTextQuota, hquota,
        htiered, Bool.true_eq_false, if_false]

/-- What is added to the used quotas. -/
def booked (cfg : TextConfig) (usage : TextUsage) (reported : Bool) (r : TextRequest) : ℤ :=
  if usage.totalTokens = 0 then 0 else r.quota cfg usage reported

/-- The amounts are the same if the log, when there is one, and the settlement come to what is added
to the used quotas. -/
theorem oneAmount_iff (l : Ledgers) (taken : ℤ) :
    OneAmount cfg r taken l (r.postTextConsumeQuota cfg usage reported l).2 ↔
      (cfg.logConsumeEnabled = true → r.quota cfg usage reported = r.booked cfg usage reported) ∧
        r.billing.takenAfter cfg.billing l.world taken (r.quota cfg usage reported)
          = r.booked cfg usage reported := by
  have huser : (r.postTextConsumeQuota cfg usage reported l).2.userUsedQuota
      = increased l.userUsedQuota r.billing.relayInfo.userId (r.booked cfg usage reported) := by
    simp only [postTextConsumeQuota, booked, Ledgers.recordConsumeLog]
    split_ifs <;> simp [increased_zero, Ledgers.updateUserUsedQuota,
      Ledgers.updateChannelUsedQuota]
  have hchannel : (r.postTextConsumeQuota cfg usage reported l).2.channelUsedQuota
      = increased l.channelUsedQuota r.channelId (r.booked cfg usage reported) := by
    simp only [postTextConsumeQuota, booked, Ledgers.recordConsumeLog]
    split_ifs <;> simp [increased_zero, Ledgers.updateUserUsedQuota,
      Ledgers.updateChannelUsedQuota]
  have hlogs : (r.postTextConsumeQuota cfg usage reported l).2.consumeLogs = l.consumeLogs ++
      (if cfg.logConsumeEnabled then [r.consumeLog (r.quota cfg usage reported)] else []) := by
    simp only [postTextConsumeQuota, Ledgers.recordConsumeLog]
    split_ifs <;> simp [Ledgers.updateUserUsedQuota, Ledgers.updateChannelUsedQuota]
  have hworld : (r.postTextConsumeQuota cfg usage reported l).2.world
      = (settleBilling cfg.billing {} r.billing (r.quota cfg usage reported) l.world).2 := by
    simp only [postTextConsumeQuota, Ledgers.recordConsumeLog]
    split_ifs <;> simp [Ledgers.updateUserUsedQuota, Ledgers.updateChannelUsedQuota]
  unfold OneAmount
  rw [huser, hchannel, hlogs, hworld]
  constructor
  · rintro ⟨amount, hamount, _, hlog, htaken⟩
    obtain rfl := increased_inj hamount
    refine ⟨fun henabled => ?_, htaken⟩
    rw [if_pos henabled, if_pos henabled] at hlog
    simpa [consumeLog] using hlog
  · rintro ⟨hlog, htaken⟩
    refine ⟨r.booked cfg usage reported, rfl, rfl, ?_, htaken⟩
    split_ifs with henabled
    · rw [hlog henabled]
    · rfl

end TextRequest

/-- **The amounts of a text request.**  A text request is settled, and all statements succeed.  What
is added to the used quotas of its user and of its channel, what is written in the log and what has
been taken from its funding source in the end are one amount if and only if the source can take the
difference, and the request has tokens or comes to nothing by its expression.

There is one more case, which is none to wish for: the log is off, a negative expression gives back
more than there is, and so the used amount is cut at zero, where it had been before the request. -/
theorem text_ledgers_agree (cfg : TextConfig) (r : TextRequest) (usage : TextUsage)
    (reported : Bool) (l : Ledgers) (taken : ℤ)
    (hcharged : r.billing.Charged cfg.billing l.world taken) :
    OneAmount cfg r taken l (r.postTextConsumeQuota cfg usage reported l).2 ↔
      (r.billing.funding.Affords (r.quota cfg usage reported - taken) l.world ∧
        (usage.totalTokens ≠ 0 ∨ r.priced.tieredTextQuota cfg.quota usage reported = 0)) ∨
      (¬ r.billing.funding.Affords (r.quota cfg usage reported - taken) l.world ∧
        cfg.logConsumeEnabled = false ∧ usage.totalTokens = 0 ∧
        r.priced.tieredTextQuota cfg.quota usage reported < 0 ∧
        r.billing.funding.balance l.world = -taken) := by
  rw [TextRequest.oneAmount_iff]
  by_cases hafford : r.billing.funding.Affords (r.quota cfg usage reported - taken) l.world
  · -- the settlement comes to the quota, and so does the log
    rw [takenAfter_of_affords hcharged hafford]
    by_cases htokens : usage.totalTokens = 0
    · rw [← TextRequest.quota_of_no_tokens htokens]
      simp only [TextRequest.booked, htokens, if_true, ne_eq, not_true_eq_false, false_or, hafford,
        true_and, false_and, or_false]
      constructor
      · rintro ⟨_, hzero⟩
        exact hzero
      · intro hzero
        exact ⟨fun _ => hzero, hzero⟩
    · simp [TextRequest.booked, htokens, hafford]
  · obtain ⟨hne, hnothing⟩ := takenAfter_of_not_affords hcharged hafford
    by_cases htokens : usage.totalTokens = 0
    · rw [← TextRequest.quota_of_no_tokens htokens]
      simp only [TextRequest.booked, htokens, if_true, hafford, false_and, false_or, not_false_eq_true,
        true_and, hnothing]
      constructor
      · rintro ⟨hlog, hneg, hused⟩
        refine ⟨?_, hneg, hused⟩
        cases henabled : cfg.logConsumeEnabled with
        | false => rfl
        | true => exact absurd (hlog henabled) (by omega)
      · rintro ⟨hlog, hneg, hused⟩
        exact ⟨fun henabled => by simp [hlog] at henabled, hneg, hused⟩
    · simp only [TextRequest.booked, htokens, if_false, hafford, false_and, false_or, and_false,
        iff_false, not_and]
      intro _
      exact hne

/-- The settings of a text request, the log being on. -/
def plainText : TextConfig where
  quota := defaultQuotaConfig
  billing := plainConfig
  logConsumeEnabled := true

/-- A request of user 1 through channel 7 that is billed by an expression, and for which 100 has been
taken from the wallet. -/
def tieredRequest : TextRequest where
  channelId := 7
  pricing := ⟨"default", "default", ⟨0, 0, false, [], ⟨1, -1, false⟩⟩,
    some ⟨"tiered_expr", 1, 100, 100, 500000⟩, 0⟩
  billing := .session walletStart.session

/-- Nothing is used yet. -/
def emptyLedgers : Ledgers where
  world := walletStart.world
  userUsedQuota := fun _ => 0
  channelUsedQuota := fun _ => 0
  consumeLogs := []

theorem charged_tieredRequest : tieredRequest.billing.Charged plainConfig emptyLedgers.world 100 :=
  .inr ⟨plainOpen, plainRequest "wallet_only", 100, plainWorld (Tables.empty fun _ => "default"),
    walletStart, [], StoreInv.empty _, by decide, by decide, openBilling_walletStart, trivial,
    by decide, by decide, rfl, rfl, by decide⟩

/-- What is logged and not counted as used is not one amount. -/
theorem not_oneAmount_of_unused {r : TextRequest} {usage : TextUsage}
    (hid : r.billing.relayInfo.userId = 1)
    (hcharged : r.billing.Charged plainConfig emptyLedgers.world 100)
    (htaken : 100 + (emptyLedgers.world.userQuota 1 -
      (r.postTextConsumeQuota plainText usage true emptyLedgers).2.world.userQuota 1) = 120)
    (hlogs : (r.postTextConsumeQuota plainText usage true emptyLedgers).2.consumeLogs.map (·.quota)
      = [120])
    (huser : (r.postTextConsumeQuota plainText usage true emptyLedgers).2.userUsedQuota 1 = 0)
    (hchannel : (r.postTextConsumeQuota plainText usage true emptyLedgers).2.channelUsedQuota 7
      = 0) :
    let usage := usage
    let l := (r.postTextConsumeQuota plainText usage true emptyLedgers).2
    r.billing.Charged plainConfig emptyLedgers.world 100 ∧
      100 + (emptyLedgers.world.userQuota 1 - l.world.userQuota 1) = 120 ∧
      l.consumeLogs.map (·.quota) = [120] ∧ l.userUsedQuota 1 = 0 ∧ l.channelUsedQuota 7 = 0 ∧
      ¬ OneAmount plainText r 100 emptyLedgers l := by
  intro usage l
  refine ⟨hcharged, htaken, hlogs, huser, hchannel, ?_⟩
  rintro ⟨amount, hamount, _, hlog, _⟩
  have hzero : amount = 0 := by
    have hat := congrFun hamount 1
    rw [increased, hid, Function.update_self, huser] at hat
    exact (Int.zero_add amount).symm.trans hat.symm
  rw [hlog, hzero] at hlogs
  have hquota : (0 : ℤ) = 120 := (List.cons.inj hlogs).1
  exact absurd hquota (by decide)

/-- A request whose channel has reported no tokens, with an expression that comes to 120 all the
same: 120 has been taken from the wallet and is in the log, and nothing is in the used quotas. -/
theorem constant_expression_unused :
    let usage : TextUsage := ⟨0, 0, 0, 0, some 240⟩
    let l := (tieredRequest.postTextConsumeQuota plainText usage true emptyLedgers).2
    tieredRequest.billing.Charged plainConfig emptyLedgers.world 100 ∧
      100 + (emptyLedgers.world.userQuota 1 - l.world.userQuota 1) = 120 ∧
      l.consumeLogs.map (·.quota) = [120] ∧ l.userUsedQuota 1 = 0 ∧ l.channelUsedQuota 7 = 0 ∧
      ¬ OneAmount plainText tieredRequest 100 emptyLedgers l := by
  exact not_oneAmount_of_unused rfl charged_tieredRequest (by decide +kernel) (by decide +kernel)
    (by decide) (by decide)

/-- The same request with ten tokens and an expression that comes to 5. -/
theorem text_ledgers_agree_tokens :
    OneAmount plainText tieredRequest 100 emptyLedgers
      (tieredRequest.postTextConsumeQuota plainText ⟨10, 10, 0, 0, some 10⟩ true emptyLedgers).2 :=
  (text_ledgers_agree plainText tieredRequest ⟨10, 10, 0, 0, some 10⟩ true emptyLedgers 100
    charged_tieredRequest).2 (.inl ⟨trivial, .inl (by decide)⟩)

end NewApi
