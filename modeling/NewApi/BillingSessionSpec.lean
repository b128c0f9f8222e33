/-
**What each operation of a billing session can do.**

A funding source has a balance: the quota of the wallet, or minus the used amount of the
subscription.  `NewApi.FundingSource.Takes` says that an operation takes an amount from the source
and leaves the tokens alone; one lemma for each operation of a source states it, and one lemma for
each method of a session puts the parts together.  The later modules count the amounts and never
unfold a method.

Main definitions:

* `NewApi.BillingConfig.Reliable` — no fault can stop a change of a quota;
* `NewApi.FundingSource.balance`, `NewApi.FundingSource.Takes` — what an operation takes;
* `NewApi.FundingSource.Covers` — a change of a used amount that is not cut at zero;
* `NewApi.BillingSession.takeToken` — a charge of the session's token.

Main results:

* `NewApi.BillingSession.settle_cases`, `NewApi.BillingSession.reserve_cases`,
  `NewApi.BillingSession.refund_cases` — **the methods**;
* `NewApi.BillingSession.run_paysBack`, `NewApi.BillingSession.run_paysNothing` — **the job**.
-/

import NewApi.BillingSession
import NewApi.SubscriptionRefund
import NewApi.SubscriptionUsage

set_option autoImplicit false

namespace NewApi

/-! ### Quotas -/

namespace World

@[simp] theorem addUserQuota_self (id x : ℤ) (w : World) :
    (w.addUserQuota id x).userQuota id = w.userQuota id + x := Function.update_self _ _ _

@[simp] theorem addUserQuota_tokenRemain (id x : ℤ) (w : World) :
    (w.addUserQuota id x).tokenRemain = w.tokenRemain := rfl

@[simp] theorem addUserQuota_store (id x : ℤ) (w : World) :
    (w.addUserQuota id x).store = w.store := rfl

@[simp] theorem addTokenQuota_self (id x : ℤ) (w : World) :
    (w.addTokenQuota id x).tokenRemain id = w.tokenRemain id + x := Function.update_self _ _ _

@[simp] theorem addTokenQuota_userQuota (id x : ℤ) (w : World) :
    (w.addTokenQuota id x).userQuota = w.userQuota := rfl

@[simp] theorem addTokenQuota_store (id x : ℤ) (w : World) :
    (w.addTokenQuota id x).store = w.store := rfl

@[simp] theorem addTokenQuota_zero (id : ℤ) (w : World) : w.addTokenQuota id 0 = w := by
  simp [addTokenQuota]

/-- Changing a token's quota and changing it back changes nothing. -/
@[simp] theorem addTokenQuota_neg_add (id x : ℤ) (w : World) :
    (w.addTokenQuota id (-x)).addTokenQuota id x = w := by
  simp [addTokenQuota]

end World

/-- No fault can stop a change of a quota: it is queued, or its statement succeeds. -/
def BillingConfig.Reliable (cfg : BillingConfig) (fault : Fault) : Prop :=
  cfg.batchUpdateEnabled = true ∨ fault = none

instance (cfg : BillingConfig) (fault : Fault) : Decidable (cfg.Reliable fault) := by
  unfold BillingConfig.Reliable; infer_instance

theorem changeQuota_ok {cfg : BillingConfig} {fault : Fault} {quota : ℤ} {write : World → World}
    {w w' : World} (h : changeQuota cfg fault quota write w = .ok w') :
    0 ≤ quota ∧ w' = write w := by
  unfold changeQuota at h
  rcases lt_or_ge quota 0 with hneg | hpos
  · simp [hneg] at h
  · rw [if_neg (by omega), guardFault_eq_ok] at h
    exact ⟨hpos, (Except.ok.inj h.2).symm⟩

theorem changeQuota_reliable {cfg : BillingConfig} {fault : Fault} {quota : ℤ}
    {write : World → World} (w : World) (hquota : 0 ≤ quota) (h : cfg.Reliable fault) :
    changeQuota cfg fault quota write w = .ok (write w) := by
  unfold changeQuota
  rw [if_neg (by omega)]
  rcases h with h | h <;> simp [h]

/-- A change of a positive amount that is not reliable fails. -/
theorem changeQuota_unreliable {cfg : BillingConfig} {fault : Fault} {quota : ℤ}
    {write : World → World} (w : World) (h : ¬ cfg.Reliable fault) :
    ∃ e, changeQuota cfg fault quota write w = .error e := by
  cases hres : changeQuota cfg fault quota write w with
  | error e => exact ⟨e, rfl⟩
  | ok w' =>
    refine absurd ?_ h
    have hpos := (changeQuota_ok hres).1
    unfold changeQuota at hres
    rw [if_neg (by omega), guardFault_eq_ok] at hres
    cases hbatch : cfg.batchUpdateEnabled with
    | true => exact Or.inl hbatch
    | false => exact Or.inr (by simpa [hbatch] using hres.1)

/-- A charge of the session's token; the playground's is not charged. -/
def RelayInfo.takeToken (relayInfo : RelayInfo) (x : ℤ) (w : World) : World :=
  if relayInfo.isPlayground then w else w.addTokenQuota relayInfo.tokenId (-x)

namespace RelayInfo

variable (relayInfo : RelayInfo) (x : ℤ) (w : World)

@[simp] theorem takeToken_userQuota : (relayInfo.takeToken x w).userQuota = w.userQuota := by
  unfold takeToken; split <;> rfl

@[simp] theorem takeToken_store : (relayInfo.takeToken x w).store = w.store := by
  unfold takeToken; split <;> rfl

@[simp] theorem takeToken_zero : relayInfo.takeToken 0 w = w := by
  unfold takeToken; split <;> simp

theorem takeToken_playground (h : relayInfo.isPlayground = true) : relayInfo.takeToken x w = w := by
  simp [takeToken, h]

theorem takeToken_remain (h : relayInfo.isPlayground = false) :
    (relayInfo.takeToken x w).tokenRemain relayInfo.tokenId
      = w.tokenRemain relayInfo.tokenId - x := by
  simp [takeToken, h, sub_eq_add_neg]

end RelayInfo

theorem preConsumeTokenQuota_ok {cfg : BillingConfig} {env : TokenEnv} {relayInfo : RelayInfo}
    {quota : ℤ} {w w' : World} (h : preConsumeTokenQuota cfg env relayInfo quota w = .ok w') :
    w' = relayInfo.takeToken quota w := by
  unfold preConsumeTokenQuota at h
  split_ifs at h with hneg hplay
  · rw [RelayInfo.takeToken_playground relayInfo quota w hplay]
    exact (Except.ok.inj h).symm
  · have htake : relayInfo.takeToken quota w = w.addTokenQuota relayInfo.tokenId (-quota) := by
      simp [RelayInfo.takeToken, hplay]
    cases hread : env.read with
    | error e => simp [hread] at h
    | ok remainQuota =>
      simp only [hread] at h
      split_ifs at h
      rw [htake]
      exact (changeQuota_ok h).2

/-! ### The used amount of a subscription -/

/-- A change of a used amount that is not cut at zero. -/
theorem postConsume_amountUsed {faults : TxFaults} {id delta : ℤ} {t t' : Tables}
    (h : postConsumeUserSubscriptionDelta faults id delta t = .ok t')
    (hcovers : 0 ≤ t.amountUsed id + delta) :
    t'.amountUsed id = t.amountUsed id + delta ∧ t'.records = t.records := by
  rcases postConsume_ok h with ⟨rfl, rfl⟩ | ⟨sub, hsub, _, rfl⟩
  · simp
  · obtain rfl : sub.id = id := (Tables.sub_mem hsub).2
    have hself := Tables.saveSub_amountUsed_self t
      { sub with amountUsed := max 0 (sub.amountUsed + delta) }
    rw [Tables.amountUsed_of_sub hsub] at hcovers ⊢
    rw [max_eq_right hcovers] at hself ⊢
    exact ⟨hself, rfl⟩

/-- A positive amount that is used can be taken off again. -/
theorem postConsume_back {id x : ℤ} {t : Tables} (hinv : StoreInv t) (hpos : 0 < x)
    (hused : x ≤ t.amountUsed id) :
    ∃ t', postConsumeUserSubscriptionDelta {} id (-x) t = .ok t' := by
  cases hsub : t.sub id with
  | none =>
    simp only [Tables.amountUsed, hsub, Option.map_none, Option.getD_none] at hused
    omega
  | some sub =>
    obtain ⟨hmem, hid⟩ := Tables.sub_mem hsub
    have hfits := hinv.usage sub hmem
    have hidPos := (hinv.subIdsLt sub hmem).1
    refine ⟨_, postConsume_of_sub (by omega) (by omega) hsub fun htotal => ?_⟩
    have := hfits.2 htotal
    have := hfits.1
    omega

/-! ### Funding sources -/

namespace FundingSource

/-- The quota of the wallet, or minus the used amount of the subscription. -/
def balance (funding : FundingSource) (w : World) : ℤ :=
  match funding with
  | .wallet f => w.userQuota f.userId
  | .subscription f => -w.store.amountUsed f.subscriptionId

/-- The world `w'` is `w` with `x` taken from the source: the tokens are left alone, and so are
the records of the subscriptions. -/
structure Takes (funding : FundingSource) (x : ℤ) (w w' : World) : Prop where
  balance : funding.balance w' = funding.balance w - x
  token : w'.tokenRemain = w.tokenRemain
  writes : Writes w.store w'.store
  records : w'.store.records = w.store.records

theorem Takes.refl (funding : FundingSource) (w : World) : funding.Takes 0 w w :=
  ⟨by simp, rfl, .refl, rfl⟩

theorem Takes.trans {funding : FundingSource} {x y : ℤ} {w w₁ w₂ : World}
    (h : funding.Takes x w w₁) (h' : funding.Takes y w₁ w₂) : funding.Takes (x + y) w w₂ :=
  ⟨by rw [h'.balance, h.balance]; omega, h'.token.trans h.token, h.writes.trans h'.writes,
    h'.records.trans h.records⟩

/-- A change of the used amount by `x` is not cut at zero. -/
def Covers (funding : FundingSource) (x : ℤ) (w : World) : Prop :=
  match funding with
  | .wallet _ => True
  | .subscription f => 0 ≤ w.store.amountUsed f.subscriptionId + x

instance (funding : FundingSource) (x : ℤ) (w : World) : Decidable (funding.Covers x w) := by
  cases funding <;> unfold Covers <;> infer_instance

theorem takes_of_userQuota {f : WalletFunding} {x : ℤ} {w : World} :
    (FundingSource.wallet f).Takes x w (w.addUserQuota f.userId (-x)) :=
  ⟨by simp [balance, sub_eq_add_neg], rfl, .refl, rfl⟩

theorem takes_of_postConsume {f : SubscriptionFunding} {faults : TxFaults} {x : ℤ} {w w' : World}
    (h : postConsume faults f.subscriptionId x w = .ok w')
    (hcovers : (FundingSource.subscription f).Covers x w) :
    (FundingSource.subscription f).Takes x w w' := by
  unfold postConsume at h
  cases hpost : postConsumeUserSubscriptionDelta faults f.subscriptionId x w.store with
  | error e => simp [hpost, Except.map] at h
  | ok t =>
    obtain rfl : { w with store := t } = w' := by simpa [hpost, Except.map] using h
    obtain ⟨hused, hrecords⟩ := postConsume_amountUsed hpost hcovers
    refine ⟨?_, rfl, postConsume_writes hpost, hrecords⟩
    simp only [balance, hused]
    omega

/-- Settling takes the difference. -/
theorem settle_takes {cfg : BillingConfig} {faults : ChangeFaults} {delta : ℤ}
    {funding : FundingSource} {w w' : World} (h : funding.settle cfg faults delta w = .ok w')
    (hcovers : funding.Covers delta w) : funding.Takes delta w w' := by
  cases funding with
  | wallet f =>
    simp only [settle] at h
    split_ifs at h with hzero hpos
    · obtain rfl := Except.ok.inj h
      rw [hzero]
      exact .refl _ _
    · rw [(changeQuota_ok h).2]
      exact takes_of_userQuota
    · rw [(changeQuota_ok h).2]
      exact takes_of_userQuota
  | subscription f =>
    simp only [settle] at h
    split_ifs at h with hzero
    · obtain rfl := Except.ok.inj h
      rw [hzero]
      exact .refl _ _
    · exact takes_of_postConsume h hcovers

/-- The source after `x` more has been reserved from it. -/
def raise (x : ℤ) : FundingSource → FundingSource
  | .wallet f => .wallet { f with consumed := f.consumed + x }
  | .subscription f => .subscription f

@[simp] theorem raise_balance (funding : FundingSource) (x : ℤ) (w : World) :
    (funding.raise x).balance w = funding.balance w := by cases funding <;> rfl

end FundingSource

namespace BillingSession

open FundingSource

/-- Reserving takes the difference. -/
theorem reserveFunding_takes {cfg : BillingConfig} {faults : ChangeFaults} {delta : ℤ}
    {funding funding' : FundingSource} {w w' : World} (hinv : StoreInv w.store)
    (hdelta : 0 < delta)
    (h : reserveFunding cfg faults delta funding w = .ok (funding', w')) :
    funding' = funding.raise delta ∧ funding.Takes delta w w' := by
  cases funding with
  | wallet f =>
    simp only [reserveFunding] at h
    cases hdec : decreaseUserQuota cfg faults.user f.userId delta w with
    | error e => simp [hdec] at h
    | ok w₁ =>
      simp only [hdec, Except.ok.injEq, Prod.mk.injEq] at h
      obtain ⟨rfl, rfl⟩ := h
      rw [(changeQuota_ok hdec).2]
      exact ⟨rfl, takes_of_userQuota⟩
  | subscription f =>
    simp only [reserveFunding] at h
    cases hpost : postConsume faults.sub f.subscriptionId delta w with
    | error e => simp [hpost] at h
    | ok w₁ =>
      simp only [hpost, Except.ok.injEq, Prod.mk.injEq] at h
      obtain ⟨rfl, rfl⟩ := h
      refine ⟨rfl, takes_of_postConsume hpost ?_⟩
      have := hinv.amountUsed_nonneg f.subscriptionId
      simp only [Covers]
      omega

/-- The statements that take a reservation back meet no fault. -/
def ReserveEnv.RollsBack (cfg : BillingConfig) (env : ReserveEnv) (funding : FundingSource) :
    Prop :=
  match funding with
  | .wallet _ => cfg.Reliable env.rollback.user
  | .subscription _ => env.rollback.sub = {}

instance (cfg : BillingConfig) (env : ReserveEnv) (funding : FundingSource) :
    Decidable (env.RollsBack cfg funding) := by
  cases funding <;> unfold ReserveEnv.RollsBack <;> infer_instance

/-- Taking a reservation back gives the difference back. -/
theorem rollback_takes {cfg : BillingConfig} {env : ReserveEnv} {delta : ℤ}
    {funding : FundingSource} {w : World} (hinv : StoreInv w.store) (hdelta : 0 < delta)
    (hcovers : funding.Covers (-delta) w) (hroll : env.RollsBack cfg funding) :
    ∃ w', rollbackFundingReserve cfg env.rollback delta (funding.raise delta) w = (funding, w') ∧
      funding.Takes (-delta) w w' := by
  cases funding with
  | wallet f =>
    refine ⟨w.addUserQuota f.userId delta, ?_, ?_⟩
    · have hinc : increaseUserQuota cfg env.rollback.user f.userId delta w
          = .ok (w.addUserQuota f.userId delta) := changeQuota_reliable w hdelta.le hroll
      simp [rollbackFundingReserve, raise, hinc]
    · have htakes : (FundingSource.wallet f).Takes (-delta) w
          (w.addUserQuota f.userId (- -delta)) := takes_of_userQuota
      rwa [neg_neg] at htakes
  | subscription f =>
    have hused : delta ≤ w.store.amountUsed f.subscriptionId := by
      simp only [Covers] at hcovers
      omega
    obtain ⟨t, ht⟩ := postConsume_back hinv hdelta hused
    have hpost : postConsume env.rollback.sub f.subscriptionId (-delta) w
        = .ok { w with store := t } := by
      have hfaults : env.rollback.sub = {} := hroll
      simp [postConsume, hfaults, ht, Except.map]
    refine ⟨{ w with store := t }, ?_, takes_of_postConsume hpost hcovers⟩
    simp [rollbackFundingReserve, raise, hpost]

/-! ### The request's fields -/

section SyncRelayInfo

variable (s : BillingSession)

@[simp] theorem syncRelayInfo_funding : s.syncRelayInfo.funding = s.funding := by
  unfold syncRelayInfo; split <;> rfl

@[simp] theorem syncRelayInfo_preConsumedQuota :
    s.syncRelayInfo.preConsumedQuota = s.preConsumedQuota := by
  unfold syncRelayInfo; split <;> rfl

@[simp] theorem syncRelayInfo_tokenConsumed : s.syncRelayInfo.tokenConsumed = s.tokenConsumed := by
  unfold syncRelayInfo; split <;> rfl

@[simp] theorem syncRelayInfo_extraReserved : s.syncRelayInfo.extraReserved = s.extraReserved := by
  unfold syncRelayInfo; split <;> rfl

@[simp] theorem syncRelayInfo_trusted : s.syncRelayInfo.trusted = s.trusted := by
  unfold syncRelayInfo; split <;> rfl

@[simp] theorem syncRelayInfo_fundingSettled :
    s.syncRelayInfo.fundingSettled = s.fundingSettled := by
  unfold syncRelayInfo; split <;> rfl

@[simp] theorem syncRelayInfo_settled : s.syncRelayInfo.settled = s.settled := by
  unfold syncRelayInfo; split <;> rfl

@[simp] theorem syncRelayInfo_refunded : s.syncRelayInfo.refunded = s.refunded := by
  unfold syncRelayInfo; split <;> rfl

@[simp] theorem syncRelayInfo_takeToken (x : ℤ) (w : World) :
    s.syncRelayInfo.relayInfo.takeToken x w = s.relayInfo.takeToken x w := by
  unfold syncRelayInfo RelayInfo.takeToken; split <;> rfl

@[simp] theorem syncRelayInfo_tokenId :
    s.syncRelayInfo.relayInfo.tokenId = s.relayInfo.tokenId := by
  unfold syncRelayInfo; split <;> rfl

@[simp] theorem syncRelayInfo_isPlayground :
    s.syncRelayInfo.relayInfo.isPlayground = s.relayInfo.isPlayground := by
  unfold syncRelayInfo; split <;> rfl

/-- The request names the subscription that is charged. -/
theorem syncRelayInfo_subscriptionId {f : SubscriptionFunding} (h : s.funding = .subscription f) :
    s.syncRelayInfo.relayInfo.subscriptionId = f.subscriptionId := by
  unfold syncRelayInfo
  split
  · rename_i sub hsub
    rw [h] at hsub
    rw [FundingSource.subscription.inj hsub]
  · rename_i sub hsub
    rw [h] at hsub
    simp at hsub

end SyncRelayInfo

/-! ### Reserving -/

/-- The session after `delta` more has been reserved. -/
def raised (delta : ℤ) (s : BillingSession) : BillingSession :=
  syncRelayInfo { s with
    funding := s.funding.raise delta
    preConsumedQuota := s.preConsumedQuota + delta
    tokenConsumed := s.tokenConsumed + delta
    extraReserved := s.extraReserved + delta }

theorem reserveToken_ok {cfg : BillingConfig} {env : TokenEnv} {relayInfo : RelayInfo} {delta : ℤ}
    {w w' : World} (hdelta : 0 < delta)
    (h : reserveToken cfg env relayInfo delta w = .ok w') : w' = relayInfo.takeToken delta w := by
  unfold reserveToken at h
  split_ifs at h with hskip
  · rcases hskip with hskip | hskip
    · omega
    · rw [RelayInfo.takeToken_playground relayInfo delta w hskip]
      exact (Except.ok.inj h).symm
  · cases hpre : preConsumeTokenQuota cfg env relayInfo delta w with
    | error e => simp [hpre] at h
    | ok w₁ =>
      obtain rfl : w₁ = w' := by simpa [hpre] using h
      exact preConsumeTokenQuota_ok hpre

/-- A session that is settled or refunded is not reserved for. -/
theorem reserve_of_closed {cfg : BillingConfig} {env : ReserveEnv} {targetQuota : ℤ}
    {s : BillingSession} {w : World} (h : s.settled = true ∨ s.refunded = true) :
    s.reserve cfg env targetQuota w = ((none, s), w) := by
  unfold reserve
  exact if_pos (h.imp_right Or.inl)

/-- A reservation leaves the session and its balance alone, or takes the difference from the
funding source and from the token. -/
theorem reserve_cases {cfg : BillingConfig} {env : ReserveEnv} (targetQuota : ℤ)
    {s : BillingSession} {w : World} (hinv : StoreInv w.store)
    (hroll : env.RollsBack cfg s.funding) :
    ((s.reserve cfg env targetQuota w).1.2 = s ∧
      s.funding.Takes 0 w (s.reserve cfg env targetQuota w).2) ∨
    ∃ delta w₁, 0 < delta ∧ s.funding.Takes delta w w₁ ∧
      s.reserve cfg env targetQuota w
        = ((none, s.raised delta), s.relayInfo.takeToken delta w₁) := by
  unfold reserve
  rcases lt_or_ge s.preConsumedQuota targetQuota with htarget | hskip
  · by_cases hskip : s.settled ∨ s.refunded ∨ s.trusted ∨ targetQuota ≤ s.preConsumedQuota
    · rw [if_pos hskip]
      exact Or.inl ⟨rfl, .refl _ _⟩
    · rw [if_neg hskip]
      have hdelta : 0 < targetQuota - s.preConsumedQuota := by omega
      generalize targetQuota - s.preConsumedQuota = delta at hdelta
      simp only
      cases hfund : reserveFunding cfg env.funding delta s.funding w with
      | error e => exact Or.inl ⟨rfl, .refl _ _⟩
      | ok p =>
        obtain ⟨funding, w₁⟩ := p
        obtain ⟨rfl, htakes⟩ := reserveFunding_takes hinv hdelta hfund
        simp only
        cases htoken : reserveToken cfg env.token s.relayInfo delta w₁ with
        | error e =>
          have hcovers : s.funding.Covers (-delta) w₁ := by
            cases hf : s.funding with
            | wallet f => trivial
            | subscription f =>
              -- what was just taken is there to be given back
              have hbalance := htakes.balance
              have hused := hinv.amountUsed_nonneg f.subscriptionId
              rw [hf] at hbalance
              simp only [FundingSource.balance] at hbalance
              simp only [Covers]
              omega
          obtain ⟨w₂, hback, htakesBack⟩ :=
            rollback_takes (Writes.inv hinv htakes.writes) hdelta hcovers hroll
          simp only [hback]
          have hboth := htakes.trans htakesBack
          rw [add_neg_cancel] at hboth
          exact Or.inl ⟨trivial, hboth⟩
        | ok w₂ =>
          obtain rfl := reserveToken_ok hdelta htoken
          exact Or.inr ⟨delta, w₁, hdelta, htakes, rfl⟩
  · rw [if_pos (Or.inr (Or.inr (Or.inr hskip)))]
    exact Or.inl ⟨rfl, .refl _ _⟩

/-! ### Settling -/

theorem settle_of_settled {cfg : BillingConfig} {faults : SettleFaults} {actualQuota : ℤ}
    {s : BillingSession} {w : World} (h : s.settled = true) :
    s.settle cfg faults actualQuota w = ((none, s), w) := by
  unfold settle
  exact if_pos h

theorem settleToken_ok {cfg : BillingConfig} {fault : Fault} {delta : ℤ} {relayInfo : RelayInfo}
    {w w' : World} (h : settleToken cfg fault delta relayInfo w = .ok w') :
    w' = relayInfo.takeToken delta w := by
  unfold settleToken at h
  split_ifs at h with hplay hpos
  · rw [RelayInfo.takeToken_playground relayInfo delta w hplay]
    exact (Except.ok.inj h).symm
  · rw [(changeQuota_ok h).2]
    simp [RelayInfo.takeToken, hplay]
  · rw [(changeQuota_ok h).2]
    simp [RelayInfo.takeToken, hplay]

@[simp] theorem settledInfo_tokenId (delta : ℤ) (s : BillingSession) :
    (s.settledInfo delta).tokenId = s.relayInfo.tokenId := by
  unfold settledInfo; split <;> rfl

@[simp] theorem settledInfo_isPlayground (delta : ℤ) (s : BillingSession) :
    (s.settledInfo delta).isPlayground = s.relayInfo.isPlayground := by
  unfold settledInfo; split <;> rfl

/-- The session `s'` is `s` after it has been settled. -/
structure SettledFrom (s s' : BillingSession) : Prop where
  settled : s'.settled = true
  refunded : s'.refunded = s.refunded
  funding : s'.funding = s.funding
  preConsumedQuota : s'.preConsumedQuota = s.preConsumedQuota
  tokenId : s'.relayInfo.tokenId = s.relayInfo.tokenId
  isPlayground : s'.relayInfo.isPlayground = s.relayInfo.isPlayground

/-- Settling a session fails before anything is changed, or takes the difference from the funding
source and marks the session; the token is charged as well, unless an error is returned. -/
theorem settle_cases (cfg : BillingConfig) (faults : SettleFaults) {actualQuota : ℤ}
    {s : BillingSession} {w : World} (hsettled : s.settled = false)
    (hfunding : s.fundingSettled = false)
    (hcovers : s.funding.Covers (actualQuota - s.preConsumedQuota) w) :
    (∃ e, s.settle cfg faults actualQuota w = ((some e, s), w)) ∨
    ∃ s' w₁, SettledFrom s s' ∧ s.funding.Takes (actualQuota - s.preConsumedQuota) w w₁ ∧
      ((∃ e, s.settle cfg faults actualQuota w = ((some e, s'), w₁)) ∨
       s.settle cfg faults actualQuota w
        = ((none, s'), s.relayInfo.takeToken (actualQuota - s.preConsumedQuota) w₁)) := by
  unfold settle
  rw [if_neg (by simp [hsettled])]
  generalize actualQuota - s.preConsumedQuota = delta at hcovers
  simp only [hfunding, Bool.false_eq_true, if_false]
  by_cases hzero : delta = 0
  · rw [if_pos hzero, hzero]
    refine Or.inr ⟨{ s with settled := true }, w, ⟨rfl, rfl, rfl, rfl, rfl, rfl⟩, .refl _ _, ?_⟩
    exact Or.inr (by rw [RelayInfo.takeToken_zero, hfunding])
  · rw [if_neg hzero]
    cases hfund : s.funding.settle cfg faults.funding delta w with
    | error e => exact Or.inl ⟨e, rfl⟩
    | ok w₁ =>
      refine Or.inr ⟨{ s with
        relayInfo := s.settledInfo delta
        fundingSettled := true
        settled := true }, w₁,
        ⟨rfl, rfl, rfl, rfl, settledInfo_tokenId delta s, settledInfo_isPlayground delta s⟩,
        settle_takes hfund hcovers, ?_⟩
      cases htoken : settleToken cfg faults.token delta s.relayInfo w₁ with
      | error e => exact Or.inl ⟨e, by simp only [htoken]⟩
      | ok w₂ => exact Or.inr (by simp only [htoken, settleToken_ok htoken])

/-! ### Refunding -/

/-- What a refund of the session gives back. -/
def refundJob (s : BillingSession) : RefundJob where
  tokenId := s.relayInfo.tokenId
  isPlayground := s.relayInfo.isPlayground
  tokenConsumed := s.tokenConsumed
  extraReserved := s.extraReserved
  subscriptionId := s.relayInfo.subscriptionId

/-- A refund does nothing, or starts the job of a session that is neither settled nor refunded. -/
theorem refund_cases (s : BillingSession) :
    (s.refund = (s, none) ∧ (s.settled = true ∨ s.refunded = true ∨ s.needsRefund = false)) ∨
    (s.settled = false ∧ s.refunded = false ∧ s.needsRefund = true ∧
      s.refund = ({ s with refunded := true }, some s.refundJob)) := by
  unfold refund
  cases hsettled : s.settled with
  | true => exact Or.inl ⟨by simp, Or.inl rfl⟩
  | false =>
    cases hrefunded : s.refunded with
    | true => exact Or.inl ⟨by simp, Or.inr (Or.inl rfl)⟩
    | false =>
      cases hneeds : s.needsRefund with
      | true => exact Or.inr ⟨rfl, rfl, rfl, by simp [refundJob]⟩
      | false => exact Or.inl ⟨by simp, Or.inr (Or.inr rfl)⟩

end BillingSession

/-! ### The retries of a refund -/

/-- A call reports no error exactly when it gives the amount back and marks the record. -/
theorem refund_fault {faults : RefundFaults} {requestId : String} {t : Tables}
    {record : SubscriptionPreConsumeRecord} {sub : UserSubscription} (hinv : StoreInv t)
    (hrecord : t.record requestId = some record) (hstatus : record.status = .consumed)
    (hsub : t.sub record.userSubscriptionId = some sub) :
    (refundSubscriptionPreConsume faults requestId t).1 = none ↔ faults.Pays ∧ faults.Marks := by
  obtain ⟨hmem, hid⟩ := Tables.record_mem hrecord
  obtain ⟨_, _, hpos, hname⟩ := hinv.records record hmem
  obtain ⟨hsubMem, hsubId⟩ := Tables.sub_mem hsub
  rw [hid] at hname
  cases hfirst : faults.first with
  | some e =>
    have hfault : (refundSubscriptionPreConsume faults requestId t).1 = some e := by
      unfold refundSubscriptionPreConsume refundSubscriptionPreConsumeIn
      rw [if_neg hname]
      simp [hfirst]
    simp [hfault, RefundFaults.Pays, hfirst]
  | none =>
    rw [refund_consumed hname hrecord hstatus hpos hfirst]
    by_cases hinner : faults.inner = {}
    · have hused : 0 ≤ sub.amountUsed ∧
          (0 < sub.amountTotal → sub.amountUsed ≤ sub.amountTotal) := hinv.usage sub hsubMem
      have hidPos := (hinv.subIdsLt sub hsubMem).1
      have hpost := postConsume_of_sub (by omega : 0 < record.userSubscriptionId)
        (by omega : -record.preConsumed ≠ 0) hsub
        (by intro htotal; have := hused.2 htotal; omega)
      rw [hinner, hpost]
      simp only [markRefunded, RefundFaults.Pays, hfirst, hinner, RefundFaults.Marks, and_self,
        true_and]
      rw [← Option.or_eq_none_iff]
      cases faults.save.or faults.commit <;> simp
    · have herr : ∃ e, postConsumeUserSubscriptionDelta faults.inner record.userSubscriptionId
          (-record.preConsumed) t = .error e := postConsume_of_fault (by omega) hinner
      obtain ⟨e, he⟩ := herr
      rw [he]
      simp [RefundFaults.Pays, hinner]

/-- Retries of which the first that gives the amount back also marks the record do so once. -/
theorem refundWithRetry_once {requestId : String} {t : Tables}
    {record : SubscriptionPreConsumeRecord} {sub : UserSubscription} (hinv : StoreInv t)
    (hrecord : t.record requestId = some record) (hstatus : record.status = .consumed)
    (hsub : t.sub record.userSubscriptionId = some sub) {faults : ℕ → RefundFaults}
    {k left i : ℕ} {lastErr : Fault} (hk : k < left) (hpays : (faults (i + k)).Pays)
    (hmarks : (faults (i + k)).Marks) (hbefore : ∀ j < k, ¬ (faults (i + j)).Pays) :
    (refundWithRetry (fun i => refundSubscriptionPreConsume (faults i) requestId) left i lastErr
        t).2
      = (t.saveSub (refundedSub record sub)).saveRecord { record with status := .refunded } := by
  induction k generalizing left i lastErr with
  | zero =>
    obtain ⟨left, rfl⟩ := Nat.exists_eq_succ_of_ne_zero (by omega : left ≠ 0)
    have hnone := (refund_fault hinv hrecord hstatus hsub).2 ⟨hpays, hmarks⟩
    have hafter := refund_pays hinv hrecord hstatus hsub hpays
    rw [if_pos hmarks] at hafter
    simp only [add_zero] at hnone hafter
    unfold refundWithRetry
    cases hcall : refundSubscriptionPreConsume (faults i) requestId t with
    | mk e t' =>
      rw [hcall] at hnone hafter
      simp only at hnone hafter
      simp [hnone, hafter]
  | succ k ih =>
    obtain ⟨left, rfl⟩ := Nat.exists_eq_succ_of_ne_zero (by omega : left ≠ 0)
    have hidle : ¬ (faults i).Pays := hbefore 0 (by omega)
    have hsame := refund_same hinv hrecord (Or.inr (Or.inr hidle))
    have hfault : (refundSubscriptionPreConsume (faults i) requestId t).1 ≠ none :=
      fun hnone => hidle ((refund_fault hinv hrecord hstatus hsub).1 hnone).1
    have hshift : ∀ j, i + 1 + j = i + (j + 1) := by omega
    unfold refundWithRetry
    cases hcall : refundSubscriptionPreConsume (faults i) requestId t with
    | mk e t' =>
      rw [hcall] at hsame hfault
      obtain rfl : t' = t := hsame
      cases e with
      | none => exact absurd rfl hfault
      | some e =>
        refine ih (by omega) ?_ ?_ fun j hj => ?_
        · rw [hshift]
          exact hpays
        · rw [hshift]
          exact hmarks
        · rw [hshift]
          exact hbefore (j + 1) (by omega)

/-- Retries none of which gives the amount back change nothing. -/
theorem refundWithRetry_same {requestId : String} {t : Tables}
    {record : SubscriptionPreConsumeRecord} (hinv : StoreInv t)
    (hrecord : t.record requestId = some record) {faults : ℕ → RefundFaults} {left i : ℕ}
    {lastErr : Fault}
    (h : t.sub record.userSubscriptionId = none ∨ ∀ j < left, ¬ (faults (i + j)).Pays) :
    (refundWithRetry (fun i => refundSubscriptionPreConsume (faults i) requestId) left i lastErr
        t).2 = t := by
  induction left generalizing i lastErr with
  | zero => rfl
  | succ left ih =>
    have hsame : (refundSubscriptionPreConsume (faults i) requestId t).2 = t := by
      refine refund_same hinv hrecord (Or.inr (h.imp_right fun hidle => ?_))
      exact hidle 0 (by omega)
    unfold refundWithRetry
    cases hcall : refundSubscriptionPreConsume (faults i) requestId t with
    | mk e t' =>
      rw [hcall] at hsame
      obtain rfl : t' = t := hsame
      cases e with
      | none => rfl
      | some e =>
        refine ih (h.imp_right fun hidle j hj => ?_)
        have hnext := hidle (j + 1) (by omega)
        rwa [← add_assoc, add_right_comm] at hnext

/-- The retries only write what single calls write. -/
theorem refundWithRetry_writes {requestId : String} {faults : ℕ → RefundFaults} {left i : ℕ}
    {lastErr : Fault} {t : Tables} :
    Writes t (refundWithRetry (fun i => refundSubscriptionPreConsume (faults i) requestId) left i
      lastErr t).2 := by
  induction left generalizing i lastErr t with
  | zero => exact .refl
  | succ left ih =>
    have hone : Writes t (refundSubscriptionPreConsume (faults i) requestId t).2 :=
      refund_writes (faults i) requestId t
    unfold refundWithRetry
    cases hcall : refundSubscriptionPreConsume (faults i) requestId t with
    | mk e t' =>
      rw [hcall] at hone
      cases e with
      | none => exact hone
      | some e => exact hone.trans ih

/-! ### The job -/

/-- An attempt of the refund gives the amount back and marks the record, and the attempts before
it do not give it back. -/
def FundingSource.RefundEnv.Once (env : FundingSource.RefundEnv) : Prop :=
  ∃ k < refundMaxAttempts, (env.sub k).Pays ∧ (env.sub k).Marks ∧ ∀ j < k, ¬ (env.sub j).Pays

instance (env : FundingSource.RefundEnv) : Decidable env.Once := by
  unfold FundingSource.RefundEnv.Once; infer_instance

namespace BillingSession

open FundingSource

/-- What the session has charged is what its counters say: a wallet has been charged the whole
amount, and a subscription has a record of what the pre-consume took. -/
def Counted (s : BillingSession) (w : World) : Prop :=
  0 ≤ s.preConsumedQuota ∧ s.tokenConsumed = s.preConsumedQuota ∧ 0 ≤ s.extraReserved ∧
    match s.funding with
    | .wallet f => f.consumed = s.preConsumedQuota
    | .subscription f =>
      f.preConsumed + s.extraReserved = s.preConsumedQuota ∧ 0 < f.preConsumed ∧
        s.relayInfo.subscriptionId = f.subscriptionId ∧
        ∃ record, w.store.record f.requestId = some record ∧ record.status = .consumed ∧
          record.userSubscriptionId = f.subscriptionId ∧ record.preConsumed = f.preConsumed

/-- The job's changes of the funding source are made, once, and are not cut at zero. -/
def PaysBack (cfg : BillingConfig) (env : JobEnv) (s : BillingSession) (w : World) : Prop :=
  match s.funding with
  | .wallet _ => cfg.Reliable env.funding.user
  | .subscription f => env.funding.Once ∧ env.extra = {} ∧
      s.preConsumedQuota ≤ w.store.amountUsed f.subscriptionId

/-- The job makes no change of the funding source. -/
def PaysNothing (cfg : BillingConfig) (env : JobEnv) (s : BillingSession) (w : World) : Prop :=
  match s.funding with
  | .wallet _ => ¬ cfg.Reliable env.funding.user
  | .subscription f => w.store.sub f.subscriptionId = none ∨
      ((∀ j < refundMaxAttempts, ¬ (env.funding.sub j).Pays) ∧
        (s.extraReserved = 0 ∨ env.extra ≠ {}))

instance (cfg : BillingConfig) (env : JobEnv) (s : BillingSession) (w : World) :
    Decidable (s.PaysBack cfg env w) := by
  unfold PaysBack; split <;> infer_instance

instance (cfg : BillingConfig) (env : JobEnv) (s : BillingSession) (w : World) :
    Decidable (s.PaysNothing cfg env w) := by
  unfold PaysNothing; split <;> infer_instance

/-- The job without its last part, the token. -/
def giveBackFunding (cfg : BillingConfig) (env : JobEnv) (funding : FundingSource)
    (job : RefundJob) (w : World) : World :=
  let w := (funding.refund cfg env.funding w).2
  if 0 < job.extraReserved ∧ funding.source = billingSourceSubscription ∧
      0 < job.subscriptionId then
    match FundingSource.postConsume env.extra job.subscriptionId (-job.extraReserved) w with
    | .error _ => w
    | .ok w' => w'
  else w

/-- The job gives back to the funding source and then to the token. -/
theorem run_eq (cfg : BillingConfig) (env : JobEnv) (s : BillingSession) (w : World) :
    s.refundJob.run cfg env s.funding w =
      if 0 < s.tokenConsumed ∧ s.relayInfo.isPlayground = false then
        match increaseTokenQuota cfg env.token s.relayInfo.tokenId s.tokenConsumed
          (giveBackFunding cfg env s.funding s.refundJob w) with
        | .error _ => giveBackFunding cfg env s.funding s.refundJob w
        | .ok w' => w'
      else giveBackFunding cfg env s.funding s.refundJob w := rfl

/-- The wallet's part of the job. -/
theorem giveBackFunding_wallet {cfg : BillingConfig} {env : JobEnv} {f : WalletFunding}
    {job : RefundJob} {w : World} :
    giveBackFunding cfg env (.wallet f) job w
      = ((FundingSource.wallet f).refund cfg env.funding w).2 := by
  have hsource : billingSourceWallet ≠ billingSourceSubscription := by decide
  unfold giveBackFunding
  exact if_neg fun h => hsource h.2.1

/-- The subscription's part of the refund, when it is made once. -/
theorem refund_once (cfg : BillingConfig) {env : RefundEnv} {f : SubscriptionFunding} {w : World}
    {record : SubscriptionPreConsumeRecord} (hinv : StoreInv w.store)
    (hrecord : w.store.record f.requestId = some record) (hstatus : record.status = .consumed)
    (hid : record.userSubscriptionId = f.subscriptionId)
    (hamount : record.preConsumed = f.preConsumed)
    (hpos : 0 < f.preConsumed) (hused : f.preConsumed ≤ w.store.amountUsed f.subscriptionId)
    (honce : env.Once) :
    ∃ t, ((FundingSource.subscription f).refund cfg env w).2 = { w with store := t } ∧
      t.amountUsed f.subscriptionId = w.store.amountUsed f.subscriptionId - f.preConsumed ∧
      Writes w.store t := by
  obtain ⟨k, hk, hattempt, hmarks, hbefore⟩ := honce
  cases hsub : w.store.sub f.subscriptionId with
  | none =>
    simp only [Tables.amountUsed, hsub, Option.map_none, Option.getD_none] at hused
    omega
  | some sub =>
    obtain ⟨_, hsubId⟩ := Tables.sub_mem hsub
    rw [Tables.amountUsed_of_sub hsub] at hused ⊢
    rw [← hid] at hsub
    rw [← zero_add k] at hattempt hmarks
    have hafter : (refundWithRetry (fun i => refundSubscriptionPreConsume (env.sub i) f.requestId)
        refundMaxAttempts 0 none w.store).2
        = (w.store.saveSub (refundedSub record sub)).saveRecord
            { record with status := .refunded } :=
      refundWithRetry_once hinv hrecord hstatus hsub hk hattempt hmarks fun j hj => by
        rw [zero_add]
        exact hbefore j hj
    have hwrites : Writes w.store (refundWithRetry
        (fun i => refundSubscriptionPreConsume (env.sub i) f.requestId)
        refundMaxAttempts 0 none w.store).2 := refundWithRetry_writes
    refine ⟨_, ?_, ?_, hwrites⟩
    · simp only [FundingSource.refund]
      exact congrArg Prod.snd (if_neg (by omega))
    · have hself := Tables.saveSub_amountUsed_self w.store (refundedSub record sub)
      have hkey : (refundedSub record sub).id = f.subscriptionId := hsubId
      rw [hkey] at hself
      rw [hafter, Tables.saveRecord_amountUsed, hself]
      simp only [refundedSub, hamount]
      omega

/-- The job gives the funding source back what the session has charged it. -/
theorem giveBackFunding_paysBack {cfg : BillingConfig} {env : JobEnv} {s : BillingSession}
    {w : World} (hinv : StoreInv w.store) (hcounted : s.Counted w) (hpays : s.PaysBack cfg env w) :
    s.funding.balance (giveBackFunding cfg env s.funding s.refundJob w)
        = s.funding.balance w + s.preConsumedQuota ∧
      (giveBackFunding cfg env s.funding s.refundJob w).tokenRemain = w.tokenRemain ∧
      Writes w.store (giveBackFunding cfg env s.funding s.refundJob w).store := by
  obtain ⟨hpre, _, hextra, hfunding⟩ := hcounted
  cases hf : s.funding with
  | wallet f =>
    simp only [PaysBack, hf] at hpays hfunding
    rw [giveBackFunding_wallet]
    simp only [FundingSource.refund]
    split_ifs with hzero
    · have hnone : s.preConsumedQuota = 0 := by omega
      exact ⟨by simp [hnone], rfl, .refl⟩
    · have hinc : increaseUserQuota cfg env.funding.user f.userId f.consumed w
          = .ok (w.addUserQuota f.userId f.consumed) :=
        changeQuota_reliable w (by omega) hpays
      rw [hinc]
      exact ⟨by simp [FundingSource.balance, hfunding], rfl, .refl⟩
  | subscription f =>
    simp only [PaysBack, hf] at hpays hfunding
    obtain ⟨hsum, hpos, hid, record, hrecord, hstatus, hrecordId, hamount⟩ := hfunding
    obtain ⟨honce, hfaults, hused⟩ := hpays
    obtain ⟨t, ht, htUsed, htWrites⟩ :=
      refund_once cfg hinv hrecord hstatus hrecordId hamount hpos (by omega) honce
    unfold giveBackFunding
    simp only [ht, refundJob, hid, hfaults]
    by_cases hnone : s.extraReserved = 0
    · rw [if_neg (by omega)]
      refine ⟨?_, rfl, htWrites⟩
      simp only [FundingSource.balance, htUsed]
      omega
    · have hinv' := Writes.inv hinv htWrites
      have hexists : 0 < f.subscriptionId := by
        have hrow : t.amountUsed f.subscriptionId ≠ 0 := by omega
        cases hsub : t.sub f.subscriptionId with
        | none => simp [Tables.amountUsed, hsub] at hrow
        | some sub =>
          obtain ⟨hmem, hkey⟩ := Tables.sub_mem hsub
          rw [← hkey]
          exact (hinv'.subIdsLt sub hmem).1
      obtain ⟨t', ht'⟩ := postConsume_back hinv' (by omega : 0 < s.extraReserved)
        (by omega : s.extraReserved ≤ t.amountUsed f.subscriptionId)
      have hpost : FundingSource.postConsume {} f.subscriptionId (-s.extraReserved)
          { w with store := t } = .ok { w with store := t' } := by
        simp [FundingSource.postConsume, ht', Except.map]
      have htakes := takes_of_postConsume hpost (by simp only [Covers]; omega)
      rw [if_pos ⟨by omega, rfl, hexists⟩, hpost]
      refine ⟨?_, htakes.token, htWrites.trans htakes.writes⟩
      rw [htakes.balance]
      simp only [FundingSource.balance, htUsed]
      omega

/-- The job leaves the world alone when it makes no change of the funding source. -/
theorem giveBackFunding_paysNothing {cfg : BillingConfig} {env : JobEnv} {s : BillingSession}
    {w : World} (hinv : StoreInv w.store) (hcounted : s.Counted w)
    (hnothing : s.PaysNothing cfg env w) :
    giveBackFunding cfg env s.funding s.refundJob w = w := by
  obtain ⟨_, _, hextra, hfunding⟩ := hcounted
  cases hf : s.funding with
  | wallet f =>
    simp only [PaysNothing, hf] at hnothing
    rw [giveBackFunding_wallet]
    simp only [FundingSource.refund]
    split_ifs with hzero
    · rfl
    · have hfails : ∃ e, increaseUserQuota cfg env.funding.user f.userId f.consumed w
          = .error e := changeQuota_unreliable w hnothing
      obtain ⟨e, he⟩ := hfails
      rw [he]
  | subscription f =>
    simp only [PaysNothing, hf] at hnothing hfunding
    obtain ⟨_, hpos, hid, record, hrecord, _, hrecordId, _⟩ := hfunding
    have hsame : (refundWithRetry
        (fun i => refundSubscriptionPreConsume (env.funding.sub i) f.requestId)
        refundMaxAttempts 0 none w.store).2 = w.store := by
      refine refundWithRetry_same hinv hrecord ?_
      rw [hrecordId]
      refine hnothing.imp_right fun hidle j hj => ?_
      rw [zero_add]
      exact hidle.1 j hj
    have hrefund : ((FundingSource.subscription f).refund cfg env.funding w).2 = w := by
      simp only [FundingSource.refund]
      rw [if_neg (by omega), hsame]
    unfold giveBackFunding
    simp only [hrefund, refundJob, hid]
    split_ifs with hmore
    · have herr : ∃ e, FundingSource.postConsume env.extra f.subscriptionId (-s.extraReserved) w
          = .error e := by
        cases hpost : postConsumeUserSubscriptionDelta env.extra f.subscriptionId
            (-s.extraReserved) w.store with
        | error e => exact ⟨e, by simp [FundingSource.postConsume, hpost, Except.map]⟩
        | ok t =>
          exfalso
          rcases hnothing with hgone | ⟨_, hzero | hfaults⟩
          · rcases postConsume_ok hpost with ⟨hzero, _⟩ | ⟨sub, hsub, _⟩
            · omega
            · rw [hgone] at hsub
              simp at hsub
          · omega
          · have hfails : ∃ e, postConsumeUserSubscriptionDelta env.extra f.subscriptionId
                (-s.extraReserved) w.store = .error e :=
              postConsume_of_fault (by omega) hfaults
            obtain ⟨e, he⟩ := hfails
            rw [hpost] at he
            simp at he
      obtain ⟨e, he⟩ := herr
      rw [he]
    · rfl

/-- The last part of the job gives the token back, or leaves the world alone. -/
theorem run_token (cfg : BillingConfig) (env : JobEnv) {s : BillingSession} (w : World)
    (hpos : 0 ≤ s.tokenConsumed) :
    (s.refundJob.run cfg env s.funding w = giveBackFunding cfg env s.funding s.refundJob w ∨
      s.refundJob.run cfg env s.funding w = s.relayInfo.takeToken (-s.tokenConsumed)
        (giveBackFunding cfg env s.funding s.refundJob w)) ∧
    (cfg.Reliable env.token →
      s.refundJob.run cfg env s.funding w = s.relayInfo.takeToken (-s.tokenConsumed)
        (giveBackFunding cfg env s.funding s.refundJob w)) := by
  rw [run_eq]
  generalize giveBackFunding cfg env s.funding s.refundJob w = w₁
  by_cases hskip : 0 < s.tokenConsumed ∧ s.relayInfo.isPlayground = false
  · rw [if_pos hskip]
    have htake : s.relayInfo.takeToken (-s.tokenConsumed) w₁
        = w₁.addTokenQuota s.relayInfo.tokenId s.tokenConsumed := by
      simp [RelayInfo.takeToken, hskip.2]
    rw [htake]
    refine ⟨?_, fun hreliable => ?_⟩
    · cases hinc : increaseTokenQuota cfg env.token s.relayInfo.tokenId s.tokenConsumed w₁ with
      | error e => exact Or.inl rfl
      | ok w₂ => exact Or.inr (changeQuota_ok hinc).2
    · have hinc : increaseTokenQuota cfg env.token s.relayInfo.tokenId s.tokenConsumed w₁
          = .ok (w₁.addTokenQuota s.relayInfo.tokenId s.tokenConsumed) :=
        changeQuota_reliable w₁ hpos hreliable
      rw [hinc]
  · rw [if_neg hskip]
    have htake : s.relayInfo.takeToken (-s.tokenConsumed) w₁ = w₁ := by
      rcases not_and_or.1 hskip with hzero | hplay
      · have hnone : s.tokenConsumed = 0 := by omega
        simp [hnone]
      · exact RelayInfo.takeToken_playground _ _ _ (by simpa using hplay)
    exact ⟨Or.inl rfl, fun _ => htake.symm⟩

end BillingSession

end NewApi
