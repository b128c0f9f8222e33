/-
**Opening a billing session is all or nothing.**

Opening a session charges the token and then one funding source, gives the token back when the
source refuses, and may then try the other source.  This module shows that an attempt that returns
an error leaves the world as it was, whichever step failed, and says exactly what has been charged
when a session is returned.

Main definitions:

* `NewApi.World.Left` — a world in which at most a token could not be given back;
* `NewApi.BillingSession.openedSession` — the session an attempt returns;
* `NewApi.SubscriptionOpened` — what an attempt on a subscription has done;
* `NewApi.SessionCharge` — the charge of a session that has just been opened.

Main results:

* `NewApi.BillingSession.attempt_cases` — one attempt;
* `NewApi.newBillingSession_cases` — both attempts;
* `NewApi.newBillingSession_charge` — **all or nothing**.
-/

import NewApi.BillingSessionSpec

set_option autoImplicit false

namespace NewApi

/-! ### The pre-consume of a funding source -/

namespace FundingSource

/-- A funding source that refuses has changed nothing. -/
theorem preConsume_error {cfg : BillingConfig} {env : PreConsumeFaults} {amount : ℤ}
    {funding : FundingSource} {w w' : World} {e : Failure}
    (h : funding.preConsume cfg env amount w = (.error e, w')) : w' = w := by
  cases funding with
  | wallet f =>
    simp only [preConsume] at h
    split_ifs at h
    · simp at h
    · cases hdec : decreaseUserQuota cfg env.user f.userId amount w with
      | error e' =>
        simp only [hdec, Prod.mk.injEq] at h
        exact h.2.symm
      | ok w₁ => simp [hdec] at h
  | subscription f =>
    simp only [preConsume] at h
    cases hpre : preConsumeUserSubscription cfg.loc env.sub f.requestId f.userId f.modelName 0
        f.amount w.store with
    | mk r store =>
      cases r with
      | error e' =>
        have hsame : store = w.store := by
          have := NewApi.preConsume_error (e := e') (by rw [hpre])
          rwa [hpre] at this
        simp only [hpre, Prod.mk.injEq] at h
        rw [← h.2, hsame]
      | ok res => simp [hpre] at h

/-- A wallet that is charged a positive amount remembers it. -/
theorem preConsume_wallet {cfg : BillingConfig} {env : PreConsumeFaults} {amount userId : ℤ}
    {w w' : World} {funding : FundingSource}
    (h : (FundingSource.wallet { userId := userId, consumed := 0 }).preConsume cfg env amount w
      = (.ok funding, w')) :
    funding = .wallet { userId := userId, consumed := max 0 amount } ∧
      w' = w.addUserQuota userId (-max 0 amount) := by
  simp only [preConsume] at h
  split_ifs at h with hamount
  · simp only [Prod.mk.injEq, Except.ok.injEq] at h
    rw [max_eq_left hamount]
    exact ⟨h.1.symm, by simp [← h.2, World.addUserQuota]⟩
  · cases hdec : decreaseUserQuota cfg env.user userId amount w with
    | error e' => simp [hdec] at h
    | ok w₁ =>
      simp only [hdec, Prod.mk.injEq, Except.ok.injEq] at h
      rw [max_eq_right (by omega)]
      exact ⟨h.1.symm, by rw [← h.2, (changeQuota_ok hdec).2]⟩

end FundingSource

/-- What the pre-consume of a subscription has done: the store's transaction answered `res`, and
the source remembers the answer. -/
structure SubscriptionOpened (cfg : BillingConfig) (env : FundingSource.PreConsumeFaults)
    (f f' : SubscriptionFunding) (res : SubscriptionPreConsumeResult) (w w' : World) : Prop where
  answer : (preConsumeUserSubscription cfg.loc env.sub f.requestId f.userId f.modelName 0 f.amount
    w.store).1 = .ok res
  world : w' = { w with store := (preConsumeUserSubscription cfg.loc env.sub f.requestId f.userId
    f.modelName 0 f.amount w.store).2 }
  requestId : f'.requestId = f.requestId
  subscriptionId : f'.subscriptionId = res.userSubscriptionId
  preConsumed : f'.preConsumed = res.preConsumed

theorem FundingSource.preConsume_subscription {cfg : BillingConfig} {env : PreConsumeFaults}
    {amount : ℤ} {f : SubscriptionFunding} {w w' : World} {funding : FundingSource}
    (h : (FundingSource.subscription f).preConsume cfg env amount w = (.ok funding, w')) :
    ∃ f' res, funding = .subscription f' ∧ SubscriptionOpened cfg env f f' res w w' := by
  simp only [preConsume] at h
  cases hpre : preConsumeUserSubscription cfg.loc env.sub f.requestId f.userId f.modelName 0
      f.amount w.store with
  | mk r store =>
    cases r with
    | error e => simp [hpre] at h
    | ok res =>
      simp only [hpre, Prod.mk.injEq, Except.ok.injEq] at h
      obtain ⟨rfl, rfl⟩ := h
      exact ⟨_, res, rfl, by rw [hpre], by rw [hpre], rfl, rfl, rfl⟩

/-! ### One attempt -/

/-- The world `w'` is `w`, unless a token could not be given back where that is not `reliable`. -/
def World.Left (reliable : Prop) (w w' : World) : Prop :=
  w'.store = w.store ∧ w'.userQuota = w.userQuota ∧ (reliable → w' = w)

theorem World.Left.refl (reliable : Prop) (w : World) : w.Left reliable w :=
  ⟨rfl, rfl, fun _ => rfl⟩

theorem World.Left.trans {reliable : Prop} {w w₁ w₂ : World} (h : w.Left reliable w₁)
    (h' : w₁.Left reliable w₂) : w.Left reliable w₂ :=
  ⟨h'.1.trans h.1, h'.2.1.trans h.2.1, fun hr => (h'.2.2 hr).trans (h.2.2 hr)⟩

theorem World.Left.mono {reliable reliable' : Prop} {w w' : World} (himp : reliable' → reliable)
    (h : w.Left reliable w') : w.Left reliable' w' :=
  ⟨h.1, h.2.1, fun hr => h.2.2 (himp hr)⟩

namespace BillingSession

/-- The session an attempt returns: it has charged `quota`, or nothing when the user is
trusted. -/
def openedSession (relayInfo : RelayInfo) (trusted : Bool) (quota : ℤ) (funding : FundingSource) :
    BillingSession :=
  syncRelayInfo { start relayInfo funding with
    preConsumedQuota := if trusted then 0 else quota
    tokenConsumed := max 0 (if trusted then 0 else quota)
    trusted := trusted }

section OpenedSession

variable (relayInfo : RelayInfo) (trusted : Bool) (quota : ℤ) (funding : FundingSource)

@[simp] theorem openedSession_funding :
    (openedSession relayInfo trusted quota funding).funding = funding := by
  simp [openedSession, start]

@[simp] theorem openedSession_preConsumedQuota :
    (openedSession relayInfo trusted quota funding).preConsumedQuota
      = if trusted then 0 else quota := by
  simp [openedSession]

@[simp] theorem openedSession_tokenConsumed :
    (openedSession relayInfo trusted quota funding).tokenConsumed
      = max 0 (if trusted then 0 else quota) := by
  simp [openedSession]

@[simp] theorem openedSession_trusted :
    (openedSession relayInfo trusted quota funding).trusted = trusted := by
  simp [openedSession]

@[simp] theorem openedSession_extraReserved :
    (openedSession relayInfo trusted quota funding).extraReserved = 0 := by
  simp [openedSession, start]

@[simp] theorem openedSession_settled :
    (openedSession relayInfo trusted quota funding).settled = false := by
  simp [openedSession, start]

@[simp] theorem openedSession_refunded :
    (openedSession relayInfo trusted quota funding).refunded = false := by
  simp [openedSession, start]

@[simp] theorem openedSession_fundingSettled :
    (openedSession relayInfo trusted quota funding).fundingSettled = false := by
  simp [openedSession, start]

end OpenedSession

/-- Only a wallet is trusted. -/
theorem shouldTrust_wallet {cfg : BillingConfig} {tokenQuota : ℤ} {s : BillingSession}
    (h : s.shouldTrust cfg tokenQuota = true) : ∃ f, s.funding = .wallet f := by
  unfold shouldTrust at h
  split_ifs at h
  cases hf : s.funding with
  | wallet f => exact ⟨f, rfl⟩
  | subscription f => simp [hf] at h

/-- The second step fails and gives the token back, or does not return, or has charged the funding
source. -/
theorem preConsumeFunding_cases (cfg : BillingConfig) (env : AttemptEnv) {effectiveQuota : ℤ}
    {s : BillingSession} {w : World} (htoken : s.tokenConsumed = max 0 effectiveQuota) :
    (∃ e w', s.preConsumeFunding cfg env effectiveQuota (s.relayInfo.takeToken s.tokenConsumed w)
      = (.error (.error e), w') ∧ w.Left (cfg.Reliable env.rollback) w') ∨
    (s.preConsumeFunding cfg env effectiveQuota (s.relayInfo.takeToken s.tokenConsumed w)).1
      = .error .hang ∨
    ∃ funding w', s.funding.preConsume cfg env.funding effectiveQuota
        (s.relayInfo.takeToken s.tokenConsumed w) = (.ok funding, w') ∧
      s.preConsumeFunding cfg env effectiveQuota (s.relayInfo.takeToken s.tokenConsumed w)
        = (.ok (syncRelayInfo { s with funding := funding, preConsumedQuota := effectiveQuota }),
          w') := by
  unfold preConsumeFunding
  cases hpre : s.funding.preConsume cfg env.funding effectiveQuota
      (s.relayInfo.takeToken s.tokenConsumed w) with
  | mk r w₁ =>
    cases r with
    | ok funding => exact Or.inr (Or.inr ⟨funding, w₁, rfl, rfl⟩)
    | error failure =>
      obtain rfl := FundingSource.preConsume_error hpre
      cases failure with
      | hang => exact Or.inr (Or.inl rfl)
      | err e =>
        refine Or.inl ⟨fundingError e, ?_⟩
        simp only
        by_cases hback : 0 < s.tokenConsumed ∧ s.relayInfo.isPlayground = false
        · rw [if_pos hback]
          have hrestored : (s.relayInfo.takeToken s.tokenConsumed w).addTokenQuota
              s.relayInfo.tokenId s.tokenConsumed = w := by
            simp [RelayInfo.takeToken, hback.2]
          cases hinc : increaseTokenQuota cfg env.rollback s.relayInfo.tokenId
              s.tokenConsumed (s.relayInfo.takeToken s.tokenConsumed w) with
          | error e' =>
            refine ⟨_, rfl, RelayInfo.takeToken_store _ _ _,
              RelayInfo.takeToken_userQuota _ _ _, fun hroll => ?_⟩
            have hok : increaseTokenQuota cfg env.rollback s.relayInfo.tokenId
                s.tokenConsumed (s.relayInfo.takeToken s.tokenConsumed w)
                = .ok ((s.relayInfo.takeToken s.tokenConsumed w).addTokenQuota
                  s.relayInfo.tokenId s.tokenConsumed) :=
              changeQuota_reliable _ hback.1.le hroll
            rw [hok] at hinc
            simp at hinc
          | ok w₁ =>
            obtain rfl : w₁ = w := by
              rw [(changeQuota_ok hinc).2, hrestored]
            exact ⟨w₁, rfl, .refl _ _⟩
        · rw [if_neg hback]
          have hsame : s.relayInfo.takeToken s.tokenConsumed w = w := by
            rcases not_and_or.1 hback with hzero | hplay
            · have hnone : s.tokenConsumed = 0 := by omega
              simp [hnone]
            · exact RelayInfo.takeToken_playground _ _ _ (by simpa using hplay)
          exact ⟨w, by rw [hsame], .refl _ _⟩

/-- The session between the two steps of an attempt. -/
def tokenCharged (relayInfo : RelayInfo) (trusted : Bool) (quota : ℤ) (funding : FundingSource) :
    BillingSession :=
  { start relayInfo funding with
    tokenConsumed := max 0 (if trusted then 0 else quota)
    trusted := trusted }

/-- The first step of an attempt fails, or charges the token. -/
theorem attempt_token {cfg : BillingConfig} {env : AttemptEnv} {quota : ℤ} {relayInfo : RelayInfo}
    {funding : FundingSource} {w : World} :
    (∃ e, (start relayInfo funding).preConsume cfg env quota w = (.error (.error e), w)) ∨
    ∃ trusted, (trusted = true → ∃ f, funding = .wallet f) ∧
      (start relayInfo funding).preConsume cfg env quota w
        = (tokenCharged relayInfo trusted quota funding).preConsumeFunding cfg env
          (if trusted then 0 else quota)
          (relayInfo.takeToken (max 0 (if trusted then 0 else quota)) w) := by
  unfold preConsume tokenCharged
  have htrust : (start relayInfo funding).shouldTrust cfg env.tokenQuota = true →
      ∃ f, funding = .wallet f := shouldTrust_wallet
  generalize (start relayInfo funding).shouldTrust cfg env.tokenQuota = trusted at htrust
  simp only
  by_cases hpos : 0 < (if trusted = true then 0 else quota)
  · rw [if_pos hpos]
    cases htoken : preConsumeTokenQuota cfg env.token (start relayInfo funding).relayInfo
        (if trusted = true then 0 else quota) w with
    | error e => exact Or.inl ⟨_, rfl⟩
    | ok w₁ =>
      refine Or.inr ⟨trusted, htrust, ?_⟩
      rw [preConsumeTokenQuota_ok htoken, max_eq_right hpos.le]
      rfl
  · rw [if_neg hpos]
    refine Or.inr ⟨trusted, htrust, ?_⟩
    rw [max_eq_left (by omega), RelayInfo.takeToken_zero]
    rfl

/-- An attempt fails and leaves the world as it was, or does not return, or has charged the token
and then the funding source. -/
theorem attempt_cases {cfg : BillingConfig} {env : AttemptEnv} {quota : ℤ} {relayInfo : RelayInfo}
    {funding : FundingSource} {w : World} :
    (∃ e w', (start relayInfo funding).preConsume cfg env quota w = (.error (.error e), w') ∧
      w.Left (cfg.Reliable env.rollback) w') ∨
    ((start relayInfo funding).preConsume cfg env quota w).1 = .error .hang ∨
    ∃ trusted funding' w', (trusted = true → ∃ f, funding = .wallet f) ∧
      (start relayInfo funding).preConsume cfg env quota w
        = (.ok (openedSession relayInfo trusted quota funding'), w') ∧
      funding.preConsume cfg env.funding (if trusted then 0 else quota)
        (relayInfo.takeToken (max 0 (if trusted then 0 else quota)) w) = (.ok funding', w') := by
  rcases attempt_token with ⟨e, herr⟩ | ⟨trusted, htrust, hsecond⟩
  · exact Or.inl ⟨e, w, herr, .refl _ _⟩
  · rw [hsecond]
    rcases preConsumeFunding_cases cfg env (s := tokenCharged relayInfo trusted quota funding)
      (w := w) rfl with herr | hhang | ⟨funding', w', hfunding, hsession⟩
    · exact Or.inl herr
    · exact Or.inr (Or.inl hhang)
    · exact Or.inr (Or.inr ⟨trusted, funding', w', htrust, hsession, hfunding⟩)

end BillingSession

/-! ### Both attempts -/

/-- The amount a subscription is asked for: at least one unit. -/
def subscriptionQuota (quota : ℤ) : ℤ := if quota ≤ 0 then 1 else quota

/-- The subscription source an attempt starts with. -/
def newSubscriptionFunding (relayInfo : RelayInfo) (quota : ℤ) : SubscriptionFunding where
  requestId := relayInfo.requestId
  userId := relayInfo.userId
  modelName := relayInfo.originModelName
  amount := subscriptionQuota quota
  subscriptionId := 0
  preConsumed := 0
  amountTotal := 0
  amountUsedAfter := 0
  planId := 0
  planTitle := ""

/-- A session on the wallet has been opened for the request. -/
def WalletOpened (relayInfo : RelayInfo) (quota : ℤ) (s : BillingSession) (w w' : World) : Prop :=
  ∃ userQuota trusted,
    let charged := if trusted then 0 else quota
    s = BillingSession.openedSession { relayInfo with userQuota := userQuota } trusted quota
        (.wallet { userId := relayInfo.userId, consumed := max 0 charged }) ∧
      w' = (relayInfo.takeToken (max 0 charged) w).addUserQuota relayInfo.userId (-max 0 charged)

/-- A session on a subscription has been opened for the request. -/
def SubscriptionChosen (cfg : BillingConfig) (env : FundingSource.PreConsumeFaults)
    (relayInfo : RelayInfo) (quota : ℤ) (s : BillingSession) (w w' : World) : Prop :=
  ∃ userQuota f res,
    s = BillingSession.openedSession { relayInfo with userQuota := userQuota } false
        (subscriptionQuota quota) (.subscription f) ∧
      SubscriptionOpened cfg env (newSubscriptionFunding relayInfo quota) f res
        (relayInfo.takeToken (subscriptionQuota quota) w) w'

theorem subscriptionQuota_pos (quota : ℤ) : 0 < subscriptionQuota quota := by
  unfold subscriptionQuota
  split <;> omega

variable {cfg : BillingConfig} {env : OpenEnv} {w : World}

/-- The attempt on the wallet. -/
theorem tryWallet_cases {quota : ℤ} {relayInfo : RelayInfo} :
    ((∃ e w', (tryWallet cfg env quota relayInfo w).1 = (.error (.error e), w') ∧
        w.Left (cfg.Reliable env.wallet.rollback) w') ∧
      ∃ userQuota, (tryWallet cfg env quota relayInfo w).2
        = { relayInfo with userQuota := userQuota }) ∨
    (tryWallet cfg env quota relayInfo w).1.1 = .error .hang ∨
    ∃ s w', (tryWallet cfg env quota relayInfo w).1 = (.ok s, w') ∧
      WalletOpened relayInfo quota s w w' := by
  unfold tryWallet
  cases env.userQuota with
  | error e => exact Or.inl ⟨⟨_, w, rfl, .refl _ _⟩, relayInfo.userQuota, rfl⟩
  | ok userQuota =>
    simp only
    split_ifs
    · exact Or.inl ⟨⟨_, w, rfl, .refl _ _⟩, relayInfo.userQuota, rfl⟩
    · exact Or.inl ⟨⟨_, w, rfl, .refl _ _⟩, relayInfo.userQuota, rfl⟩
    · rcases BillingSession.attempt_cases (w := w) with
        herr | hhang | ⟨trusted, funding', w', _, hsession, hfunding⟩
      · exact Or.inl ⟨herr, userQuota, rfl⟩
      · exact Or.inr (Or.inl hhang)
      · obtain ⟨rfl, rfl⟩ := FundingSource.preConsume_wallet hfunding
        exact Or.inr (Or.inr ⟨_, _, hsession, userQuota, trusted, rfl, rfl⟩)

/-- The attempt on a subscription. -/
theorem trySubscription_cases {quota : ℤ} {relayInfo : RelayInfo} :
    (∃ e w', trySubscription cfg env quota relayInfo w = (.error (.error e), w') ∧
      w.Left (cfg.Reliable env.subscription.rollback) w') ∨
    (trySubscription cfg env quota relayInfo w).1 = .error .hang ∨
    ∃ s w', trySubscription cfg env quota relayInfo w = (.ok s, w') ∧
      SubscriptionChosen cfg env.subscription.funding relayInfo quota s w w' := by
  have hstart : trySubscription cfg env quota relayInfo w
      = (BillingSession.start relayInfo
          (.subscription (newSubscriptionFunding relayInfo quota))).preConsume cfg env.subscription
            (subscriptionQuota quota) w := rfl
  rw [hstart]
  rcases BillingSession.attempt_cases (w := w) with
    herr | hhang | ⟨trusted, funding', w', htrust, hsession, hfunding⟩
  · exact Or.inl herr
  · exact Or.inr (Or.inl hhang)
  · cases trusted with
    | true => simp at htrust
    | false =>
      obtain ⟨f, res, rfl, hopened⟩ := FundingSource.preConsume_subscription hfunding
      have hpos := subscriptionQuota_pos quota
      simp only [Bool.false_eq_true, if_false, max_eq_right hpos.le] at hopened
      exact Or.inr (Or.inr ⟨_, w', hsession, relayInfo.userQuota, f, res, rfl, hopened⟩)

/-- The token increments that give back what an attempt has charged succeed. -/
def OpenEnv.RollsBack (cfg : BillingConfig) (env : OpenEnv) : Prop :=
  cfg.Reliable env.wallet.rollback ∧ cfg.Reliable env.subscription.rollback

instance (cfg : BillingConfig) (env : OpenEnv) : Decidable (env.RollsBack cfg) := by
  unfold OpenEnv.RollsBack; infer_instance

/-- What opening a session comes to: an error, and the world is as it was; or no answer; or a
session on one of the funding sources. -/
def Opens (cfg : BillingConfig) (env : OpenEnv) (relayInfo : RelayInfo) (quota : ℤ) (w : World)
    (r : Except BillingSession.OpenFailure BillingSession × World) : Prop :=
  (∃ e w', r = (.error (.error e), w') ∧ w.Left (env.RollsBack cfg) w') ∨ r.1 = .error .hang ∨
  ∃ s w₀ w', w.Left (env.RollsBack cfg) w₀ ∧ r = (.ok s, w') ∧
    (WalletOpened relayInfo quota s w₀ w' ∨
      SubscriptionChosen cfg env.subscription.funding relayInfo quota s w₀ w')

/-- An attempt that comes after one that has failed. -/
theorem Opens.of_left {relayInfo : RelayInfo} {quota : ℤ} {w₁ : World}
    {r : Except BillingSession.OpenFailure BillingSession × World}
    (hleft : w.Left (env.RollsBack cfg) w₁) (h : Opens cfg env relayInfo quota w₁ r) :
    Opens cfg env relayInfo quota w r := by
  rcases h with ⟨e, w', hr, hw'⟩ | hhang | ⟨s, w₀, w', hw₀, hr, hopened⟩
  · exact Or.inl ⟨e, w', hr, hleft.trans hw'⟩
  · exact Or.inr (Or.inl hhang)
  · exact Or.inr (Or.inr ⟨s, w₀, w', hleft.trans hw₀, hr, hopened⟩)

theorem opens_tryWallet {quota : ℤ} {relayInfo : RelayInfo} :
    Opens cfg env relayInfo quota w (tryWallet cfg env quota relayInfo w).1 := by
  rcases tryWallet_cases with ⟨⟨e, w', herr, hleft⟩, _⟩ | hhang | ⟨s, w', hok, hopened⟩
  · exact Or.inl ⟨e, w', herr, hleft.mono And.left⟩
  · exact Or.inr (Or.inl hhang)
  · exact Or.inr (Or.inr ⟨s, w, w', .refl _ _, hok, Or.inl hopened⟩)

/-- The attempt on a subscription does not look at the quota the attempt on the wallet has noted
in the request. -/
theorem opens_trySubscription {quota userQuota : ℤ} {relayInfo : RelayInfo} :
    Opens cfg env relayInfo quota w
      (trySubscription cfg env quota { relayInfo with userQuota := userQuota } w) := by
  rcases trySubscription_cases with ⟨e, w', herr, hleft⟩ | hhang | ⟨s, w', hok, _, hopened⟩
  · exact Or.inl ⟨e, w', herr, hleft.mono And.right⟩
  · exact Or.inr (Or.inl hhang)
  · exact Or.inr (Or.inr ⟨s, w, w', .refl _ _, hok, Or.inr ⟨_, hopened⟩⟩)

/-- Opening a session fails and leaves the world as it was, or does not return, or returns a
session on one of the funding sources. -/
theorem newBillingSession_cases {quota : ℤ} {relayInfo : RelayInfo} :
    Opens cfg env relayInfo quota w (newBillingSession cfg env (some relayInfo) quota w) := by
  unfold newBillingSession
  simp only
  split_ifs
  · exact opens_trySubscription
  · exact opens_tryWallet
  · have hwallet : Opens cfg env relayInfo quota w (tryWallet cfg env quota relayInfo w).1 :=
      opens_tryWallet
    rcases tryWallet_cases (w := w) with ⟨⟨e, w', he, hleft⟩, userQuota, hquota⟩ | hhang | hok
    · cases hr : tryWallet cfg env quota relayInfo w with
      | mk r relayInfo' =>
        rw [hr] at he hquota
        simp only at he hquota
        rw [he, hquota]
        simp only
        split_ifs
        · exact opens_trySubscription.of_left (hleft.mono And.left)
        · exact Or.inl ⟨e, w', rfl, hleft.mono And.left⟩
    · cases hr : tryWallet cfg env quota relayInfo w with
      | mk r relayInfo' =>
        obtain ⟨r, w'⟩ := r
        rw [hr] at hhang
        obtain rfl : r = .error .hang := hhang
        exact Or.inr (Or.inl rfl)
    · obtain ⟨s, w', hok, _⟩ := hok
      cases hr : tryWallet cfg env quota relayInfo w with
      | mk r relayInfo' =>
        rw [hr] at hok hwallet
        obtain rfl : r = (.ok s, w') := hok
        exact hwallet
  · cases hasActiveUserSubscription env.active relayInfo.userId env.now w.store with
    | error e => exact Or.inl ⟨_, w, rfl, .refl _ _⟩
    | ok hasSub =>
      cases hasSub with
      | false => exact opens_tryWallet
      | true =>
        have hsub : Opens cfg env relayInfo quota w
            (trySubscription cfg env quota relayInfo w) :=
          opens_trySubscription
        simp only
        cases hr : trySubscription cfg env quota relayInfo w with
        | mk r w₁ =>
          rw [hr] at hsub
          cases r with
          | ok s => exact hsub
          | error failure =>
            cases failure with
            | hang => exact hsub
            | error e =>
              rcases hsub with ⟨e', w', he', hleft⟩ | hhang | ⟨s, w₀, w', _, hok, _⟩
              · obtain ⟨_, rfl⟩ := Prod.mk.inj he'
                simp only
                split_ifs
                · exact opens_tryWallet.of_left hleft
                · exact Or.inl ⟨e, w₁, rfl, hleft⟩
              · simp at hhang
              · simp at hok

/-! ### All or nothing -/

/-- The world `w'` is `w` with the charge of the session `s` that has just been opened: the token
is charged the session's amount, and so is either the wallet or one subscription; of the other
source nothing is taken.  A request that has a record already has been charged before. -/
structure SessionCharge (cfg : BillingConfig) (env : OpenEnv) (relayInfo : RelayInfo) (quota : ℤ)
    (s : BillingSession) (w w' : World) : Prop where
  amount : s.preConsumedQuota =
    if s.trusted then 0
    else if s.funding.source = billingSourceSubscription then subscriptionQuota quota else quota
  token : w'.tokenRemain = (relayInfo.takeToken (max 0 s.preConsumedQuota) w).tokenRemain
  wallet : ∀ f, s.funding = .wallet f → w'.store = w.store ∧
    w'.userQuota = (w.addUserQuota relayInfo.userId (-max 0 s.preConsumedQuota)).userQuota
  subscription : ∀ f, s.funding = .subscription f → w'.userQuota = w.userQuota ∧
    0 < s.preConsumedQuota ∧
    (w.store.record relayInfo.requestId ≠ none → w'.store = w.store) ∧
    (w.store.record relayInfo.requestId = none → ∀ id, w'.store.amountUsed id =
      (if resetByPreConsume cfg.loc env.subscription.funding.sub relayInfo.userId f.subscriptionId
        id w.store then 0 else w.store.amountUsed id)
        + if f.subscriptionId = id then s.preConsumedQuota else 0)

theorem WalletOpened.charge {relayInfo : RelayInfo} {quota : ℤ} {s : BillingSession} {w' : World}
    (h : WalletOpened relayInfo quota s w w') :
    SessionCharge cfg env relayInfo quota s w w' := by
  obtain ⟨userQuota, trusted, rfl, rfl⟩ := h
  have hsource : billingSourceWallet ≠ billingSourceSubscription := by decide
  refine ⟨?_, ?_, fun f _ => ⟨?_, ?_⟩, fun f hf => ?_⟩
  · simp [FundingSource.source, hsource]
  · simp
  · simp
  · simp [World.addUserQuota]
  · simp at hf

theorem SubscriptionChosen.charge {relayInfo : RelayInfo} {quota : ℤ} {s : BillingSession}
    {w' : World} (hinv : StoreInv w.store)
    (h : SubscriptionChosen cfg env.subscription.funding relayInfo quota s w w') :
    SessionCharge cfg env relayInfo quota s w w' := by
  obtain ⟨userQuota, f, res, rfl, hanswer, rfl, _, hid, _⟩ := h
  have hpos := subscriptionQuota_pos quota
  refine ⟨?_, ?_, fun f' hf' => ?_, fun f' hf' => ⟨?_, ?_, ?_⟩⟩
  · simp [FundingSource.source]
  · simp [max_eq_right hpos.le]
  · simp at hf'
  · simp
  · simpa using hpos
  · obtain rfl : f = f' := by simpa using hf'
    rw [RelayInfo.takeToken_store] at hanswer ⊢
    obtain ⟨_, _, ⟨existing, hex, _, ht⟩ | ⟨hfresh, ⟨hscan⟩⟩⟩ := preConsume_ok hinv.subIds hanswer
    · refine ⟨fun _ => ht, fun hnone => ?_⟩
      have hsome : w.store.record relayInfo.requestId = some existing := hex
      rw [hnone] at hsome
      simp at hsome
    · refine ⟨fun hsome => absurd hfresh hsome, fun _ id => ?_⟩
      rw [hid, BillingSession.openedSession_preConsumedQuota]
      exact hscan.amountUsed id

/-- **Opening a billing session is all or nothing.**  For every preference, request, store and
outcome of the statements: an error leaves the world as it was, and a session comes with exactly
its own charge. -/
theorem newBillingSession_charge (cfg : BillingConfig) (env : OpenEnv)
    (relayInfo : Option RelayInfo) (quota : ℤ) (w : World) (hinv : StoreInv w.store)
    (hroll : env.RollsBack cfg) :
    (∀ e, (newBillingSession cfg env relayInfo quota w).1 = .error (.error e) →
      (newBillingSession cfg env relayInfo quota w).2 = w) ∧
    ∀ s, (newBillingSession cfg env relayInfo quota w).1 = .ok s →
      ∃ request, relayInfo = some request ∧ SessionCharge cfg env request quota s w
        (newBillingSession cfg env relayInfo quota w).2 := by
  cases relayInfo with
  | none => exact ⟨fun e _ => rfl, fun s hs => by simp [newBillingSession] at hs⟩
  | some request =>
    have hcases : Opens cfg env request quota w
        (newBillingSession cfg env (some request) quota w) := newBillingSession_cases
    rcases hcases with ⟨e, w', he, hleft⟩ | hhang | ⟨s, w₀, w', hleft, hok, hopened⟩
    · rw [he]
      exact ⟨fun _ _ => hleft.2.2 hroll, fun s hs => by simp at hs⟩
    · exact ⟨fun e he => by rw [hhang] at he; simp at he,
        fun s hs => by rw [hhang] at hs; simp at hs⟩
    · rw [hok]
      refine ⟨fun e he => by simp at he, fun s' hs' => ⟨request, rfl, ?_⟩⟩
      obtain rfl : s = s' := by simpa using hs'
      obtain rfl : w₀ = w := hleft.2.2 hroll
      rcases hopened with hopened | hopened
      · exact hopened.charge
      · exact hopened.charge hinv

/-- A configuration without batches and without trust. -/
def plainConfig : BillingConfig where
  batchUpdateEnabled := false
  trustQuota := 0
  formatQuota := toString
  loc := utc

/-- A request of user 1 with token 1, to be charged as `billingPreference` says. -/
def plainRequest (billingPreference : String) : RelayInfo where
  userId := 1
  requestId := "req-1"
  originModelName := "model"
  tokenId := 1
  tokenKey := "key"
  tokenUnlimited := false
  isPlayground := false
  forcePreConsume := false
  billingPreference := billingPreference
  userQuota := 0
  finalPreConsumedQuota := 0
  billingSource := ""
  subscriptionId := 0
  subscriptionPreConsumed := 0
  subscriptionPostDelta := 0
  subscriptionAmountTotal := 0
  subscriptionAmountUsedAfterPreConsume := 0
  subscriptionPlanId := 0
  subscriptionPlanTitle := ""

/-- An attempt at time 30 without faults. -/
def plainAttempt : BillingSession.AttemptEnv where
  tokenQuota := 1000
  token := { read := .ok 1000 }
  funding := { sub := basicEnv 30 }

/-- Opening a session without faults. -/
def plainOpen : OpenEnv where
  userQuota := .ok 1000
  now := 30
  wallet := plainAttempt
  subscription := plainAttempt

/-- A world in which the user and the token have quota left, with the given store. -/
def plainWorld (store : Tables) : World where
  userQuota := fun _ => 1000
  tokenRemain := fun _ => 1000
  store := store

/-- The store in which two requests of user 1 have been charged to a subscription. -/
def chargedStore : Tables :=
  Transition.run (storeStep utc) (Tables.empty fun _ => "default") chargedTwice

/-- The same request under another request id. -/
def freshRequest (billingPreference : String) : RelayInfo :=
  { plainRequest billingPreference with requestId := "req-3" }

/-- A request that has a record is not charged again, and neither is a negative quota; the session
keeps the amount it was asked for. -/
theorem newBillingSession_uncharged :
    let repeated := newBillingSession plainConfig plainOpen
      (some (plainRequest "subscription_only")) 100 (plainWorld chargedStore)
    let negative := newBillingSession plainConfig plainOpen (some (plainRequest "wallet_only"))
      (-5) (plainWorld chargedStore)
    repeated.1.toOption.map (·.preConsumedQuota) = some 100 ∧
      repeated.2.store.subs = chargedStore.subs ∧ repeated.2.userQuota 1 = 1000 ∧
      negative.1.toOption.map (·.preConsumedQuota) = some (-5) ∧
      negative.2.store.subs = chargedStore.subs ∧ negative.2.userQuota 1 = 1000 := by
  decide

/-- A request that is charged to the subscription, after the wallet has refused. -/
theorem newBillingSession_charge_walletFirst :
    let env := { plainOpen with userQuota := .ok 10 }
    let opened := newBillingSession plainConfig env (some (freshRequest "wallet_first")) 100
      (plainWorld chargedStore)
    opened.1.toOption.map (·.preConsumedQuota) = some 100 ∧
      (∀ e, opened.1 = .error (.error e) → opened.2 = plainWorld chargedStore) ∧
      ∀ s, opened.1 = .ok s → ∃ request, some (freshRequest "wallet_first") = some request ∧
        SessionCharge plainConfig env request 100 s (plainWorld chargedStore) opened.2 := by
  refine ⟨by decide, ?_⟩
  exact newBillingSession_charge plainConfig { plainOpen with userQuota := .ok 10 } _ 100
    (plainWorld chargedStore) (run_storeInv utc _ chargedTwice) (by decide)

end NewApi
