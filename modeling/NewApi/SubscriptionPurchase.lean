/-
**Buying a plan with balance.**

A purchase reads the user's quota and takes the price from it in a later statement; the purchases
of a plan are counted before another one is inserted.  The first check holds when the price is
taken if no other purchase has taken its own in between, and the second when the transaction
commits if no other subscription has been committed in between.  What is taken is taken by a
relative update, so the quota always is what the subscriptions that were bought with balance have
left of it.

Main definitions:

* `NewApi.paidFor`, `NewApi.spent` — what a subscription has cost, and what a user has spent;
* `NewApi.SubOrderAction.WithinLimits` — the checks of a call still hold when it acts on them;
* `NewApi.PurchaseInv` — what holds of a user's quota and subscriptions as long as that is so.

Main results:

* `NewApi.purchases_within_limits` — **the quota stays within what the user had, is reduced by the
  price of every subscription bought with balance and by nothing else, and the limit of a plan is
  kept**, in every run in which the checks still hold;
* `NewApi.purchases_exceed_limits` — a quota becomes negative, and a limit is exceeded, in runs in
  which they do not.
-/

import NewApi.SubscriptionOrders
import Mathlib.Algebra.BigOperators.Group.List.Basic

set_option autoImplicit false

namespace NewApi

open ReadCommitted

/-! ### What is paid -/

/-- What a subscription has cost: the price of its plan, if a call has bought it with balance. -/
def paidFor {ι : Type*} (cfg : OrderConfig) (c : Option ι × UserSubscription) : ℤ :=
  if c.1.isSome ∧ c.2.source = paymentMethodBalance then
    ((cfg.plans c.2.planId).map fun plan => cfg.priceQuota plan.priceAmount).getD 0
  else 0

/-- What a user has spent on the subscriptions bought with balance. -/
def spent {ι : Type*} (cfg : OrderConfig) (userId : ℤ) (s : OrderSystem ι) : ℤ :=
  ((s.subs.filter fun c => c.2.userId = userId).map (paidFor cfg)).sum

/-- What a call takes from the quota. -/
def OrderCall.charge (cfg : OrderConfig) : OrderCall → ℤ
  | .purchase _ planId _ =>
    ((cfg.plans planId).map fun plan => cfg.priceQuota plan.priceAmount).getD 0
  | _ => 0

/-- The user a call creates a subscription for, once the price has been taken. -/
def OrderState.buyer : OrderState → Option ℤ
  | .counting buying => some buying.userId
  | .grouping buying _ _ => some buying.userId
  | .upgrading buying _ _ _ => some buying.userId
  | .inserting buying _ => some buying.userId
  | .finding _ _ sub => some sub.userId
  | .recording _ sub _ => some sub.userId
  | .ordering _ sub => some sub.userId
  | .saving _ (some sub) => some sub.userId
  | .saved _ (some sub) => some sub.userId
  | _ => none

section Charge

variable {cfg : OrderConfig} {call : OrderCall} {buying : Buying}

theorem priceQuota_nonneg {priceAmount : ℚ} {requiredQuota : ℤ}
    (h : calcSubscriptionBalanceQuota cfg priceAmount = .ok requiredQuota) :
    0 ≤ cfg.priceQuota priceAmount := by
  unfold calcSubscriptionBalanceQuota at h
  unfold OrderConfig.priceQuota
  split
  · exact le_rfl
  · rename_i hprice
    rw [if_neg hprice] at h
    split at h
    · cases h
    · rename_i hunit
      have hprod : 0 ≤ priceAmount * cfg.quotaPerUnit :=
        mul_nonneg (not_le.1 hprice).le (not_le.1 hunit).le
      exact Int.ceil_nonneg hprod

/-- The required quota is the price, unless that does not fit the machine's integers. -/
theorem requiredQuota_eq {priceAmount : ℚ} {requiredQuota : ℤ}
    (h : calcSubscriptionBalanceQuota cfg priceAmount = .ok requiredQuota)
    (hfits : cfg.priceQuota priceAmount < 2 ^ 63) :
    requiredQuota = cfg.priceQuota priceAmount := by
  have hnonneg : 0 ≤ cfg.priceQuota priceAmount := priceQuota_nonneg h
  unfold calcSubscriptionBalanceQuota at h
  unfold OrderConfig.priceQuota at hfits hnonneg ⊢
  split at h
  · rename_i hprice
    rw [if_pos hprice]
    cases h
    rfl
  · rename_i hprice
    rw [if_neg hprice] at hfits hnonneg ⊢
    split at h
    · cases h
    · cases h
      have htrunc : intPart (⌈priceAmount * cfg.quotaPerUnit⌉ : ℚ) =
          wrap64 ⌈priceAmount * cfg.quotaPerUnit⌉ := by
        simp [intPart]
      rw [htrunc, wrap64]
      refine Int.bmod_eq_of_le ?_ ?_
      · omega
      · omega

theorem charge_of_not_purchase (h : call.isPurchase = false) : call.charge cfg = 0 := by
  cases call with
  | complete tradeNo payload provider method => rfl
  | expire tradeNo provider => rfl
  | purchase userId planId tradeNo => cases h

/-- A purchase takes the price of its plan. -/
theorem Buying.For.charge_eq (h : buying.For cfg call) (hcall : call.isPurchase = true)
    (hfits : cfg.priceQuota buying.plan.priceAmount < 2 ^ 63) :
    call.charge cfg = buying.requiredQuota ∧
      buying.requiredQuota = cfg.priceQuota buying.plan.priceAmount := by
  cases call with
  | complete tradeNo payload provider method => cases hcall
  | expire tradeNo provider => cases hcall
  | purchase userId planId tradeNo =>
    obtain ⟨hplan, -, hquota, -, -⟩ := h
    have hprice := requiredQuota_eq hquota hfits
    refine ⟨?_, hprice⟩
    simp only [OrderCall.charge, hplan, Option.map_some, Option.getD_some, hprice]

theorem Buying.For.charge_nonneg (h : buying.For cfg call) : 0 ≤ call.charge cfg := by
  cases call with
  | complete tradeNo payload provider method => exact le_rfl
  | expire tradeNo provider => exact le_rfl
  | purchase userId planId tradeNo =>
    obtain ⟨hplan, -, hquota, -, -⟩ := h
    simp only [OrderCall.charge, hplan, Option.map_some, Option.getD_some]
    exact priceQuota_nonneg hquota

/-- What is paid for a subscription is what the call that made it takes. -/
theorem Buying.For.paidFor_eq {ι : Type*} {sub : UserSubscription} (i : ι)
    (h : buying.For cfg call) (hmade : buying.Made sub) :
    paidFor cfg (some i, sub) = call.charge cfg := by
  obtain ⟨-, hplanId, hsource⟩ := hmade
  cases call with
  | complete tradeNo payload provider method =>
    have hnot : ¬ sub.source = paymentMethodBalance := by
      rw [hsource, h.2.1]
      decide
    simp [paidFor, hnot, OrderCall.charge]
  | expire tradeNo provider => exact h.elim
  | purchase userId planId tradeNo =>
    obtain ⟨hplan, -, -, hbalance, -⟩ := h
    have hid : buying.plan.id = planId := cfg.plan_id _ _ hplan
    simp [paidFor, hsource, hbalance, hplanId, hid, OrderCall.charge]

end Charge

theorem buyer_afterInsert (buying : Buying) (sub : UserSubscription) :
    (buying.afterInsert sub).buyer = some sub.userId := by
  unfold Buying.afterInsert
  cases buying.order with
  | some order => rfl
  | none => rfl

/-! ### The invariant -/

section Limits

variable {ι : Type*} [DecidableEq ι] {cfg : OrderConfig} {calls : ι → OrderCall}
  {s : OrderSystem ι} {userId : ℤ} {before : Option ℤ}

/-- The quota of a user. -/
def OrderSystem.quota (s : OrderSystem ι) (userId : ℤ) : Option ℤ :=
  (s.users.committed userId).map (·.quota)

/-- What holds of a user whose quota was `before`, in every run in which the checks of the calls
still hold when they act on them. -/
structure PurchaseInv (cfg : OrderConfig) (calls : ι → OrderCall) (userId : ℤ)
    (before : Option ℤ) (s : OrderSystem ι) : Prop where
  formed : Formed cfg calls s
  /-- The row is only written by a call that buys for the user, and is short of its price. -/
  owned : ∀ i v, s.users.pending userId = some (i, v) → (s.state i).buyer = some userId ∧
    v.map (·.quota) = (s.quota userId).map (· - (calls i).charge cfg) ∧
    ∀ user ∈ v, 0 ≤ user.quota
  /-- A call that takes a price has the row. -/
  written : ∀ i, (s.state i).buyer = some userId → 0 < (calls i).charge cfg →
    ∃ v, s.users.pending userId = some (i, v)
  /-- What is left of the quota. -/
  ledger : s.quota userId = before.map (· - spent cfg userId s)
  nonneg : ∀ quota ∈ s.quota userId, 0 ≤ quota
  /-- Only a call that has come to its end has a subscription in the table. -/
  creators : ∀ c ∈ s.subs, ∀ i, c.1 = some i → s.state i = .done (.ok ())
  limit : ∀ plan, cfg.plans plan.id = some plan → 0 < plan.maxPurchasePerUser →
    (countSubscriptions userId plan.id s : ℤ) ≤ plan.maxPurchasePerUser

theorem creators_update {s' : OrderSystem ι} {i : ι} {state : OrderState}
    (h : ∀ c ∈ s.subs, ∀ j, c.1 = some j → s.state j = .done (.ok ()))
    (hstate : s'.state = Function.update s.state i state) (hopen : (s.state i).isDone = false) :
    ∀ c ∈ s.subs, ∀ j, c.1 = some j → s'.state j = .done (.ok ()) := by
  intro c hc j hj
  have hne : j ≠ i := by
    rintro rfl
    rw [h c hc j hj] at hopen
    cases hopen
  rw [hstate, Function.update_of_ne hne]
  exact h c hc j hj

/-- The state of one call changes and no user does. -/
theorem PurchaseInv.of_update {s' : OrderSystem ι} {i : ι} {state : OrderState}
    (h : PurchaseInv cfg calls userId before s) (hformed : Formed cfg calls s')
    (husers : s'.users = s.users) (hsubs : s'.subs = s.subs)
    (hstate : s'.state = Function.update s.state i state)
    (hopen : (s.state i).isDone = false)
    (hbuyer : state.buyer = (s.state i).buyer ∨
      (s.state i).buyer = none ∧ (state.buyer = some userId → (calls i).charge cfg ≤ 0)) :
    PurchaseInv cfg calls userId before s' := by
  have hquota : s'.quota userId = s.quota userId := by
    rw [OrderSystem.quota, husers, OrderSystem.quota]
  refine ⟨hformed, ?_, ?_, ?_, ?_, ?_, ?_⟩
  · intro j v hp
    rw [husers] at hp
    obtain ⟨hj, hv⟩ := h.owned j v hp
    refine ⟨?_, by rwa [hquota]⟩
    rw [hstate]
    by_cases hne : j = i
    · subst hne
      rw [Function.update_self]
      rcases hbuyer with hsame | ⟨hnone, -⟩
      · rw [hsame, hj]
      · rw [hnone] at hj
        cases hj
    · rwa [Function.update_of_ne hne]
  · intro j hj hcharge
    rw [husers]
    rw [hstate] at hj
    by_cases hne : j = i
    · subst hne
      rw [Function.update_self] at hj
      rcases hbuyer with hsame | ⟨-, hfree⟩
      · exact h.written j (hsame ▸ hj) hcharge
      · exact absurd hcharge (not_lt.2 (hfree hj))
    · rw [Function.update_of_ne hne] at hj
      exact h.written j hj hcharge
  · rw [hquota, spent, hsubs]
    exact h.ledger
  · rw [hquota]
    exact h.nonneg
  · rw [hsubs]
    exact creators_update h.creators hstate hopen
  · intro plan hplan hlimit
    rw [countSubscriptions, hsubs]
    exact h.limit plan hplan hlimit

/-- A call changes the row of its buyer. -/
theorem PurchaseInv.of_write {i : ι} {user : ℤ} {f : OrderUser → OrderUser} {state : OrderState}
    (h : PurchaseInv cfg calls userId before s)
    (hformed : Formed cfg calls (s.changeUser i user f state))
    (hfree : s.users.Free i user) (hopen : (s.state i).isDone = false)
    (hbefore : ∀ u ∈ (s.state i).buyer, u = user) (hafter : state.buyer = some user)
    (hwrite : user = userId →
      ((s.users.view i userId).map f).map (·.quota) =
        (s.quota userId).map (· - (calls i).charge cfg) ∧
      ∀ user' ∈ (s.users.view i userId).map f, 0 ≤ user'.quota) :
    PurchaseInv cfg calls userId before (s.changeUser i user f state) := by
  have hstate : (s.changeUser i user f state).state = Function.update s.state i state := rfl
  have husers : (s.changeUser i user f state).users =
      s.users.write i user (Option.map f) := rfl
  refine ⟨hformed, ?_, ?_, h.ledger, h.nonneg, creators_update (s := s) h.creators hstate hopen, h.limit⟩
  · intro j v hp
    rw [husers] at hp
    rw [hstate]
    by_cases hu : user = userId
    · subst hu
      rw [Database.pending_write_self] at hp
      cases hp
      rw [Function.update_self]
      exact ⟨hafter, hwrite rfl⟩
    · rw [Database.pending_write_of_ne _ _ (Ne.symm hu)] at hp
      obtain ⟨hj, hv⟩ := h.owned j v hp
      have hne : j ≠ i := by
        rintro rfl
        exact hu (hbefore userId hj).symm
      rw [Function.update_of_ne hne]
      exact ⟨hj, hv⟩
  · intro j hj hcharge
    rw [hstate] at hj
    rw [husers]
    by_cases hne : j = i
    · subst hne
      rw [Function.update_self, hafter] at hj
      cases hj
      exact ⟨_, Database.pending_write_self ..⟩
    · rw [Function.update_of_ne hne] at hj
      obtain ⟨v, hp⟩ := h.written j hj hcharge
      have hu : userId ≠ user := by
        -- the row was free for `i`, so `j` does not have it
        rintro rfl
        exact hne (hfree _ hp)
      exact ⟨v, (Database.pending_write_of_ne _ _ hu).trans hp⟩

/-- A call that is not at the point of writing a user reads what is committed. -/
theorem PurchaseInv.view_of_not_buyer (h : PurchaseInv cfg calls userId before s) {i : ι}
    (hbuyer : (s.state i).buyer ≠ some userId) :
    s.users.view i userId = s.users.committed userId :=
  Database.view_of_not_own fun v hp => hbuyer (h.owned i v hp).1

/-- A call that has taken its price reads the user short of it. -/
theorem PurchaseInv.view_of_buyer (h : PurchaseInv cfg calls userId before s) {i : ι}
    (hbuyer : (s.state i).buyer = some userId) (hcharge : 0 ≤ (calls i).charge cfg) :
    (s.users.view i userId).map (·.quota) =
        (s.quota userId).map (· - (calls i).charge cfg) ∧
      ∀ user ∈ s.users.view i userId, 0 ≤ user.quota := by
  by_cases hown : ∃ v, s.users.pending userId = some (i, v)
  · obtain ⟨v, hp⟩ := hown
    rw [Database.view_of_own hp]
    exact (h.owned i v hp).2
  · have hfree : ¬ 0 < (calls i).charge cfg := fun hpos => hown (h.written i hbuyer hpos)
    have hzero : (calls i).charge cfg = 0 := by omega
    have hview : s.users.view i userId = s.users.committed userId :=
      Database.view_of_not_own fun v hp => hown ⟨v, hp⟩
    refine ⟨?_, fun user huser => ?_⟩
    · rw [hview, hzero, OrderSystem.quota]
      simp only [sub_zero, Option.map_id']
    · rw [hview] at huser
      exact h.nonneg user.quota (Option.mem_map_of_mem (·.quota) huser)

/-! ### The end of a transaction -/

theorem PurchaseInv.of_end {s' : OrderSystem ι} {i : ι} {result : Except String Unit}
    (h : PurchaseInv cfg calls userId before s) (hformed : Formed cfg calls s')
    (hpending : s'.users.pending = (s.users.commit i).pending)
    (hstate : s'.state = Function.update s.state i (.done result))
    (hquota : (∃ v, s.users.pending userId = some (i, v)) ∨ s'.quota userId = s.quota userId)
    (hledger : s'.quota userId = before.map (· - spent cfg userId s'))
    (hnonneg : ∀ quota ∈ s'.quota userId, 0 ≤ quota)
    (hcreators : ∀ c ∈ s'.subs, ∀ j, c.1 = some j → s'.state j = .done (.ok ()))
    (hlimit : ∀ plan, cfg.plans plan.id = some plan → 0 < plan.maxPurchasePerUser →
      (countSubscriptions userId plan.id s' : ℤ) ≤ plan.maxPurchasePerUser) :
    PurchaseInv cfg calls userId before s' := by
  refine ⟨hformed, ?_, ?_, hledger, hnonneg, hcreators, hlimit⟩
  · intro j v hp
    rw [hpending] at hp
    obtain ⟨hp, hne⟩ := Database.pending_commit_eq_some.1 hp
    rw [hstate, Function.update_of_ne hne]
    rcases hquota with ⟨v', hp'⟩ | hsame
    · rw [hp'] at hp
      cases hp
      exact absurd rfl hne
    · rw [hsame]
      exact h.owned j v hp
  · intro j hj hcharge
    rw [hstate] at hj
    have hne : j ≠ i := by
      rintro rfl
      rw [Function.update_self] at hj
      cases hj
    rw [Function.update_of_ne hne] at hj
    obtain ⟨v, hp⟩ := h.written j hj hcharge
    rw [hpending]
    exact ⟨v, Database.pending_commit_eq_some.2 ⟨hp, hne⟩⟩

theorem PurchaseInv.abort (h : PurchaseInv cfg calls userId before s) {i : ι} {err : String}
    (hformed : Formed cfg calls (s.abort i err)) (hopen : (s.state i).isDone = false) :
    PurchaseInv cfg calls userId before (s.abort i err) :=
  h.of_end hformed rfl rfl (.inr rfl) h.ledger h.nonneg
    (creators_update (s := s) h.creators rfl hopen) h.limit

/-- What the subscription of a call adds to what the user has spent. -/
theorem spent_commit (i : ι) (sub : Option UserSubscription) :
    spent cfg userId (s.commit i sub) = spent cfg userId s +
      (sub.map fun sub => if sub.userId = userId then paidFor cfg (some i, sub) else 0).getD 0 := by
  simp only [spent, OrderSystem.commit, List.filter_append, List.map_append, List.sum_append]
  congr 1
  cases sub with
  | none => rfl
  | some sub =>
    by_cases hu : sub.userId = userId
    · simp [hu]
    · simp [hu]

theorem countSubscriptions_commit (i : ι) (sub : Option UserSubscription) (planId : ℤ) :
    countSubscriptions userId planId (s.commit i sub) = countSubscriptions userId planId s +
      (sub.map fun sub => if sub.userId = userId ∧ sub.planId = planId then 1 else 0).getD 0 := by
  simp only [countSubscriptions, OrderSystem.commit, List.filter_append, List.length_append]
  congr 1
  cases sub with
  | none => rfl
  | some sub =>
    by_cases hu : sub.userId = userId ∧ sub.planId = planId
    · simp [hu]
    · simp [hu]

theorem PurchaseInv.commit (h : PurchaseInv cfg calls userId before s) {i : ι}
    {order : SubscriptionOrder} {sub : Option UserSubscription}
    (hformed : Formed cfg calls (s.commit i sub)) (hstate : s.state i = .saved order sub)
    (hlimit : ∀ bought ∈ sub, bought.userId = userId → ∀ plan ∈ cfg.plans bought.planId,
      0 < plan.maxPurchasePerUser →
        (countSubscriptions userId bought.planId s : ℤ) < plan.maxPurchasePerUser) :
    PurchaseInv cfg calls userId before (s.commit i sub) := by
  have hwritten : Written cfg (calls i) order sub := by
    have hfor := h.formed i
    rwa [hstate] at hfor
  have hquota : (s.commit i sub).quota userId = (s.users.view i userId).map (·.quota) := rfl
  have hopen : (s.state i).isDone = false := by
    rw [hstate]
    rfl
  have hcreators : ∀ c ∈ (s.commit i sub).subs, ∀ j, c.1 = some j →
      (s.commit i sub).state j = .done (.ok ()) := by
    intro c hc j hj
    rcases List.mem_append.1 hc with hc | hc
    · exact creators_update (s := s) h.creators rfl hopen c hc j hj
    · simp only [Option.mem_toList, Option.map_eq_some_iff] at hc
      obtain ⟨sub', -, rfl⟩ := hc
      cases hj
      exact Function.update_self ..
  have hcount : ∀ plan, cfg.plans plan.id = some plan → 0 < plan.maxPurchasePerUser →
      (countSubscriptions userId plan.id (s.commit i sub) : ℤ) ≤ plan.maxPurchasePerUser := by
    intro plan hplan hpos
    rw [countSubscriptions_commit]
    have hle := h.limit plan hplan hpos
    cases sub with
    | none => simpa using hle
    | some sub =>
      simp only [Option.map_some, Option.getD_some]
      split
      · rename_i hsub
        have hlt := hlimit sub rfl hsub.1 plan (hsub.2 ▸ hplan) hpos
        rw [hsub.2] at hlt
        omega
      · simpa using hle
  by_cases hbuyer : (s.state i).buyer = some userId
  · -- the call has bought for the user: what it has taken is the price of its subscription
    obtain ⟨bought, rfl⟩ : ∃ bought, sub = some bought := by
      cases sub with
      | none =>
        rw [hstate] at hbuyer
        cases hbuyer
      | some bought => exact ⟨bought, rfl⟩
    have huser : bought.userId = userId := by
      rw [hstate] at hbuyer
      exact Option.some.inj hbuyer
    obtain ⟨-, buying, hfor, hmade⟩ := hwritten
    obtain ⟨hview, hpos⟩ := h.view_of_buyer hbuyer hfor.charge_nonneg
    have hspent : spent cfg userId (s.commit i (some bought)) =
        spent cfg userId s + (calls i).charge cfg := by
      rw [spent_commit]
      simp only [Option.map_some, Option.getD_some, huser, if_true]
      rw [hfor.paidFor_eq i hmade]
    have hafter : (s.commit i (some bought)).quota userId =
        before.map (· - spent cfg userId (s.commit i (some bought))) := by
      rw [hquota, hview, h.ledger, hspent]
      cases before with
      | none => rfl
      | some b => simp [sub_sub]
    have hsame : (∃ v, s.users.pending userId = some (i, v)) ∨
        (s.commit i (some bought)).quota userId = s.quota userId := by
      by_cases hcharge : 0 < (calls i).charge cfg
      · exact .inl (h.written i hbuyer hcharge)
      · have hzero : (calls i).charge cfg = 0 := by
          have := hfor.charge_nonneg
          omega
        refine .inr ?_
        rw [hquota, hview, hzero]
        simp
    refine h.of_end hformed rfl rfl hsame hafter ?_ hcreators hcount
    intro quota hq
    rw [hquota] at hq
    obtain ⟨user, huser', rfl⟩ := Option.mem_map.1 hq
    exact hpos user huser'
  · have hview : (s.commit i sub).quota userId = s.quota userId := by
      rw [hquota, h.view_of_not_buyer hbuyer, OrderSystem.quota]
    have hspent : spent cfg userId (s.commit i sub) = spent cfg userId s := by
      rw [spent_commit]
      cases sub with
      | none => simp
      | some bought =>
        have hne : bought.userId ≠ userId := by
          intro hu
          rw [hstate] at hbuyer
          exact hbuyer (congrArg some hu)
        simp [hne]
    refine h.of_end hformed rfl rfl (.inr hview) ?_ ?_ hcreators hcount
    · rw [hview, hspent]
      exact h.ledger
    · rw [hview]
      exact h.nonneg

/-! ### Runs -/

/-- The checks a call has made for a user still hold when it acts on them: the quota covers the
price when the price is taken, and the limit leaves room when the subscription is published.  The
price fits the machine's integers. -/
def SubOrderAction.WithinLimits (cfg : OrderConfig) (userId : ℤ) (s : OrderSystem ι)
    (a : SubOrderAction ι) : Prop :=
  match s.state a.caller with
  | .paying buying => buying.userId = userId →
      cfg.priceQuota buying.plan.priceAmount < 2 ^ 63 ∧
      (0 < cfg.priceQuota buying.plan.priceAmount → ∀ user ∈ s.users.view a.caller userId,
        cfg.priceQuota buying.plan.priceAmount ≤ user.quota)
  | .saved _ (some sub) => sub.userId = userId → a.fault = none → ∀ plan ∈ cfg.plans sub.planId,
      0 < plan.maxPurchasePerUser →
        (countSubscriptions userId sub.planId s : ℤ) < plan.maxPurchasePerUser
  | _ => True

/-- The same, computed. -/
def SubOrderAction.withinLimits (cfg : OrderConfig) (userId : ℤ) (s : OrderSystem ι)
    (a : SubOrderAction ι) : Bool :=
  match s.state a.caller with
  | .paying buying => decide (buying.userId = userId →
      cfg.priceQuota buying.plan.priceAmount < 2 ^ 63 ∧
      (0 < cfg.priceQuota buying.plan.priceAmount → ∀ user ∈ s.users.view a.caller userId,
        cfg.priceQuota buying.plan.priceAmount ≤ user.quota))
  | .saved _ (some sub) => decide (sub.userId = userId → a.fault = none →
      ∀ plan ∈ cfg.plans sub.planId, 0 < plan.maxPurchasePerUser →
        (countSubscriptions userId sub.planId s : ℤ) < plan.maxPurchasePerUser)
  | _ => true

theorem withinLimits_iff (cfg : OrderConfig) (userId : ℤ) (s : OrderSystem ι)
    (a : SubOrderAction ι) :
    a.withinLimits cfg userId s = true ↔ a.WithinLimits cfg userId s := by
  unfold SubOrderAction.withinLimits SubOrderAction.WithinLimits
  cases s.state a.caller with
  | paying buying => exact decide_eq_true_iff
  | saved order sub =>
    cases sub with
    | none => exact iff_of_true rfl trivial
    | some sub => exact decide_eq_true_iff
  | _ => exact iff_of_true rfl trivial

instance (cfg : OrderConfig) (userId : ℤ) (s : OrderSystem ι) (a : SubOrderAction ι) :
    Decidable (a.WithinLimits cfg userId s) :=
  decidable_of_iff _ (withinLimits_iff cfg userId s a)

/-- The price is taken from a quota that covers it. -/
theorem PurchaseInv.pay (h : PurchaseInv cfg calls userId before s) {i : ι} {buying : Buying}
    {state : OrderState} (hstate : s.state i = .paying buying)
    (hformed : Formed cfg calls (s.changeUser i buying.userId
      (fun user => { user with quota := user.quota - buying.requiredQuota }) state))
    (hfree : s.users.Free i buying.userId) (hafter : state.buyer = some buying.userId)
    (hcharge : buying.userId = userId → buying.requiredQuota = (calls i).charge cfg ∧
      ∀ user ∈ s.users.view i userId, buying.requiredQuota ≤ user.quota) :
    PurchaseInv cfg calls userId before (s.changeUser i buying.userId
      (fun user => { user with quota := user.quota - buying.requiredQuota }) state) := by
  have hnone : (s.state i).buyer = none := by
    rw [hstate]
    rfl
  refine h.of_write hformed hfree (by rw [hstate]; rfl) (by rw [hnone]; nofun) hafter ?_
  intro hu
  obtain ⟨hprice, hcovers⟩ := hcharge hu
  have hview : s.users.view i userId = s.users.committed userId := by
    refine h.view_of_not_buyer ?_
    rw [hnone]
    nofun
  refine ⟨?_, ?_⟩
  · rw [hview, OrderSystem.quota, ← hprice]
    cases s.users.committed userId with
    | none => rfl
    | some user => rfl
  · intro user' huser'
    obtain ⟨user, huser, rfl⟩ := Option.mem_map.1 huser'
    have hle := hcovers user huser
    show 0 ≤ user.quota - buying.requiredQuota
    omega

theorem PurchaseInv.writeGroup (h : PurchaseInv cfg calls userId before s) {i : ι}
    {buying : Buying} {endUnix now : ℤ} {prevGroup group : String} {state : OrderState}
    (hstate : s.state i = .upgrading buying endUnix now prevGroup)
    (hformed : Formed cfg calls (s.changeUser i buying.userId
      (fun user => { user with group := group }) state))
    (hfree : s.users.Free i buying.userId) (hafter : state.buyer = some buying.userId) :
    PurchaseInv cfg calls userId before (s.changeUser i buying.userId
      (fun user => { user with group := group }) state) := by
  have hbuyer : (s.state i).buyer = some buying.userId := by
    rw [hstate]
    rfl
  have hfor : buying.For cfg (calls i) := by
    have := h.formed i
    rwa [hstate] at this
  refine h.of_write hformed hfree (by rw [hstate]; rfl) ?_ hafter ?_
  · intro u hu
    rw [hbuyer] at hu
    exact (Option.some.inj hu).symm
  · intro hu
    rw [hu] at hbuyer
    obtain ⟨hquota, hpos⟩ := h.view_of_buyer hbuyer hfor.charge_nonneg
    refine ⟨?_, ?_⟩
    · rw [← hquota, Option.map_map]
      rfl
    · intro user' huser'
      obtain ⟨user, huser, rfl⟩ := Option.mem_map.1 huser'
      exact hpos user huser

theorem PurchaseInv.move {a : SubOrderAction ι} {s' : OrderSystem ι}
    (h : PurchaseInv cfg calls userId before s) (hmove : OrderMove cfg calls s a s')
    (ha : a.WithinLimits cfg userId s) : PurchaseInv cfg calls userId before s' := by
  have hformed : Formed cfg calls s' := h.formed.move hmove
  have hi : (s.state a.caller).For cfg (calls a.caller) := h.formed a.caller
  cases hmove with
  | stay => exact h
  | abort err hopen => exact h.abort hformed hopen
  | refuse result hstate =>
    exact h.of_update hformed rfl rfl rfl (by rw [hstate]; rfl) (.inl (by rw [hstate]; rfl))
  | complete buying hstate hfor hcall =>
    refine h.of_update hformed rfl rfl rfl (by rw [hstate]; rfl) (.inr ⟨?_, fun _ => ?_⟩)
    · rw [hstate]
      rfl
    · rw [charge_of_not_purchase hcall]
  | expire order hstate hcall | purchase buying hstate hfor hcall =>
    exact h.of_update hformed rfl rfl rfl (by rw [hstate]; rfl) (.inl (by rw [hstate]; rfl))
  | free buying hstate hquota =>
    rw [hstate] at hi
    rw [SubOrderAction.WithinLimits, hstate] at ha
    refine h.of_update hformed rfl rfl rfl (by rw [hstate]; rfl) (.inr ⟨?_, fun hu => ?_⟩)
    · rw [hstate]
      rfl
    · rw [(hi.1.charge_eq hi.2 (ha (Option.some.inj hu)).1).1]
      exact hquota
  | pay buying hstate hquota hfree =>
    rw [hstate] at hi
    rw [SubOrderAction.WithinLimits, hstate] at ha
    refine h.pay hstate hformed hfree rfl fun hu => ?_
    obtain ⟨hfits, hcovers⟩ := ha hu
    obtain ⟨hcharge, hprice⟩ := hi.1.charge_eq hi.2 hfits
    refine ⟨hcharge.symm, fun user huser => ?_⟩
    rw [hprice] at hquota ⊢
    exact hcovers hquota user huser
  | count buying endUnix hstate | readGroup buying endUnix now prevGroup hstate =>
    exact h.of_update hformed rfl rfl rfl (by rw [hstate]; rfl) (.inl (by rw [hstate]; rfl))
  | keepGroup buying endUnix now prevGroup hstate =>
    rcases hstate with hstate | hstate
    · exact h.of_update hformed rfl rfl rfl (by rw [hstate]; rfl) (.inl (by rw [hstate]; rfl))
    · exact h.of_update hformed rfl rfl rfl (by rw [hstate]; rfl) (.inl (by rw [hstate]; rfl))
  | writeGroup buying endUnix now prevGroup hstate hfree huser =>
    exact h.writeGroup hstate hformed hfree rfl
  | insert buying sub hstate =>
    rw [hstate] at hi
    refine h.of_update hformed rfl rfl rfl (by rw [hstate]; rfl) (.inl ?_)
    rw [hstate, buyer_afterInsert]
    exact congrArg some hi.2.1
  | find buying order sub topUp hstate
  | record order sub topUp tradeNo payload method written hstate
  | order buying sub hstate hfree hview =>
    exact h.of_update hformed rfl rfl rfl (by rw [hstate]; rfl) (.inl (by rw [hstate]; rfl))
  | save order sub hstate hfree =>
    refine h.of_update hformed rfl rfl rfl (by rw [hstate]; rfl) (.inl ?_)
    rw [hstate]
    cases sub with
    | none => rfl
    | some sub => rfl
  | commit order sub hstate hfault =>
    refine h.commit hformed hstate fun bought hbought hu plan hplan hpos => ?_
    rw [hbought] at hstate
    rw [SubOrderAction.WithinLimits, hstate] at ha
    exact ha hu hfault plan hplan hpos

omit [DecidableEq ι] in
theorem purchaseInv_init {orders : String → Option SubscriptionOrder}
    {topUps : String → Option OrderTopUp} {users : ℤ → Option OrderUser}
    {subs : List UserSubscription} (hquota : ∀ user ∈ users userId, 0 ≤ user.quota)
    (hlimit : ∀ plan, cfg.plans plan.id = some plan → 0 < plan.maxPurchasePerUser →
      ((subs.filter fun sub => sub.userId = userId ∧ sub.planId = plan.id).length : ℤ) ≤
        plan.maxPurchasePerUser) :
    PurchaseInv cfg calls userId ((users userId).map (·.quota))
      (OrderSystem.init orders topUps users subs) where
  formed _ := trivial
  owned i v h := by cases h
  written i h := by cases h
  ledger := by
    have hspent : spent cfg userId (OrderSystem.init orders topUps users subs : OrderSystem ι) =
        0 := by
      refine List.sum_eq_zero fun x hx => ?_
      obtain ⟨c, hc, rfl⟩ := List.mem_map.1 hx
      obtain ⟨sub, -, rfl⟩ := List.mem_map.1 (List.mem_filter.1 hc).1
      simp [paidFor]
    rw [hspent]
    simp only [sub_zero, Option.map_id']
    rfl
  nonneg quota hq := by
    obtain ⟨user, huser, rfl⟩ := Option.mem_map.1 hq
    exact hquota user huser
  creators c hc i hi := by
    obtain ⟨sub, -, rfl⟩ := List.mem_map.1 hc
    cases hi
  limit plan hplan hpos := by
    have hle := hlimit plan hplan hpos
    rw [countSubscriptions, OrderSystem.init, List.filter_map, List.length_map]
    exact hle

/-- **A user buys within limits**, for any calls and any order of their statements, in every run
in which the checks of the calls still hold when they act on them: the quota does not become
negative, it is what the user had less the price of every subscription bought with balance, a call
that fails has created none, and there are no more subscriptions to a plan than it allows. -/
theorem purchases_within_limits (cfg : OrderConfig) (calls : ι → OrderCall)
    (orders : String → Option SubscriptionOrder) (topUps : String → Option OrderTopUp)
    (users : ℤ → Option OrderUser) (subs : List UserSubscription)
    (actions : List (SubOrderAction ι)) (userId : ℤ)
    (hquota : ∀ user ∈ users userId, 0 ≤ user.quota)
    (hlimit : ∀ plan, cfg.plans plan.id = some plan → 0 < plan.maxPurchasePerUser →
      ((subs.filter fun sub => sub.userId = userId ∧ sub.planId = plan.id).length : ℤ) ≤
        plan.maxPurchasePerUser)
    (hchecks : Transition.Along (subOrderStep cfg calls) (fun s a => a.WithinLimits cfg userId s)
      (.init orders topUps users subs) actions) :
    let s := Transition.run (subOrderStep cfg calls) (.init orders topUps users subs) actions
    (∀ quota ∈ s.quota userId, 0 ≤ quota) ∧
      s.quota userId = (users userId).map (fun user => user.quota - spent cfg userId s) ∧
      (∀ i err, s.state i = .done (.error err) → ∀ c ∈ s.subs, c.1 ≠ some i) ∧
      ∀ plan, cfg.plans plan.id = some plan → 0 < plan.maxPurchasePerUser →
        (countSubscriptions userId plan.id s : ℤ) ≤ plan.maxPurchasePerUser := by
  intro s
  have hstep : ∀ (s : OrderSystem ι) (a : SubOrderAction ι),
      PurchaseInv cfg calls userId ((users userId).map (·.quota)) s → a.WithinLimits cfg userId s →
      PurchaseInv cfg calls userId ((users userId).map (·.quota)) (subOrderStep cfg calls s a) := by
    intro s a hs ha
    exact hs.move (orderStep_move a) ha
  have hinv : PurchaseInv cfg calls userId ((users userId).map (·.quota)) s :=
    Transition.run_invariant hstep (purchaseInv_init hquota hlimit) hchecks
  refine ⟨hinv.nonneg, ?_, ?_, hinv.limit⟩
  · rw [hinv.ledger, Option.map_map]
    rfl
  · intro i err hfailed c hc hi
    rw [hinv.creators c hc i hi] at hfailed
    cases hfailed

end Limits

/-- A plan that costs ten units of money and can be bought `maxPurchasePerUser` times. -/
def limitedPlan (maxPurchasePerUser : ℤ) : PricedPlan where
  id := 1
  title := "limited"
  durationUnit := "day"
  durationValue := 30
  customSeconds := 0
  maxPurchasePerUser := maxPurchasePerUser
  upgradeGroup := ""
  totalAmount := 1000
  quotaResetPeriod := "never"
  quotaResetCustomSeconds := 0
  priceAmount := 10
  enabled := true

/-- A user buys a plan twice with balance while the payment of an order for it is reported. -/
def purchases : Fin 3 → OrderCall
  | 0 => .purchase 7 1 "SUBBALUSR7NOa"
  | 1 => .purchase 7 1 "SUBBALUSR7NOb"
  | 2 => .complete "sub-1" "" "epay" ""

/-- The user's quota is what the plan costs, and there is a pending order. -/
def oneBalance : OrderSystem (Fin 3) :=
  .init
    (fun tradeNo =>
      if tradeNo = "sub-1" then
        some ⟨7, 1, 10, "alipay", "epay", topUpStatusPending, 100, 0, ""⟩
      else none)
    (fun _ => none) (fun id => if id = 7 then some ⟨5000000, "default"⟩ else none) []

/-- The next statements of these calls, none of which fails. -/
def purchaseStatements (callers : List (Fin 3)) : List (SubOrderAction (Fin 3)) :=
  callers.map fun i => ⟨i, 200, none⟩

/-- One purchase after the other: the second finds too little quota. -/
theorem purchases_within_limits_later :
    let s := Transition.run (subOrderStep (.ofPlan (limitedPlan 0) 500000 utc) purchases) oneBalance
      (purchaseStatements [0, 0, 0, 0, 0, 0, 0, 1])
    (∀ quota ∈ s.quota 7, 0 ≤ quota) ∧
      s.quota 7 = (some (OrderUser.mk 5000000 "default")).map
        (fun user => user.quota - spent (.ofPlan (limitedPlan 0) 500000 utc) 7 s) ∧
      (∀ i err, s.state i = .done (.error err) → ∀ c ∈ s.subs, c.1 ≠ some i) ∧
      ∀ plan, (OrderConfig.ofPlan (limitedPlan 0) 500000 utc).plans plan.id = some plan →
        0 < plan.maxPurchasePerUser →
          (countSubscriptions 7 plan.id s : ℤ) ≤ plan.maxPurchasePerUser := by
  refine purchases_within_limits (.ofPlan (limitedPlan 0) 500000 utc) purchases _ _ _ _ _ 7 ?_ ?_ ?_
  · intro user huser
    cases huser
    decide
  · intro plan hplan hpos
    simp only [OrderConfig.ofPlan] at hplan
    split at hplan
    · cases hplan
      cases hpos
    · cases hplan
  · decide +kernel

/-- **A quota becomes negative** when two purchases have read it before one of them has taken its
price, **and the limit of one is exceeded** when a purchase commits after an order has counted. -/
theorem purchases_exceed_limits :
    (Transition.run (subOrderStep (.ofPlan (limitedPlan 0) 500000 utc) purchases) oneBalance
      (purchaseStatements [0, 1, 0, 0, 0, 0, 0, 0, 1, 1, 1, 1, 1, 1])).quota 7 =
        some (-5000000) ∧
    countSubscriptions 7 1 (Transition.run
      (subOrderStep (.ofPlan (limitedPlan 1) 500000 utc) purchases) oneBalance
      (purchaseStatements [2, 2, 0, 0, 0, 0, 0, 0, 0, 2, 2, 2, 2, 2, 2])) = 2 := by
  decide +kernel

end NewApi
