/-
**A subscription order is fulfilled at most once.**

A call that completes an order reads it as pending, and writes it as successful after it has
created the subscription; a call that expires an order does the same with less in between.  The
read takes no lock, so another call can publish the order in the meantime.  The unique trade number
of the top-up stops some of these calls and not others: a call that looks for the top-up after the
first one has committed finds it, and goes on.

Main definitions:

* `NewApi.createdFor`, `NewApi.OrderSystem.status` — what has been created for an order, and its
  status;
* `NewApi.SubOrderAction.StillPending` — an order that is published is still pending;
* `NewApi.SubOrderInv` — what holds of the orders and the calls as long as that is so.

Main results:

* `NewApi.order_fulfilled_once` — **an order is fulfilled at most once, and a status that is not
  pending stays**, in every run in which an order that is published is still pending;
* `NewApi.order_fulfilled_twice` — an order is fulfilled twice, and another expires after it has
  been fulfilled, in runs in which it is not.
-/

import NewApi.SubscriptionOrders

set_option autoImplicit false

namespace NewApi

open ReadCommitted

section Once

variable {ι : Type*} [DecidableEq ι] {cfg : OrderConfig} {calls : ι → OrderCall}
  {s : OrderSystem ι}

/-! ### The orders -/

/-- A call that completes an order. -/
def OrderCall.completes (tradeNo : String) : OrderCall → Bool
  | .complete tradeNo' _ _ _ => tradeNo' == tradeNo
  | _ => false

/-- The subscriptions that have been created for an order. -/
def createdFor (calls : ι → OrderCall) (tradeNo : String) (s : OrderSystem ι) :
    List (Option ι × UserSubscription) :=
  s.subs.filter fun c => c.1.any fun i => (calls i).completes tradeNo

/-- The status of an order. -/
def OrderSystem.status (s : OrderSystem ι) (tradeNo : String) : Option String :=
  (s.orders.committed tradeNo).map (·.status)

/-- What holds of the orders and the calls in every run in which an order that is written is still
pending. -/
structure SubOrderInv (cfg : OrderConfig) (calls : ι → OrderCall) (s : OrderSystem ι) : Prop where
  formed : Formed cfg calls s
  /-- A call that has written its order has the row. -/
  written : ∀ i order sub, s.state i = .saved order sub →
    s.orders.pending (calls i).tradeNo = some (i, some order)
  /-- Only such calls have rows. -/
  owned : ∀ k i v, s.orders.pending k = some (i, v) →
    k = (calls i).tradeNo ∧ ∃ order sub, s.state i = .saved order sub
  /-- The order a purchase has written is not there for anybody else. -/
  fresh : ∀ i order sub, s.state i = .saved order sub → (calls i).isPurchase = true →
    s.orders.committed (calls i).tradeNo = none
  /-- An order is fulfilled once, and is then successful. -/
  once : ∀ k, (createdFor calls k s).length ≤ 1 ∧
    (createdFor calls k s ≠ [] → s.status k = some topUpStatusSuccess)

/-- A call has written its order and not yet committed it. -/
def OrderState.isSaved : OrderState → Bool
  | .saved _ _ => true
  | _ => false

theorem saved_update_of_ne_saved {i j : ι} {state : OrderState} {order : SubscriptionOrder}
    {sub : Option UserSubscription} (hstate : state.isSaved = false)
    (h : Function.update s.state i state j = .saved order sub) :
    j ≠ i ∧ s.state j = .saved order sub := by
  by_cases hj : j = i
  · rw [hj, Function.update_self] at h
    rw [h] at hstate
    cases hstate
  · rw [Function.update_of_ne hj] at h
    exact ⟨hj, h⟩

/-- The state of one call changes, and it has not written its order before or after. -/
theorem SubOrderInv.of_update {s' : OrderSystem ι} {i : ι} {state : OrderState}
    (h : SubOrderInv cfg calls s) (hformed : Formed cfg calls s') (horders : s'.orders = s.orders)
    (hsubs : s'.subs = s.subs) (hstate : s'.state = Function.update s.state i state)
    (hbefore : (s.state i).isSaved = false) (hafter : state.isSaved = false) :
    SubOrderInv cfg calls s' := by
  refine ⟨hformed, ?_, ?_, ?_, ?_⟩
  · intro j order sub hj
    rw [hstate] at hj
    rw [horders]
    exact h.written j order sub (saved_update_of_ne_saved hafter hj).2
  · intro k j v hp
    rw [horders] at hp
    obtain ⟨hk, order, sub, hj⟩ := h.owned k j v hp
    have hne : j ≠ i := by
      rintro rfl
      rw [hj] at hbefore
      cases hbefore
    exact ⟨hk, order, sub, by rw [hstate, Function.update_of_ne hne, hj]⟩
  · intro j order sub hj hpurchase
    rw [hstate] at hj
    rw [horders]
    exact h.fresh j order sub (saved_update_of_ne_saved hafter hj).2 hpurchase
  · intro k
    rw [createdFor, hsubs, OrderSystem.status, horders]
    exact h.once k

/-- A commit changes no order but the one of its call. -/
theorem SubOrderInv.view_of_ne (h : SubOrderInv cfg calls s) {i : ι} {k : String}
    (hk : k ≠ (calls i).tradeNo) : s.orders.view i k = s.orders.committed k := by
  refine Database.view_of_not_own fun v hp => hk (h.owned k i v hp).1

/-- The transaction of the call `i` ends, and publishes its own order if anything. -/
theorem SubOrderInv.of_end {s' : OrderSystem ι} {i : ι} {result : Except String Unit}
    (h : SubOrderInv cfg calls s) (hformed : Formed cfg calls s')
    (hpending : s'.orders.pending = (s.orders.commit i).pending)
    (hcommitted : ∀ k, k ≠ (calls i).tradeNo → s'.orders.committed k = s.orders.committed k)
    (hstate : s'.state = Function.update s.state i (.done result))
    (hown : (∀ j order sub, j ≠ i → (calls j).tradeNo = (calls i).tradeNo →
      s.state j ≠ .saved order sub) ∨ s'.orders.committed = s.orders.committed)
    (honce : ∀ k, (createdFor calls k s').length ≤ 1 ∧
      (createdFor calls k s' ≠ [] → s'.status k = some topUpStatusSuccess)) :
    SubOrderInv cfg calls s' := by
  have hdone : (OrderState.done result).isSaved = false := rfl
  refine ⟨hformed, ?_, ?_, ?_, honce⟩
  · intro j order sub hj
    rw [hstate] at hj
    obtain ⟨hne, hj⟩ := saved_update_of_ne_saved hdone hj
    rw [hpending]
    exact Database.pending_commit_eq_some.2 ⟨h.written j order sub hj, hne⟩
  · intro k j v hp
    rw [hpending] at hp
    obtain ⟨hp, hne⟩ := Database.pending_commit_eq_some.1 hp
    obtain ⟨hk, order, sub, hj⟩ := h.owned k j v hp
    exact ⟨hk, order, sub, by rw [hstate, Function.update_of_ne hne, hj]⟩
  · intro j order sub hj hpurchase
    rw [hstate] at hj
    obtain ⟨hne, hj⟩ := saved_update_of_ne_saved hdone hj
    have hnone : s.orders.committed (calls j).tradeNo = none := h.fresh j order sub hj hpurchase
    by_cases hk : (calls j).tradeNo = (calls i).tradeNo
    · rcases hown with hown | hsame
      · exact absurd hj (hown j order sub hne hk)
      · rwa [hsame]
    · rwa [hcommitted _ hk]

omit [DecidableEq ι] in
/-- Two calls do not have the row of one trade number at a time. -/
theorem SubOrderInv.saved_alone (h : SubOrderInv cfg calls s) {i j : ι}
    {order order' : SubscriptionOrder} {sub sub' : Option UserSubscription}
    (hi : s.state i = .saved order sub) (hj : s.state j = .saved order' sub')
    (hk : (calls j).tradeNo = (calls i).tradeNo) : j = i := by
  have hpi := h.written i order sub hi
  have hpj := h.written j order' sub' hj
  rw [hk, hpi] at hpj
  cases hpj
  rfl

/-- A call writes its order into a row that is free for it. -/
theorem SubOrderInv.saveOrder {i : ι} {order : SubscriptionOrder} {sub : Option UserSubscription}
    (h : SubOrderInv cfg calls s)
    (hformed : Formed cfg calls (s.saveOrder i (calls i).tradeNo order sub))
    (hfree : s.orders.Free i (calls i).tradeNo)
    (hfresh : (calls i).isPurchase = true → s.orders.committed (calls i).tradeNo = none) :
    SubOrderInv cfg calls (s.saveOrder i (calls i).tradeNo order sub) := by
  have hstate : (s.saveOrder i (calls i).tradeNo order sub).state =
      Function.update s.state i (.saved order sub) := rfl
  have horders : (s.saveOrder i (calls i).tradeNo order sub).orders =
      s.orders.write i (calls i).tradeNo fun _ => some order := rfl
  refine ⟨hformed, ?_, ?_, ?_, h.once⟩
  · intro j order' sub' hj
    rw [hstate] at hj
    rw [horders]
    by_cases hne : j = i
    · subst hne
      rw [Function.update_self] at hj
      cases hj
      exact Database.pending_write_self ..
    · rw [Function.update_of_ne hne] at hj
      have hp := h.written j order' sub' hj
      have hk : (calls j).tradeNo ≠ (calls i).tradeNo := by
        -- the row of that trade number was free for `i`, so `j` does not have it
        intro hk
        rw [hk] at hp
        exact hne (hfree _ hp)
      rwa [Database.pending_write_of_ne _ _ hk]
  · intro k j v hp
    rw [horders] at hp
    by_cases hk : k = (calls i).tradeNo
    · rw [hk, Database.pending_write_self] at hp
      cases hp
      exact ⟨hk, order, sub, by rw [hstate, Function.update_self]⟩
    · rw [Database.pending_write_of_ne _ _ hk] at hp
      obtain ⟨hkj, order', sub', hj⟩ := h.owned k j v hp
      have hne : j ≠ i := by
        rintro rfl
        exact hk hkj
      exact ⟨hkj, order', sub', by rw [hstate, Function.update_of_ne hne, hj]⟩
  · intro j order' sub' hj hpurchase
    rw [hstate] at hj
    rw [horders, Database.committed_write]
    by_cases hne : j = i
    · subst hne
      exact hfresh hpurchase
    · rw [Function.update_of_ne hne] at hj
      exact h.fresh j order' sub' hj hpurchase

/-! ### Commits -/

/-- An order that a call publishes is still pending, unless the call is the purchase that has
inserted it. -/
def SubOrderAction.StillPending (calls : ι → OrderCall) (s : OrderSystem ι) (a : SubOrderAction ι) :
    Prop :=
  match s.state a.caller with
  | .saved _ _ => a.fault = none → (calls a.caller).isPurchase = false →
      s.status (calls a.caller).tradeNo = some topUpStatusPending
  | _ => True

instance (calls : ι → OrderCall) (s : OrderSystem ι) (a : SubOrderAction ι) :
    Decidable (a.StillPending calls s) := by
  unfold SubOrderAction.StillPending
  split <;> infer_instance

theorem createdFor_commit (calls : ι → OrderCall) (i : ι) (sub : Option UserSubscription)
    (k : String) : createdFor calls k (s.commit i sub) = createdFor calls k s ++
      if (calls i).completes k then (sub.map fun sub => (some i, sub)).toList else [] := by
  simp only [createdFor, OrderSystem.commit, List.filter_append]
  congr 1
  cases sub with
  | none => simp
  | some sub =>
    simp only [Option.map_some, Option.toList_some, List.filter_cons, Option.any_some,
      List.filter_nil]

theorem tradeNo_of_completes {call : OrderCall} {k : String} (h : call.completes k = true) :
    call.tradeNo = k ∧ call.isPurchase = false := by
  cases call with
  | complete tradeNo payload provider method =>
    rw [OrderCall.completes, beq_iff_eq] at h
    exact ⟨h, rfl⟩
  | expire tradeNo provider => cases h
  | purchase userId planId tradeNo => cases h

/-- The status of an order after the commit of a call that has written it. -/
theorem SubOrderInv.status_commit (h : SubOrderInv cfg calls s) {i : ι} {order : SubscriptionOrder}
    {sub : Option UserSubscription} (hstate : s.state i = .saved order sub) :
    (s.commit i sub).status (calls i).tradeNo = some order.status := by
  have hown : (s.commit i sub).orders.committed (calls i).tradeNo = some order :=
    Database.view_of_own (h.written i order sub hstate)
  rw [OrderSystem.status, hown]
  rfl

theorem SubOrderInv.status_commit_of_ne (h : SubOrderInv cfg calls s) {i : ι}
    {sub : Option UserSubscription} {k : String} (hk : k ≠ (calls i).tradeNo) :
    (s.commit i sub).status k = s.status k := by
  have hview : (s.commit i sub).orders.committed k = s.orders.committed k := h.view_of_ne hk
  rw [OrderSystem.status, hview, OrderSystem.status]

theorem SubOrderInv.commit (h : SubOrderInv cfg calls s) {i : ι} {order : SubscriptionOrder}
    {sub : Option UserSubscription} (hformed : Formed cfg calls (s.commit i sub))
    (hstate : s.state i = .saved order sub)
    (hpending : (calls i).isPurchase = false →
      s.status (calls i).tradeNo = some topUpStatusPending) :
    SubOrderInv cfg calls (s.commit i sub) := by
  refine h.of_end hformed rfl (fun k hk => h.view_of_ne hk) rfl (.inl ?_) fun k => ?_
  · intro j order' sub' hne hk hj
    exact hne (h.saved_alone hstate hj hk)
  · rw [createdFor_commit]
    by_cases hk : k = (calls i).tradeNo
    · subst hk
      have hnone : createdFor calls (calls i).tradeNo s = [] := by
        by_contra hne
        have hsuccess := (h.once _).2 hne
        -- only a purchase publishes an order that is not pending, and its order is not there yet
        cases hpurchase : (calls i).isPurchase with
        | false =>
          rw [hpending hpurchase] at hsuccess
          exact absurd (Option.some.inj hsuccess) pending_ne_success
        | true =>
          rw [OrderSystem.status, h.fresh i order sub hstate hpurchase] at hsuccess
          cases hsuccess
      rw [hnone, List.nil_append, h.status_commit hstate]
      have hwritten : Written cfg (calls i) order sub := by
        have hfor := h.formed i
        rwa [hstate] at hfor
      cases sub with
      | none => exact ⟨by split <;> simp, by simp⟩
      | some sub => exact ⟨by split <;> simp, fun _ => congrArg some hwritten.1⟩
    · have hcompletes : (calls i).completes k = false := by
        rw [Bool.eq_false_iff]
        intro hc
        exact hk (tradeNo_of_completes hc).1.symm
      rw [hcompletes, if_neg Bool.false_ne_true, List.append_nil, h.status_commit_of_ne hk]
      exact h.once k

theorem SubOrderInv.abort (h : SubOrderInv cfg calls s) {i : ι} {err : String}
    (hformed : Formed cfg calls (s.abort i err)) : SubOrderInv cfg calls (s.abort i err) :=
  h.of_end hformed rfl (fun _ _ => rfl) rfl (.inr rfl) h.once

theorem SubOrderInv.move {a : SubOrderAction ι} {s' : OrderSystem ι} (h : SubOrderInv cfg calls s)
    (hmove : OrderMove cfg calls s a s') (ha : a.StillPending calls s) :
    SubOrderInv cfg calls s' := by
  have hformed : Formed cfg calls s' := h.formed.move hmove
  cases hmove with
  | stay => exact h
  | abort err hopen => exact h.abort hformed
  | refuse result hstate => exact h.of_update hformed rfl rfl rfl (by rw [hstate]; rfl) rfl
  | complete buying hstate hfor hcall =>
    exact h.of_update hformed rfl rfl rfl (by rw [hstate]; rfl) rfl
  | expire order hstate hcall => exact h.of_update hformed rfl rfl rfl (by rw [hstate]; rfl) rfl
  | purchase buying hstate hfor hcall =>
    exact h.of_update hformed rfl rfl rfl (by rw [hstate]; rfl) rfl
  | free buying hstate hquota => exact h.of_update hformed rfl rfl rfl (by rw [hstate]; rfl) rfl
  | pay buying hstate hquota hfree
  | count buying endUnix hstate
  | readGroup buying endUnix now prevGroup hstate =>
    exact h.of_update hformed rfl rfl rfl (by rw [hstate]; rfl) rfl
  | keepGroup buying endUnix now prevGroup hstate =>
    refine h.of_update hformed rfl rfl rfl ?_ rfl
    rcases hstate with hstate | hstate
    · rw [hstate]
      rfl
    · rw [hstate]
      rfl
  | writeGroup buying endUnix now prevGroup hstate hfree huser =>
    exact h.of_update hformed rfl rfl rfl (by rw [hstate]; rfl) rfl
  | insert buying sub hstate =>
    refine h.of_update hformed rfl rfl rfl (by rw [hstate]; rfl) ?_
    unfold Buying.afterInsert
    cases buying.order with
    | some order => rfl
    | none => rfl
  | find buying order sub topUp hstate
  | record order sub topUp tradeNo payload method written hstate =>
    exact h.of_update hformed rfl rfl rfl (by rw [hstate]; rfl) rfl
  | order buying sub hstate hfree hview =>
    refine h.saveOrder hformed hfree fun _ => ?_
    rwa [Database.view_of_not_own] at hview
    intro v hp
    obtain ⟨-, order, sub', hsaved⟩ := h.owned _ _ v hp
    rw [hstate] at hsaved
    cases hsaved
  | save order sub hstate hfree =>
    refine h.saveOrder hformed hfree fun hpurchase => ?_
    have hfor := h.formed a.caller
    rw [hstate] at hfor
    rw [hfor.2] at hpurchase
    cases hpurchase
  | commit order sub hstate hfault =>
    rw [SubOrderAction.StillPending, hstate] at ha
    exact h.commit hformed hstate (ha hfault)

/-- **A status that is not pending is kept** by every statement that publishes only orders that
are still pending. -/
theorem SubOrderInv.status_move {a : SubOrderAction ι} {s' : OrderSystem ι} {k status : String}
    (h : SubOrderInv cfg calls s) (hmove : OrderMove cfg calls s a s')
    (ha : a.StillPending calls s) (hk : s.status k = some status)
    (hstatus : status ≠ topUpStatusPending) : s'.status k = some status := by
  cases hmove with
  | commit order sub hstate hfault =>
    by_cases hk' : k = (calls a.caller).tradeNo
    · subst hk'
      rw [SubOrderAction.StillPending, hstate] at ha
      cases hpurchase : (calls a.caller).isPurchase with
      | false =>
        rw [ha hfault hpurchase] at hk
        exact absurd (Option.some.inj hk).symm hstatus
      | true =>
        rw [OrderSystem.status, h.fresh _ order sub hstate hpurchase] at hk
        cases hk
    · rwa [h.status_commit_of_ne hk']
  | _ => exact hk

/-! ### Runs -/

omit [DecidableEq ι] in
theorem orderInv_init (orders : String → Option SubscriptionOrder)
    (topUps : String → Option OrderTopUp) (users : ℤ → Option OrderUser)
    (subs : List UserSubscription) :
    SubOrderInv cfg calls (OrderSystem.init orders topUps users subs) where
  formed _ := trivial
  written i order sub h := by cases h
  owned k i v h := by cases h
  fresh i order sub h := by cases h
  once k := by
    have hnil : createdFor calls k (OrderSystem.init orders topUps users subs) = [] := by
      simp [createdFor, OrderSystem.init]
    rw [hnil]
    exact ⟨Nat.zero_le 1, fun h => absurd rfl h⟩

/-- **An order is fulfilled at most once**, for any calls and any order of their statements, in
every run in which an order that is published is still pending: one subscription is created for it
at most, the order is successful once there is one, and a status other than pending stays. -/
theorem order_fulfilled_once (cfg : OrderConfig) (calls : ι → OrderCall)
    (orders : String → Option SubscriptionOrder) (topUps : String → Option OrderTopUp)
    (users : ℤ → Option OrderUser) (subs : List UserSubscription)
    (actions : List (SubOrderAction ι))
    (hpending : Transition.Along (subOrderStep cfg calls) (fun s a => a.StillPending calls s)
      (.init orders topUps users subs) actions) (k : String) :
    let states := fun n => Transition.run (subOrderStep cfg calls) (.init orders topUps users subs)
      (actions.take n)
    (∀ n, (createdFor calls k (states n)).length ≤ 1) ∧
      (∀ n, createdFor calls k (states n) ≠ [] →
        (states n).status k = some topUpStatusSuccess) ∧
      ∀ n m status, n ≤ m → (states n).status k = some status → status ≠ topUpStatusPending →
        (states m).status k = some status := by
  intro states
  have hstep : ∀ (s : OrderSystem ι) (a : SubOrderAction ι), SubOrderInv cfg calls s →
      a.StillPending calls s → SubOrderInv cfg calls (subOrderStep cfg calls s a) := by
    intro s a hs ha
    exact hs.move (orderStep_move a) ha
  have hinv : ∀ n, SubOrderInv cfg calls (states n) := by
    intro n
    refine Transition.run_invariant hstep (orderInv_init orders topUps users subs) ?_
    rw [← List.take_append_drop n actions, Transition.along_append] at hpending
    exact hpending.1
  refine ⟨fun n => ((hinv n).once k).1, fun n => ((hinv n).once k).2, ?_⟩
  intro n m status hnm hk hstatus
  -- the run to `m` goes on from the run to `n`, and every step of it keeps the status
  have htake : actions.take m = actions.take n ++ (actions.take m).drop n := by
    conv_lhs => rw [← List.take_append_drop n (actions.take m), List.take_take, min_eq_left hnm]
  have hrest : Transition.Along (subOrderStep cfg calls) (fun s a => a.StillPending calls s)
      (states n) ((actions.take m).drop n) := by
    rw [← List.take_append_drop m actions, Transition.along_append, htake,
      Transition.along_append] at hpending
    exact hpending.1.2
  have hboth : ∀ (s : OrderSystem ι) (a : SubOrderAction ι),
      SubOrderInv cfg calls s ∧ s.status k = some status → a.StillPending calls s →
      SubOrderInv cfg calls (subOrderStep cfg calls s a) ∧
        (subOrderStep cfg calls s a).status k = some status := by
    intro s a hs ha
    exact ⟨hstep s a hs.1 ha, hs.1.status_move (orderStep_move a) ha hs.2 hstatus⟩
  have hrun := (Transition.run_invariant hboth ⟨hinv n, hk⟩ hrest).2
  rw [← Transition.run_append, ← htake] at hrun
  exact hrun

end Once

/-- A plan for thirty days that costs ten units of money. -/
def monthlyPlan : PricedPlan where
  id := 1
  title := "monthly"
  durationUnit := "day"
  durationValue := 30
  customSeconds := 0
  maxPurchasePerUser := 0
  upgradeGroup := ""
  totalAmount := 1000
  quotaResetPeriod := "never"
  quotaResetCustomSeconds := 0
  priceAmount := 10
  enabled := true

/-- The gateway reports the payment of one order twice, and a third call expires it. -/
def callbacks : Fin 3 → OrderCall
  | 0 => .complete "sub-1" "" "epay" ""
  | 1 => .complete "sub-1" "" "epay" ""
  | 2 => .expire "sub-1" "epay"

/-- The order is pending, and the user has no subscription. -/
def pendingOrder : OrderSystem (Fin 3) :=
  .init
    (fun tradeNo =>
      if tradeNo = "sub-1" then
        some ⟨7, 1, 10, "alipay", "epay", topUpStatusPending, 100, 0, ""⟩
      else none)
    (fun _ => none) (fun id => if id = 7 then some ⟨0, "default"⟩ else none) []

/-- The next statements of these calls, none of which fails. -/
def callbackStatements (callers : List (Fin 3)) : List (SubOrderAction (Fin 3)) :=
  callers.map fun i => ⟨i, 200, none⟩

/-- The second report and the expiry read the order when the first report has committed. -/
theorem order_fulfilled_once_late :
    let states := fun n => Transition.run
      (subOrderStep (.ofPlan monthlyPlan 500000 utc) callbacks) pendingOrder
      ((callbackStatements [0, 0, 0, 0, 0, 0, 0, 0, 1, 2]).take n)
    (∀ n, (createdFor callbacks "sub-1" (states n)).length ≤ 1) ∧
      (∀ n, createdFor callbacks "sub-1" (states n) ≠ [] →
        (states n).status "sub-1" = some topUpStatusSuccess) ∧
      ∀ n m status, n ≤ m → (states n).status "sub-1" = some status →
        status ≠ topUpStatusPending → (states m).status "sub-1" = some status :=
  order_fulfilled_once (.ofPlan monthlyPlan 500000 utc) callbacks _ _ _ _ _ (by decide)
    "sub-1"

/-- **An order is fulfilled twice** when both reports have read it as pending and the second looks
for the top-up after the first has committed; **and an order that has been fulfilled expires** when
the call that expires it has read it before. -/
theorem order_fulfilled_twice :
    (createdFor callbacks "sub-1" (Transition.run
      (subOrderStep (.ofPlan monthlyPlan 500000 utc) callbacks) pendingOrder
      (callbackStatements [0, 1, 0, 0, 0, 0, 0, 0, 0, 1, 1, 1, 1, 1, 1, 1]))).length = 2 ∧
    (Transition.run (subOrderStep (.ofPlan monthlyPlan 500000 utc) callbacks) pendingOrder
      (callbackStatements [2, 0, 0, 0, 0, 0, 0, 0, 0])).status "sub-1" =
        some topUpStatusSuccess ∧
    (Transition.run (subOrderStep (.ofPlan monthlyPlan 500000 utc) callbacks) pendingOrder
      (callbackStatements [2, 0, 0, 0, 0, 0, 0, 0, 0, 2, 2])).status "sub-1" =
        some topUpStatusExpired := by
  decide

end NewApi
