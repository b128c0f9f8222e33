/-
**The life of a top-up order.**

The calls on top-up orders come in any order and any number of times: gateways repeat their
reports, an administrator completes an order by hand, an order expires.  Each call is one step.
What a step may do is said once (`OrderStep`): a final status stays, only the step that moves an
order from pending to success adds the order's quota to its user, and a gateway's call for another
gateway's order does nothing.  That step does add the quota if its call `Pays`: it is not one that
ends orders without a payment, the order's user has not been deleted, and the amount is not
negative where that is not checked.

Main definitions:

* `NewApi.TopUpCall`, `NewApi.topUpCall`, `NewApi.topUpStep` — the calls, each as one step;
* `NewApi.TopUpCall.Pays` — the calls that credit the order they complete;
* `NewApi.OrderStep` — what a step may do.

Main results:

* `NewApi.topUp_lifecycle` — **in every run every step keeps to it, and a final status stays to
  the end of the run**;
* `NewApi.success_uncredited` — calls that do not pay can let an order succeed uncredited;
* `NewApi.topUp_credited_once` — an order is credited once if it succeeds in a run of calls that
  pay, and never otherwise.
-/

import NewApi.Lib.Latch
import NewApi.TopUp

set_option autoImplicit false

namespace NewApi

/-! ### Calls as steps -/

/-- A call on a top-up order. -/
inductive TopUpCall where
  | recharge (tradeNo customerId : String) (now : ℤ)
  | rechargeCreem (tradeNo customerEmail : String) (now : ℤ)
  | rechargeWaffo (tradeNo : String) (now : ℤ)
  | rechargeWaffoPancake (tradeNo : String) (now : ℤ)
  | epayNotify (tradeNo type : String)
  | manualComplete (tradeNo : String) (now : ℤ)
  | updatePending (tradeNo expectedPaymentProvider targetStatus : String)
deriving DecidableEq, Repr

namespace TopUpCall

/-- The order a call is about. -/
def tradeNo : TopUpCall → String
  | recharge t _ _ => t
  | rechargeCreem t _ _ => t
  | rechargeWaffo t _ => t
  | rechargeWaffoPancake t _ => t
  | epayNotify t _ => t
  | manualComplete t _ => t
  | updatePending t _ _ => t

/-- The gateway a call comes from. -/
def gateway : TopUpCall → Option String
  | recharge _ _ _ => some paymentProviderStripe
  | rechargeCreem _ _ _ => some paymentProviderCreem
  | rechargeWaffo _ _ => some paymentProviderWaffo
  | rechargeWaffoPancake _ _ => some paymentProviderWaffoPancake
  | epayNotify _ _ => some paymentProviderEpay
  | manualComplete _ _ => none
  | updatePending _ provider _ => if provider = "" then none else some provider

/-- What a call adds to the quota when it completes an order. -/
def increment (cfg : TopUpConfig) (topUp : TopUp) : TopUpCall → Increment
  | recharge _ customerId _ => (rechargePath cfg customerId).increment topUp
  | rechargeCreem _ email _ => (rechargeCreemPath email).increment topUp
  | rechargeWaffo _ _ => (waffoPath cfg paymentProviderWaffo).increment topUp
  | rechargeWaffoPancake _ _ => (waffoPath cfg paymentProviderWaffoPancake).increment topUp
  | epayNotify _ _ => .int (cfg.amountQuota topUp)
  | manualComplete _ _ => (manualCompletePath cfg).increment topUp
  | updatePending _ _ _ => .int 0

end TopUpCall

/-- The tables after a call whose statements fail as given. -/
def topUpCall (cfg : TopUpConfig) (faults : TopUpFaults) (s : TopUpStore) :
    TopUpCall → TopUpStore
  | .recharge t customerId now => (recharge cfg faults now t customerId s).2
  | .rechargeCreem t email now => (rechargeCreem cfg faults now t email s).2
  | .rechargeWaffo t now => (rechargeWaffo cfg faults now t s).2
  | .rechargeWaffoPancake t now => (rechargeWaffoPancake cfg faults now t s).2
  | .epayNotify t type => epayNotify cfg faults t type s
  | .manualComplete t now => (manualCompleteTopUp cfg faults now t s).2
  | .updatePending t provider target => (updatePendingTopUpStatus faults t provider target s).2

/-- A call as one step: no statement of it fails. -/
def topUpStep (cfg : TopUpConfig) (s : TopUpStore) (call : TopUpCall) : TopUpStore :=
  topUpCall cfg {} s call

/-! ### What a step may do -/

/-- The order has moved from pending to success. -/
def Succeeds (t : String) (s s' : TopUpStore) : Prop :=
  s.status t = some topUpStatusPending ∧ s'.status t = some topUpStatusSuccess

instance (t : String) (s s' : TopUpStore) : Decidable (Succeeds t s s') := by
  unfold Succeeds
  infer_instance

/-- A call that pays when it completes the order: the order's user has not been deleted, and the
call is none that ends orders without a payment or reports an amount that is negative. -/
def TopUpCall.Pays (cfg : TopUpConfig) (s : TopUpStore) (call : TopUpCall) : Prop :=
  ∀ topUp ∈ s.order call.tradeNo, (s.user topUp.userId).isSome ∧
    match call with
    | .epayNotify _ _ => 0 ≤ cfg.amountQuota topUp
    | .updatePending _ _ _ => False
    | _ => True

/-- What a call may do to the tables. -/
structure OrderStep (cfg : TopUpConfig) (call : TopUpCall) (s s' : TopUpStore) : Prop where
  /-- A status that is not pending stays. -/
  final : ∀ t st, s.status t = some st → st ≠ topUpStatusPending → s'.status t = some st
  /-- A call that pays credits the order it moves to success, once and to its user. -/
  credited : Succeeds call.tradeNo s s' → call.Pays cfg s → ∃ topUp quota quota',
    s.order call.tradeNo = some topUp ∧ s.quota topUp.userId = some quota ∧
      cfg.add quota (call.increment cfg topUp) = .ok quota' ∧
      s'.quota topUp.userId = some quota' ∧
      (∀ id, id ≠ topUp.userId → s'.quota id = s.quota id) ∧
      s'.credits = s.credits ++ [⟨call.tradeNo, topUp.userId, quota' - quota⟩]
  /-- A call that does not move its order to success credits nothing. -/
  uncredited : ¬ Succeeds call.tradeNo s s' →
    (∀ id, s'.quota id = s.quota id) ∧ s'.credits = s.credits
  /-- The other orders stay as they are. -/
  others : ∀ t, t ≠ call.tradeNo → s'.order t = s.order t
  /-- No order is added. -/
  known : ∀ t, s.status t = none → s'.status t = none
  /-- A gateway does not touch the orders of another. -/
  foreign : ∀ topUp, s.order call.tradeNo = some topUp → ∀ g ∈ call.gateway,
    g ≠ topUp.paymentProvider → s' = s

theorem OrderStep.refl (cfg : TopUpConfig) (call : TopUpCall) (s : TopUpStore) :
    OrderStep cfg call s s where
  final _ _ h _ := h
  credited h _ := by
    have hboth := h.1.symm.trans h.2
    exact absurd (Option.some.inj hboth) pending_ne_success
  uncredited _ := ⟨fun _ => rfl, rfl⟩
  others _ _ := rfl
  known _ h := h
  foreign _ _ _ _ _ := rfl

/-! ### One step -/

theorem user_of_isSome {s : TopUpStore} {id : ℤ} (h : (s.user id).isSome) :
    ∃ user, s.user id = some user ∧ s.quota id = some user.quota := by
  obtain ⟨user, huser⟩ := Option.isSome_iff_exists.1 h
  exact ⟨user, huser, by rw [TopUpStore.quota, huser]; rfl⟩

section OneStep

variable {cfg : TopUpConfig} {call : TopUpCall} {topUp : TopUp} {s s' : TopUpStore}

/-- What is to be shown of a call that writes the pending order it is about, and no other. -/
theorem OrderStep.of_write (ho : s.order call.tradeNo = some topUp)
    (hpend : topUp.status = topUpStatusPending)
    (hgate : ∀ g ∈ call.gateway, topUp.paymentProvider = g)
    (hothers : ∀ t, t ≠ call.tradeNo → s'.order t = s.order t)
    (hcredited : Succeeds call.tradeNo s s' → call.Pays cfg s → ∃ quota quota',
      s.quota topUp.userId = some quota ∧
        cfg.add quota (call.increment cfg topUp) = .ok quota' ∧
        s'.quota topUp.userId = some quota' ∧
        (∀ id, id ≠ topUp.userId → s'.quota id = s.quota id) ∧
        s'.credits = s.credits ++ [⟨call.tradeNo, topUp.userId, quota' - quota⟩])
    (huncredited : ¬ Succeeds call.tradeNo s s' →
      (∀ id, s'.quota id = s.quota id) ∧ s'.credits = s.credits) : OrderStep cfg call s s' := by
  have hbefore : s.status call.tradeNo = some topUpStatusPending := by
    rw [status_of_order ho, hpend]
  refine ⟨?_, ?_, huncredited, hothers, ?_, ?_⟩
  · intro t st hst hne
    by_cases ht : t = call.tradeNo
    · subst ht
      exact absurd (Option.some.inj (hst.symm.trans hbefore)) hne
    · rw [TopUpStore.status, hothers t ht]
      exact hst
  · intro hsucc hpays
    obtain ⟨quota, quota', hrest⟩ := hcredited hsucc hpays
    exact ⟨topUp, quota, quota', ho, hrest⟩
  · intro t hnone
    by_cases ht : t = call.tradeNo
    · subst ht
      rw [hbefore] at hnone
      cases hnone
    · rw [TopUpStore.status, hothers t ht]
      exact hnone
  · intro topUp' ho' g hg hne
    obtain rfl : topUp = topUp' := Option.some.inj (ho.symm.trans ho')
    exact absurd (hgate g hg).symm hne

/-- A completed order is a step of the order's life. -/
theorem OrderStep.of_completed (ho : s.order call.tradeNo = some topUp)
    (hpend : topUp.status = topUpStatusPending)
    (hgate : ∀ g ∈ call.gateway, topUp.paymentProvider = g)
    (h : Completed cfg (call.increment cfg topUp) topUp s s') : OrderStep cfg call s s' := by
  have htrade : topUp.tradeNo = call.tradeNo := TopUpStore.tradeNo_of_order ho
  refine OrderStep.of_write ho hpend hgate ?_ ?_ ?_
  · intro t ht
    exact h.others t (htrade ▸ ht)
  · intro _ hpays
    obtain ⟨user, huser, hquota⟩ := user_of_isSome (hpays topUp ho).1
    obtain ⟨quota', hadd, hnew, hkeep, hcredits⟩ := h.credited user huser
    rw [htrade] at hcredits
    exact ⟨user.quota, quota', hquota, hadd, hnew, hkeep, hcredits⟩
  · intro hno
    refine absurd ⟨?_, ?_⟩ hno
    · rw [status_of_order ho, hpend]
    · rw [← htrade]
      exact h.status

/-- A transactional call is a step of the order's life. -/
theorem OrderStep.of_completeOrder {p : CompletionPath} {now : ℤ}
    (hgate : call.gateway = p.provider)
    (hinc : ∀ topUp, call.increment cfg topUp = p.increment topUp) :
    OrderStep cfg call s (completeOrder cfg p {} now call.tradeNo s).2 := by
  by_cases h : ∃ topUp, p.Ready cfg {} call.tradeNo s topUp
  · obtain ⟨topUp, hready⟩ := h
    refine OrderStep.of_completed hready.found hready.pending (hgate ▸ hready.provider) ?_
    rw [hinc]
    exact completeOrder_of_ready hready
  · rw [completeOrder_of_not_ready (not_exists.1 h)]
    exact OrderStep.refl cfg call s

/-- An order whose status alone is written, and which does not become a success that pays. -/
theorem OrderStep.of_saveTopUp {topUp' : TopUp} (ho : s.order call.tradeNo = some topUp)
    (hpend : topUp.status = topUpStatusPending)
    (hgate : ∀ g ∈ call.gateway, topUp.paymentProvider = g)
    (htrade : topUp'.tradeNo = topUp.tradeNo) (hpays : ¬ call.Pays cfg s) :
    OrderStep cfg call s (s.saveTopUp topUp') := by
  refine OrderStep.of_write ho hpend hgate ?_ ?_ fun _ => ⟨fun _ => rfl, rfl⟩
  · intro t ht
    refine TopUpStore.order_saveTopUp_of_ne s ?_
    rw [htrade, TopUpStore.tradeNo_of_order ho]
    exact Ne.symm ht
  · intro _ hyes
    exact absurd hyes hpays

/-- A report by Epay is a step of the order's life. -/
theorem OrderStep.of_epayNotify {t type : String} :
    OrderStep cfg (.epayNotify t type) s (epayNotify cfg {} t type s) := by
  by_cases h : ∃ topUp, EpayReady {} t s topUp
  · obtain ⟨topUp, hready⟩ := h
    have hgate : ∀ g ∈ (TopUpCall.epayNotify t type).gateway, topUp.paymentProvider = g := by
      intro g hg
      rw [hready.provider]
      exact Option.some.inj hg
    by_cases hamount : 0 ≤ cfg.amountQuota topUp
    · exact OrderStep.of_completed hready.found hready.pending hgate
        (epayNotify_of_ready hready hamount rfl)
    · rw [epayNotify_of_not_credited hready (Or.inl (not_le.1 hamount))]
      refine OrderStep.of_saveTopUp hready.found hready.pending hgate rfl ?_
      intro hpays
      exact hamount (hpays topUp hready.found).2
  · rw [epayNotify_of_not_ready (not_exists.1 h)]
    exact OrderStep.refl cfg _ s

/-- Ending an order without a payment is a step of its life. -/
theorem OrderStep.of_updatePending {t provider target : String} :
    OrderStep cfg (.updatePending t provider target) s
      (updatePendingTopUpStatus {} t provider target s).2 := by
  rcases updatePendingTopUpStatus_cases {} t provider target s with
    heq | ⟨topUp, ho, hpend, hprov, heq⟩
  · rw [heq]
    exact OrderStep.refl cfg _ s
  · rw [heq]
    refine OrderStep.of_saveTopUp ho hpend ?_ rfl ?_
    · intro g hg
      by_cases hempty : provider = ""
      · simp [TopUpCall.gateway, hempty] at hg
      · simp only [TopUpCall.gateway, if_neg hempty, Option.mem_def, Option.some.injEq] at hg
        exact hg ▸ hprov.resolve_left hempty
    · intro hpays
      exact (hpays topUp ho).2

end OneStep

/-- **Every call is a step of the order's life.** -/
theorem orderStep_topUpStep (cfg : TopUpConfig) (s : TopUpStore) (call : TopUpCall) :
    OrderStep cfg call s (topUpStep cfg s call) := by
  cases call with
  | recharge t customerId now => exact OrderStep.of_completeOrder rfl fun _ => rfl
  | rechargeCreem t email now => exact OrderStep.of_completeOrder rfl fun _ => rfl
  | rechargeWaffo t now => exact OrderStep.of_completeOrder rfl fun _ => rfl
  | rechargeWaffoPancake t now => exact OrderStep.of_completeOrder rfl fun _ => rfl
  | epayNotify t type => exact OrderStep.of_epayNotify
  | manualComplete t now => exact OrderStep.of_completeOrder rfl fun _ => rfl
  | updatePending t provider target => exact OrderStep.of_updatePending

/-! ### Runs -/

/-- A final status stays to the end of a run. -/
theorem status_run_of_final {cfg : TopUpConfig} {s : TopUpStore} {t st : String}
    (calls : List TopUpCall) (hst : s.status t = some st) (hne : st ≠ topUpStatusPending) :
    (Transition.run (topUpStep cfg) s calls).status t = some st := by
  have hstep : ∀ s call, s.status t = some st → (topUpStep cfg s call).status t = some st := by
    intro s call h
    exact (orderStep_topUpStep cfg s call).final t st h hne
  exact Transition.run_invariant_always hstep hst calls

/-- **The life of a top-up order.**  In every run every step is a step of the orders' lives, and a
status other than pending, once reached, stays to the end. -/
theorem topUp_lifecycle (cfg : TopUpConfig) (s : TopUpStore) (calls : List TopUpCall) :
    Transition.Along (topUpStep cfg) (fun s call => OrderStep cfg call s (topUpStep cfg s call))
        s calls ∧
      ∀ before after, calls = before ++ after → ∀ t st,
        (Transition.run (topUpStep cfg) s before).status t = some st → st ≠ topUpStatusPending →
        (Transition.run (topUpStep cfg) s calls).status t = some st := by
  constructor
  · induction calls generalizing s with
    | nil => trivial
    | cons call calls ih => exact ⟨orderStep_topUpStep cfg s call, ih _⟩
  · intro before after happ t st hst hne
    rw [happ, Transition.run_append]
    exact status_run_of_final after hst hne

/-! ### Successes that are not credited -/

/-- A configuration with the default quota per unit, for an order of ten units of money. -/
def defaultTopUpConfig : TopUpConfig where
  quotaPerUnit := 500000.0
  newFromFloat x := if x = 500000.0 then 500000 else 10
  addDouble quota x := if x = 5000000.0 then .ok (quota + 5000000) else .error "out of range"
  newFromFloat_pos x _ := by split <;> norm_num

/-- A pending order of user 1. -/
def pendingTopUp (provider : String) (amount : Int64) : TopUp where
  tradeNo := "USR1NO1"
  userId := 1
  amount := amount
  money := 10.0
  paymentMethod := "alipay"
  paymentProvider := provider
  completeTime := 0
  status := topUpStatusPending

def storeWith (topUp : TopUp) (users : List ℤ) : TopUpStore where
  topUps := [topUp]
  users := users.map fun id => ⟨id, 0, "", ""⟩
  credits := []

/-- A call makes an order succeed and moves no quota. -/
def SucceedsUncredited (cfg : TopUpConfig) (t : String) (s : TopUpStore) (call : TopUpCall) : Prop :=
  Succeeds t s (topUpStep cfg s call) ∧ (topUpStep cfg s call).credits = s.credits ∧
    (topUpStep cfg s call).users = s.users

instance (cfg : TopUpConfig) (t : String) (s : TopUpStore) (call : TopUpCall) :
    Decidable (SucceedsUncredited cfg t s call) :=
  inferInstanceAs (Decidable (_ ∧ _ ∧ _))

/-- **An order can succeed uncredited**: it can be given the status as if it were ended, it can be
completed for a user who is no longer there, and an amount whose quota wraps around to a negative
number is reported as paid. -/
theorem success_uncredited :
    SucceedsUncredited defaultTopUpConfig "USR1NO1"
        (storeWith (pendingTopUp paymentProviderEpay 10) [1])
        (.updatePending "USR1NO1" "" topUpStatusSuccess) ∧
      SucceedsUncredited defaultTopUpConfig "USR1NO1"
        (storeWith (pendingTopUp paymentProviderEpay 10) []) (.manualComplete "USR1NO1" 0) ∧
      SucceedsUncredited defaultTopUpConfig "USR1NO1"
        (storeWith (pendingTopUp paymentProviderEpay 20000000000000) [1])
        (.epayNotify "USR1NO1" "alipay") := by
  decide +kernel

/-! ### One credit -/

section Credits

variable {cfg : TopUpConfig} {s : TopUpStore} {calls : List TopUpCall}

/-- The final status of an order, if it has reached one. -/
def finalStatus (t : String) (s : TopUpStore) : Option String :=
  (s.status t).filter fun st => st ≠ topUpStatusPending

/-- The credits of an order. -/
def creditsOf (t : String) (s : TopUpStore) : List Credit :=
  s.credits.filter fun c => c.tradeNo = t

/-- The credits an order with a final status should have. -/
def CreditsFor (st : String) (credits : List Credit) : Prop :=
  credits.length = if st = topUpStatusSuccess then 1 else 0

theorem finalStatus_eq_some {t st : String} {s : TopUpStore} :
    finalStatus t s = some st ↔ s.status t = some st ∧ st ≠ topUpStatusPending := by
  simp [finalStatus, Option.filter_eq_some_iff]

theorem finalStatus_eq_none {t : String} {s : TopUpStore} :
    finalStatus t s = none ↔ ∀ st, s.status t = some st → st = topUpStatusPending := by
  simp [finalStatus, Option.filter_eq_none_iff]

/-- A step of the orders' lives keeps the final status and the credits of an order, or sets the
status and makes the credit for it. -/
theorem OrderStep.latch {call : TopUpCall} {s s' : TopUpStore} (h : OrderStep cfg call s s')
    (hpays : Succeeds call.tradeNo s s' → call.Pays cfg s) (t : String) :
    Latch.Step (finalStatus t) (creditsOf t) CreditsFor s s' := by
  by_cases ht : call.tradeNo = t
  · subst ht
    by_cases hsucc : Succeeds call.tradeNo s s'
    · obtain ⟨topUp, quota, quota', -, -, -, -, -, hcredits⟩ := h.credited hsucc (hpays hsucc)
      refine .set topUpStatusSuccess [⟨call.tradeNo, topUp.userId, quota' - quota⟩] ?_ ?_ ?_ rfl
      · refine finalStatus_eq_none.2 fun st hst => ?_
        exact (Option.some.inj (hsucc.1.symm.trans hst)).symm
      · exact finalStatus_eq_some.2 ⟨hsucc.2, pending_ne_success.symm⟩
      · rw [creditsOf, hcredits, List.filter_append]
        simp [creditsOf]
    · have hlog : creditsOf call.tradeNo s' = creditsOf call.tradeNo s := by
        rw [creditsOf, (h.uncredited hsucc).2, creditsOf]
      cases hst : s.status call.tradeNo with
      | none =>
        -- an order that is not there is not written
        refine .keep ?_ hlog
        rw [finalStatus, h.known _ hst, finalStatus, hst]
      | some st =>
        by_cases hpend : st = topUpStatusPending
        · subst hpend
          have hopen : finalStatus call.tradeNo s = none :=
            finalStatus_eq_none.2 fun st' hst' => (Option.some.inj (hst.symm.trans hst')).symm
          cases hfin : finalStatus call.tradeNo s' with
          | none => exact .keep (hfin.trans hopen.symm) hlog
          | some st' =>
            have hst' := (finalStatus_eq_some.1 hfin).1
            have hne : st' ≠ topUpStatusSuccess := by
              rintro rfl
              exact hsucc ⟨hst, hst'⟩
            refine .set st' [] hopen hfin (by rw [hlog, List.append_nil]) ?_
            rw [CreditsFor, if_neg hne]
            rfl
        · have hst' := h.final _ st hst hpend
          refine .keep ?_ hlog
          rw [finalStatus, hst', finalStatus, hst]
  · refine .keep ?_ ?_
    · rw [finalStatus, TopUpStore.status, h.others t (Ne.symm ht)]
      rfl
    · by_cases hsucc : Succeeds call.tradeNo s s'
      · obtain ⟨topUp, quota, quota', -, -, -, -, -, hcredits⟩ := h.credited hsucc (hpays hsucc)
        rw [creditsOf, hcredits, List.filter_append]
        simp [creditsOf, ht]
      · rw [creditsOf, (h.uncredited hsucc).2, creditsOf]

/-- A success that the call's step brings about is one of a call that pays. -/
def TopUpCall.PaysIfDone (cfg : TopUpConfig) (s : TopUpStore) (call : TopUpCall) : Prop :=
  Succeeds call.tradeNo s (topUpStep cfg s call) → call.Pays cfg s

/-- **An order is credited once if it succeeds in a run, and never otherwise**, where every
success is one of a call that pays. -/
theorem topUp_credited_once {t : String}
    (hcalls : Transition.Along (topUpStep cfg) (fun s call => call.PaysIfDone cfg s) s calls)
    (hpend : s.status t = some topUpStatusPending) (hnone : creditsOf t s = []) :
    Latch.Sound (finalStatus t) (creditsOf t) CreditsFor
      (Transition.run (topUpStep cfg) s calls) := by
  have hopen : Latch.Sound (finalStatus t) (creditsOf t) CreditsFor s := by
    have hval : finalStatus t s = none :=
      finalStatus_eq_none.2 fun st hst => (Option.some.inj (hpend.symm.trans hst)).symm
    rw [Latch.Sound, hval]
    exact hnone
  have hstep : ∀ (s : TopUpStore) (call : TopUpCall), True → call.PaysIfDone cfg s →
      Latch.Step (finalStatus t) (creditsOf t) CreditsFor s (topUpStep cfg s call) := by
    intro s call _ hpays
    exact (orderStep_topUpStep cfg s call).latch hpays t
  exact Latch.sound_run (fun _ _ _ _ => trivial) hstep trivial hopen hcalls

/-- An order that is reported as paid, and completed by hand after that. -/
theorem topUp_credited_once_reported :
    Latch.Sound (finalStatus "USR1NO1") (creditsOf "USR1NO1") CreditsFor
      (Transition.run (topUpStep defaultTopUpConfig)
        (storeWith (pendingTopUp paymentProviderEpay 10) [1])
        [.epayNotify "USR1NO1" "alipay", .manualComplete "USR1NO1" 0]) := by
  refine topUp_credited_once ⟨fun _ topUp htopUp => ?_, fun hagain => ?_, trivial⟩ (by decide)
    (by decide)
  · obtain rfl : pendingTopUp paymentProviderEpay 10 = topUp := Option.some.inj htopUp
    exact ⟨by decide, by decide +kernel⟩
  · exact absurd hagain.1 (by decide +kernel)

end Credits

end NewApi
