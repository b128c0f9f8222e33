/-
**Completing an order when a statement fails.**

Any statement of a completing call may fail.  A call is atomic if afterwards the order has
succeeded exactly if its quota has been added, and if a call that did not add it has changed
nothing, so that the next report of the payment finds what this one found.  The transactional
calls are atomic whatever fails, as long as the user of the order is still there; `epayNotify`
writes the status first and adds the quota in a statement of its own, and is not.

Main definitions:

* `NewApi.AtomicCompletion` — the order has succeeded exactly if it has been credited;
* `NewApi.TopUpCall.CreditsWhenDone` — a call that gets as far as writing the order's status gets
  as far as adding its quota.

Main results:

* `NewApi.completion_atomic_iff` — **a call is atomic exactly if it credits when it is done**;
* `NewApi.epayNotify_not_atomic` — a report whose credit fails leaves a success uncredited.
-/

import NewApi.TopUpLifecycle

set_option autoImplicit false

namespace NewApi

/-- The order has succeeded exactly if it has been credited, and a call that did not credit it has
changed nothing. -/
def AtomicCompletion (t : String) (s s' : TopUpStore) : Prop :=
  (s'.status t = some topUpStatusSuccess ↔ s'.Credited t) ∧ (¬ s'.Credited t → s' = s)

namespace TopUpCall

/-- The calls that complete an order. -/
def IsCompletion : TopUpCall → Prop
  | updatePending _ _ _ => False
  | _ => True

/-- A transactional call that is ready finds the user of the order. -/
def FindsUser (cfg : TopUpConfig) (p : CompletionPath) (faults : TopUpFaults) (t : String)
    (s : TopUpStore) : Prop :=
  ∀ topUp, p.Ready cfg faults t s topUp → (s.user topUp.userId).isSome

/-- A call that writes the status of the order also adds its quota: the user is there, and for
`epayNotify` the amount is not negative and its last statement does not fail. -/
def CreditsWhenDone (cfg : TopUpConfig) (faults : TopUpFaults) (s : TopUpStore) :
    TopUpCall → Prop
  | recharge t customerId _ => FindsUser cfg (rechargePath cfg customerId) faults t s
  | rechargeCreem t email _ => FindsUser cfg (rechargeCreemPath email) faults t s
  | rechargeWaffo t _ => FindsUser cfg (waffoPath cfg paymentProviderWaffo) faults t s
  | rechargeWaffoPancake t _ =>
    FindsUser cfg (waffoPath cfg paymentProviderWaffoPancake) faults t s
  | epayNotify t _ => ∀ topUp, EpayReady faults t s topUp →
      (s.user topUp.userId).isSome ∧ 0 ≤ cfg.amountQuota topUp ∧ faults.credit = none
  | manualComplete t _ => FindsUser cfg (manualCompletePath cfg) faults t s
  | updatePending _ _ _ => True

end TopUpCall

section Atomic

variable {cfg : TopUpConfig} {faults : TopUpFaults} {s : TopUpStore} {t : String}

/-- A call that changes nothing is atomic. -/
theorem AtomicCompletion.refl (hs : s.status t = some topUpStatusSuccess ↔ s.Credited t) :
    AtomicCompletion t s s := ⟨hs, fun _ => rfl⟩

/-- A success that was not credited is not atomic. -/
theorem not_atomic_of_uncredited {s' : TopUpStore} {topUp : TopUp} (ho : s.order t = some topUp)
    (hpend : topUp.status = topUpStatusPending)
    (hs : s.status t = some topUpStatusSuccess ↔ s.Credited t)
    (hsucc : s'.status t = some topUpStatusSuccess) (hcredits : s'.credits = s.credits) :
    ¬ AtomicCompletion t s s' := by
  intro h
  have hcredited : s'.Credited t := h.1.1 hsucc
  rw [TopUpStore.Credited, hcredits] at hcredited
  have hbefore := hs.2 hcredited
  rw [status_of_order ho, hpend] at hbefore
  exact pending_ne_success (Option.some.inj hbefore)

/-- A completed order is credited if its user is there, and only then. -/
theorem atomic_completed_iff {increment : Increment} {s' : TopUpStore} {topUp : TopUp}
    (ho : s.order t = some topUp) (hpend : topUp.status = topUpStatusPending)
    (hs : s.status t = some topUpStatusSuccess ↔ s.Credited t)
    (h : Completed cfg increment topUp s s') :
    AtomicCompletion t s s' ↔ (s.user topUp.userId).isSome := by
  have htrade : topUp.tradeNo = t := TopUpStore.tradeNo_of_order ho
  have hsucc : s'.status t = some topUpStatusSuccess := by
    rw [← htrade]
    exact h.status
  cases hu : s.user topUp.userId with
  | none =>
    have hno := not_atomic_of_uncredited ho hpend hs hsucc (h.uncredited hu).2
    exact ⟨fun hyes => absurd hyes hno, fun hsome => by cases hsome⟩
  | some user =>
    obtain ⟨quota, -, -, -, hcredits⟩ := h.credited user hu
    have hcredited : s'.Credited t := by
      rw [TopUpStore.Credited, hcredits, htrade]
      simp
    exact ⟨fun _ => rfl, fun _ => ⟨⟨fun _ => hcredited, fun _ => hsucc⟩, fun hno =>
      absurd hcredited hno⟩⟩

/-- **A transactional call is atomic exactly if it finds the user when it is ready.** -/
theorem atomic_completeOrder_iff {p : CompletionPath} {now : ℤ}
    (hs : s.status t = some topUpStatusSuccess ↔ s.Credited t) :
    AtomicCompletion t s (completeOrder cfg p faults now t s).2 ↔
      TopUpCall.FindsUser cfg p faults t s := by
  by_cases h : ∃ topUp, p.Ready cfg faults t s topUp
  · obtain ⟨topUp, hready⟩ := h
    rw [atomic_completed_iff hready.found hready.pending hs (completeOrder_of_ready hready)]
    constructor
    · intro hsome topUp' hready'
      obtain rfl : topUp = topUp' := Option.some.inj (hready.found.symm.trans hready'.found)
      exact hsome
    · intro hfinds
      exact hfinds topUp hready
  · rw [completeOrder_of_not_ready (not_exists.1 h)]
    refine ⟨fun _ topUp hready => absurd ⟨topUp, hready⟩ h, fun _ => ?_⟩
    exact AtomicCompletion.refl hs

/-- **A report by Epay is atomic exactly if its credit is made when the status is.** -/
theorem atomic_epayNotify_iff {type : String}
    (hs : s.status t = some topUpStatusSuccess ↔ s.Credited t) :
    AtomicCompletion t s (epayNotify cfg faults t type s) ↔
      ∀ topUp, EpayReady faults t s topUp →
        (s.user topUp.userId).isSome ∧ 0 ≤ cfg.amountQuota topUp ∧ faults.credit = none := by
  by_cases h : ∃ topUp, EpayReady faults t s topUp
  · obtain ⟨topUp, hready⟩ := h
    have honly : (∀ topUp', EpayReady faults t s topUp' → (s.user topUp'.userId).isSome ∧
        0 ≤ cfg.amountQuota topUp' ∧ faults.credit = none) ↔
        (s.user topUp.userId).isSome ∧ 0 ≤ cfg.amountQuota topUp ∧ faults.credit = none := by
      refine ⟨fun hall => hall topUp hready, fun hone topUp' hready' => ?_⟩
      obtain rfl : topUp = topUp' := Option.some.inj (hready.found.symm.trans hready'.found)
      exact hone
    rw [honly]
    by_cases hcredit : 0 ≤ cfg.amountQuota topUp ∧ faults.credit = none
    · rw [atomic_completed_iff hready.found hready.pending hs
        (epayNotify_of_ready hready hcredit.1 hcredit.2)]
      exact ⟨fun hsome => ⟨hsome, hcredit⟩, fun hall => hall.1⟩
    · have hno : cfg.amountQuota topUp < 0 ∨ faults.credit ≠ none := by
        rw [not_and_or, not_le] at hcredit
        exact hcredit
      have hwritten : epayNotify cfg faults t type s = s.saveTopUp (topUp.report type) :=
        epayNotify_of_not_credited hready hno
      have hsucc : (s.saveTopUp (topUp.report type)).status t = some topUpStatusSuccess := by
        have hself := TopUpStore.order_saveTopUp (topUp.report type) s
        rw [TopUp.report_tradeNo, TopUpStore.tradeNo_of_order hready.found] at hself
        exact status_of_order hself
      rw [hwritten]
      refine ⟨fun hatomic => ?_, fun hall => absurd hall.2 hcredit⟩
      exact absurd hatomic (not_atomic_of_uncredited hready.found hready.pending hs hsucc rfl)
  · rw [epayNotify_of_not_ready (not_exists.1 h)]
    refine ⟨fun _ topUp hready => absurd ⟨topUp, hready⟩ h, fun _ => ?_⟩
    exact AtomicCompletion.refl hs

end Atomic

/-- **A completing call is atomic, whatever statements fail, exactly if it credits the order
whenever it writes the order's status.** -/
theorem completion_atomic_iff (cfg : TopUpConfig) (faults : TopUpFaults) (s : TopUpStore)
    (call : TopUpCall) (hcall : call.IsCompletion)
    (hs : s.status call.tradeNo = some topUpStatusSuccess ↔ s.Credited call.tradeNo) :
    AtomicCompletion call.tradeNo s (topUpCall cfg faults s call) ↔
      call.CreditsWhenDone cfg faults s := by
  cases call with
  | recharge t customerId now => exact atomic_completeOrder_iff hs
  | rechargeCreem t email now => exact atomic_completeOrder_iff hs
  | rechargeWaffo t now => exact atomic_completeOrder_iff hs
  | rechargeWaffoPancake t now => exact atomic_completeOrder_iff hs
  | epayNotify t type => exact atomic_epayNotify_iff hs
  | manualComplete t now => exact atomic_completeOrder_iff hs
  | updatePending t provider target => exact hcall.elim

/-- A completion by hand whose last statement fails has changed nothing. -/
theorem completion_atomic_manual :
    let s := storeWith (pendingTopUp paymentProviderEpay 10) [1]
    AtomicCompletion "USR1NO1" s (topUpCall defaultTopUpConfig { credit := some "locked" } s
      (.manualComplete "USR1NO1" 5)) := by
  refine (completion_atomic_iff defaultTopUpConfig { credit := some "locked" } _
    (.manualComplete "USR1NO1" 5) trivial (by decide)).2 ?_
  intro topUp hready
  exact absurd hready.credit (by decide)

/-- **A report by Epay whose credit fails leaves a success uncredited**, and the next report finds
an order that has succeeded and changes nothing. -/
theorem epayNotify_not_atomic :
    let s := storeWith (pendingTopUp paymentProviderEpay 10) [1]
    let s' := topUpCall defaultTopUpConfig { credit := some "locked" } s
      (.epayNotify "USR1NO1" "alipay")
    ¬ AtomicCompletion "USR1NO1" s s' ∧
      topUpCall defaultTopUpConfig {} s' (.epayNotify "USR1NO1" "alipay") = s' := by
  refine ⟨fun h => ?_, by decide +kernel⟩
  exact absurd (h.1.1 (by decide +kernel)) (by decide +kernel)

end NewApi
