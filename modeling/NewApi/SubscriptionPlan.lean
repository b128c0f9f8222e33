/-
**Subscription plans: how long they last and when their quota is reset.**

A plan fixes the end of the subscriptions bought from it and the period after which their used
quota is set back to zero.  Both are computed on the server's local clock: a daily reset falls on
the next local midnight, a weekly one on the next Monday, a monthly one on the first of the next
month, and a custom period counts seconds from the last reset.  A subscription that ends before
the next reset has none.

Main definitions:

* `NewApi.SubscriptionPlan` — a plan;
* `NewApi.calcPlanEndTime` — the end of a subscription that starts now;
* `NewApi.ResetPeriod`, `NewApi.normalizeResetPeriod` — the reset periods;
* `NewApi.calcNextResetTime` — the next reset after an instant, `0` when there is none.

Main results:

* `NewApi.calcNextResetTime_never` — a plan without a period is never reset;
* `NewApi.calcNextResetTime_le_end` — no reset is scheduled after the end.
-/

import NewApi.Calendar

set_option autoImplicit false

namespace NewApi

/-! ### Plans -/

/-- A plan, with the columns that the modelled functions read. -/
structure SubscriptionPlan where
  id : ℤ
  title : String
  durationUnit : String
  durationValue : ℤ
  customSeconds : ℤ
  maxPurchasePerUser : ℤ
  upgradeGroup : String
  totalAmount : ℤ
  quotaResetPeriod : String
  quotaResetCustomSeconds : ℤ
deriving DecidableEq, Repr

/-- The end of a subscription to `plan` that starts at `start`. -/
def calcPlanEndTime (loc : Location) (start : ℤ) (plan : SubscriptionPlan) : Except String ℤ :=
  if plan.durationValue ≤ 0 ∧ plan.durationUnit ≠ "custom" then
    .error "duration_value must be > 0"
  else if plan.durationUnit = "year" then .ok (addDate loc start plan.durationValue 0 0)
  else if plan.durationUnit = "month" then .ok (addDate loc start 0 plan.durationValue 0)
  else if plan.durationUnit = "day" then .ok (addSeconds start plan.durationValue 86400)
  else if plan.durationUnit = "hour" then .ok (addSeconds start plan.durationValue 3600)
  else if plan.durationUnit = "custom" then
    if plan.customSeconds ≤ 0 then .error "custom_seconds must be > 0"
    else .ok (addSeconds start plan.customSeconds 1)
  else .error ("invalid duration_unit: " ++ plan.durationUnit)

/-! ### Reset periods -/

/-- How often the used quota of a subscription is reset. -/
inductive ResetPeriod where
  | never
  | daily
  | weekly
  | monthly
  | custom
deriving DecidableEq, Repr

/-- The period a plan names; whatever is not a period means that there is no reset. -/
def normalizeResetPeriod (period : String) : ResetPeriod :=
  if trimSpace period = "daily" then .daily
  else if trimSpace period = "weekly" then .weekly
  else if trimSpace period = "monthly" then .monthly
  else if trimSpace period = "custom" then .custom
  else .never

/-- The first reset after `base` that the period asks for, before it is cut at the end. -/
def nextReset (loc : Location) (base : ℤ) (plan : SubscriptionPlan) : ResetPeriod → Option ℤ
  | .never => none
  | .daily =>
    let d := localDate loc base
    some (addDate loc (date loc d.year d.month d.day 0) 0 0 1)
  | .weekly =>
    let d := localDate loc base
    -- Sunday counts as the seventh day, and the reset falls on the Monday after `base`
    let weekday := if d.weekday = 0 then 7 else d.weekday
    some (addDate loc (date loc d.year d.month d.day 0) 0 0 (8 - weekday))
  | .monthly =>
    let d := localDate loc base
    some (addDate loc (date loc d.year d.month 1 0) 0 1 0)
  | .custom =>
    if plan.quotaResetCustomSeconds ≤ 0 then none
    else some (addSeconds base plan.quotaResetCustomSeconds 1)

/-- The next reset after `base` of a subscription that ends at `endUnix`; `0` is no reset. -/
def calcNextResetTime (loc : Location) (base : ℤ) (plan : SubscriptionPlan) (endUnix : ℤ) : ℤ :=
  match nextReset loc base plan (normalizeResetPeriod plan.quotaResetPeriod) with
  | none => 0
  | some next => if 0 < endUnix ∧ endUnix < next then 0 else next

theorem calcNextResetTime_never {loc : Location} {base endUnix : ℤ} {plan : SubscriptionPlan}
    (h : normalizeResetPeriod plan.quotaResetPeriod = .never) :
    calcNextResetTime loc base plan endUnix = 0 := by
  simp [calcNextResetTime, h, nextReset]

/-- A reset is never scheduled after the end of the subscription. -/
theorem calcNextResetTime_le_end {loc : Location} {base endUnix : ℤ} {plan : SubscriptionPlan}
    (hend : 0 < endUnix) : calcNextResetTime loc base plan endUnix ≤ endUnix := by
  unfold calcNextResetTime
  split
  · omega
  · split <;> omega

end NewApi
