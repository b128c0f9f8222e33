/-
**The loop that resets the used amount of a subscription.**

When the next reset of a subscription is due, `maybeResetUserSubscriptionWithPlanTx` goes from the
last reset to the one after it until it is past the present.  Each step either adds the seconds of a
custom period, as a duration of 64 bits in nanoseconds, or asks `time.Date` for the midnight of a
later day.  The loop ends if every step leads forward.  A custom period that does not fit a
duration can lead nowhere or back, and so can a midnight that the local clock skips.

Main definitions:

* `NewApi.midnight`, `NewApi.KeepsMidnight` — the instant `time.Date` gives for the midnight of a
  day, and the days that begin there;
* `NewApi.ResetPeriod.following` — the next day a period resets on;
* `NewApi.IsBoundary` — the instants at which a period asks for a reset;
* `NewApi.ResetEnds` — what the due check promises;
* `NewApi.ResetFits` — the condition.

Main results:

* `NewApi.nextReset_eq_midnight` — the next reset of a calendar period is the midnight of the next
  day it resets on;
* `NewApi.resetEnds_const` — where the offset never changes, calendar periods lead forward;
* `NewApi.due_check_ends` — **the loop ends after the present where the steps lead forward**;
* `NewApi.wrapped_period_hangs` — a period the loop does not get past.
-/

import NewApi.CivilCalendar
import NewApi.MaintenanceLoops

set_option autoImplicit false

namespace NewApi

/-! ### Midnights -/

/-- The day the local calendar shows, counted from the epoch. -/
def localDay (loc : Location) (t : ℤ) : ℤ := (localDate loc t).days

/-- The instant `time.Date` gives for the midnight at which a day begins. -/
def midnight (loc : Location) (day : ℤ) : ℤ := date loc 1970 1 (day + 1) 0

/-- The local clock shows midnight at that instant. -/
def ShowsMidnight (loc : Location) (day : ℤ) : Prop :=
  midnight loc day + (loc.lookup (midnight loc day)).offset = day * 86400

/-- A day begins at the instant `time.Date` gives for its midnight. -/
structure KeepsMidnight (loc : Location) (day : ℤ) : Prop where
  shows : ShowsMidnight loc day
  begins : ∀ t, midnight loc day ≤ t ↔ day ≤ localDay loc t

section Midnights

variable {loc : Location}

theorem daysFromCivil_epoch (day : ℤ) : daysFromCivil 1970 1 (day + 1) = day := by
  simp only [daysFromCivil]
  omega

/-- The midnight of a date is that of its day. -/
theorem date_eq_midnight (year month day : ℤ) :
    date loc year month day 0 =
      midnight loc (daysFromCivil (year + (month - 1) / 12) ((month - 1) % 12 + 1) day) := by
  simp only [midnight, date]
  norm_num [daysFromCivil_epoch]

/-- The clock reading at a midnight that is shown. -/
theorem localDate_midnight {day : ℤ} (h : ShowsMidnight loc day) :
    localDate loc (midnight loc day) =
      { year := (civilFromDays day).1, month := (civilFromDays day).2.1
        day := (civilFromDays day).2.2, secondOfDay := 0, days := day } := by
  have hday : day * 86400 / 86400 = day := by omega
  have hsecond : day * 86400 % 86400 = 0 := by omega
  unfold ShowsMidnight at h
  simp only [localDate, h, hday, hsecond]

theorem localDay_midnight {day : ℤ} (h : ShowsMidnight loc day) :
    localDay loc (midnight loc day) = day := by
  rw [localDay, localDate_midnight h]

/-- Adding days to a midnight gives the midnight of a later day. -/
theorem addDate_days {day : ℤ} (h : ShowsMidnight loc day) (days : ℤ) :
    addDate loc (midnight loc day) 0 0 days = midnight loc (day + days) := by
  obtain ⟨hlow, hhigh, hdays, -, -⟩ := civilFromDays_month day
  rw [addDate, localDate_midnight h]
  simp only [add_zero]
  rw [date_eq_midnight, daysFromCivil_eq]
  have hyear : ((civilFromDays day).2.1 - 1) / 12 = 0 := by omega
  have hmonth : ((civilFromDays day).2.1 - 1) % 12 + 1 = (civilFromDays day).2.1 := by omega
  rw [hyear, hmonth, add_zero]
  congr 1
  omega

/-- Adding a month to the midnight of a first gives that of the next first. -/
theorem addDate_month {day : ℤ} (h : ShowsMidnight loc day) (hfirst : (civilFromDays day).2.2 = 1) :
    addDate loc (midnight loc day) 0 1 0 = midnight loc
      (monthStart (monthNumber (civilFromDays day).1 (civilFromDays day).2.1 + 1)) := by
  obtain ⟨hlow, hhigh, -, -, -⟩ := civilFromDays_month day
  rw [addDate, localDate_midnight h]
  simp only [add_zero]
  have hmonth : (civilFromDays day).2.1 + 1 - 1 = (civilFromDays day).2.1 := by omega
  rw [date_eq_midnight, daysFromCivil_eq, hfirst, add_sub_cancel_right, hmonth,
    monthNumber_succ hlow hhigh]

/-- Where the offset never changes every day begins at its midnight. -/
theorem keepsMidnight_of_const {zone : Zone} (h : ∀ t, loc.lookup t = zone) (day : ℤ) :
    KeepsMidnight loc day := by
  have hmidnight : midnight loc day = day * 86400 - zone.offset := by
    simp only [midnight, date, h]
    norm_num [daysFromCivil_epoch]
    omega
  refine ⟨?_, ?_⟩
  · rw [ShowsMidnight, h, hmidnight]
    omega
  · intro t
    rw [hmidnight]
    simp only [localDay, localDate, h]
    omega

end Midnights

/-! ### Days a period resets on -/

namespace ResetPeriod

/-- Whether the period follows the calendar. -/
def IsCalendar (period : ResetPeriod) : Prop :=
  period = .daily ∨ period = .weekly ∨ period = .monthly

/-- Whether the period resets at the beginning of the day. -/
def Resets : ResetPeriod → ℤ → Prop
  | .daily, _ => True
  | .weekly, day => (day + 4) % 7 = 1
  | .monthly, day => (civilFromDays day).2.2 = 1
  | .never, _ => False
  | .custom, _ => False

/-- The day from whose midnight the next reset is computed. -/
def anchor : ResetPeriod → ℤ → ℤ
  | .monthly, day => day - (civilFromDays day).2.2 + 1
  | _, day => day

/-- The next day the period resets on. -/
def following : ResetPeriod → ℤ → ℤ
  | .weekly, day => day + (8 - (if (day + 4) % 7 = 0 then 7 else (day + 4) % 7))
  | .monthly, day =>
    monthStart (monthNumber (civilFromDays day).1 (civilFromDays day).2.1 + 1)
  | _, day => day + 1

/-- The day after which the next one is counted is where a period that resets on it begins. -/
theorem anchor_of_resets {period : ResetPeriod} {day : ℤ} (h : period.Resets day) :
    period.anchor day = day := by
  cases period with
  | monthly =>
    have hday : (civilFromDays day).2.2 = 1 := h
    simp only [anchor, hday]
    omega
  | _ => rfl

/-- The next day lies ahead, the period resets on it, and on no day in between. -/
theorem following_spec {period : ResetPeriod} (hperiod : period.IsCalendar) (day : ℤ) :
    day < period.following day ∧ period.Resets (period.following day) ∧
      ∀ later, day < later → period.Resets later → period.following day ≤ later := by
  obtain rfl | rfl | rfl := hperiod
  · refine ⟨by simp [following], trivial, ?_⟩
    intro later hlater _
    exact hlater
  · simp only [following, Resets]
    refine ⟨by split <;> omega, by split <;> omega, ?_⟩
    intro later hlater hresets
    split <;> omega
  · obtain ⟨hlow, hhigh, hdays, hday, hlt⟩ := civilFromDays_month day
    simp only [following, Resets]
    refine ⟨hlt, ?_, ?_⟩
    · rw [← monthNumber_succ hlow hhigh, civilFromDays_monthStart (by omega) (by omega)]
    · intro later hlater hfirst
      -- the first of a month that is not after the next first belongs to the month of `day`
      obtain ⟨-, -, hdays', -, -⟩ := civilFromDays_month later
      rw [hfirst] at hdays'
      generalize monthNumber (civilFromDays later).1 (civilFromDays later).2.1 = n' at hdays'
      generalize monthNumber (civilFromDays day).1 (civilFromDays day).2.1 = n at hdays hlt ⊢
      have hnumber : n < n' := monthStart_strictMono.lt_iff_lt.1 (by omega)
      have := monthStart_strictMono.monotone (show n + 1 ≤ n' by omega)
      omega

end ResetPeriod

/-- The next reset of a calendar period is the midnight of the next day it resets on. -/
theorem nextReset_eq_midnight {loc : Location} {plan : SubscriptionPlan} {period : ResetPeriod}
    (hperiod : period.IsCalendar) {base : ℤ}
    (hanchor : ShowsMidnight loc (period.anchor (localDay loc base))) :
    nextReset loc base plan period =
      some (midnight loc (period.following (localDay loc base))) := by
  obtain ⟨hlow, hhigh, hdays, hday, hlt⟩ := civilFromDays_month (localDay loc base)
  have hyear : ((civilFromDays (localDay loc base)).2.1 - 1) / 12 = 0 := by omega
  have hmonth : ((civilFromDays (localDay loc base)).2.1 - 1) % 12 + 1 =
      (civilFromDays (localDay loc base)).2.1 := by omega
  have hown : date loc (localDate loc base).year (localDate loc base).month
      (localDate loc base).day 0 = midnight loc (localDay loc base) := by
    show date loc (civilFromDays (localDay loc base)).1 (civilFromDays (localDay loc base)).2.1
      (civilFromDays (localDay loc base)).2.2 0 = _
    rw [date_eq_midnight, hyear, hmonth, add_zero, daysFromCivil_civilFromDays]
  obtain rfl | rfl | rfl := hperiod
  · have hday : ShowsMidnight loc (localDay loc base) := hanchor
    simp only [nextReset, hown]
    rw [addDate_days hday]
    rfl
  · have hday : ShowsMidnight loc (localDay loc base) := hanchor
    simp only [nextReset, hown]
    rw [addDate_days hday]
    rfl
  · have hfirst : localDay loc base - (civilFromDays (localDay loc base)).2.2 + 1 =
        monthStart (monthNumber (civilFromDays (localDay loc base)).1
          (civilFromDays (localDay loc base)).2.1) := by omega
    have hmidnight : date loc (localDate loc base).year (localDate loc base).month 1 0 =
        midnight loc (ResetPeriod.monthly.anchor (localDay loc base)) := by
      show date loc (civilFromDays (localDay loc base)).1 (civilFromDays (localDay loc base)).2.1
        1 0 = _
      rw [date_eq_midnight, hyear, hmonth, add_zero, daysFromCivil_eq]
      simp only [ResetPeriod.anchor, hfirst, add_sub_cancel_right]
    have hcivil := @civilFromDays_monthStart (civilFromDays (localDay loc base)).1 _ hlow hhigh
    simp only [nextReset, hmidnight]
    rw [addDate_month hanchor]
    · simp only [ResetPeriod.anchor, ResetPeriod.following, hfirst, hcivil]
    · simp only [ResetPeriod.anchor, hfirst, hcivil]

/-! ### What the due check promises -/

/-- A plan whose reset period the administration accepts. -/
def SubscriptionPlan.AcceptsReset (plan : SubscriptionPlan) : Prop :=
  normalizeResetPeriod plan.quotaResetPeriod = .custom →
    0 < plan.quotaResetCustomSeconds ∧ plan.quotaResetCustomSeconds < 2 ^ 63

/-- The instants at which the period of a plan asks for a reset of what was last reset at `base`:
the multiples of a custom period, and otherwise the first instants of the days it resets on. -/
def IsBoundary (loc : Location) (plan : SubscriptionPlan) (base t : ℤ) : Prop :=
  match normalizeResetPeriod plan.quotaResetPeriod with
  | .never => False
  | .custom => ∃ k : ℕ, t = base + (k + 1) * plan.quotaResetCustomSeconds
  | period => (∀ u, u < t → localDay loc u < localDay loc t) ∧ period.Resets (localDay loc t)

/-- A boundary lies between the last reset and the present. -/
def BoundaryPassed (loc : Location) (plan : SubscriptionPlan) (sub : UserSubscription) (now : ℤ) :
    Prop :=
  ∃ t, IsBoundary loc plan sub.resetBase t ∧ sub.resetBase < t ∧ t ≤ now

/-- The row `sub'` is `sub` after a reset, or with its next reset scheduled. -/
structure ResetLands (loc : Location) (plan : SubscriptionPlan) (sub : UserSubscription) (now : ℤ)
    (sub' : UserSubscription) : Prop where
  past : sub'.lastResetTime ≤ now
  forward : sub.lastResetTime ≤ sub'.lastResetTime
  ahead : sub'.nextResetTime = 0 ∨ now < sub'.nextResetTime
  zeroed : BoundaryPassed loc plan sub now → sub'.amountUsed = 0
  kept : ¬ BoundaryPassed loc plan sub now → sub'.amountUsed = sub.amountUsed

/-- The due check ends, and where it changes the row it lands after the present. -/
def ResetEnds (loc : Location) (plan : SubscriptionPlan) (sub : UserSubscription) (now : ℤ) :
    Prop :=
  ∃ rounds, ∀ fuel, rounds ≤ fuel → ∀ saveFault t,
    maybeResetUserSubscriptionWithPlanTx loc fuel saveFault sub plan now t ≠ .error .hang ∧
      ∀ sub' t', maybeResetUserSubscriptionWithPlanTx loc fuel saveFault sub plan now t =
        .ok (sub', t') → sub' ≠ sub → ResetLands loc plan sub now sub'

/-! ### The condition -/

/-- The seconds a custom period adds, once it is a duration of 64 bits in nanoseconds. -/
def SubscriptionPlan.wrappedSeconds (plan : SubscriptionPlan) : ℤ :=
  wrap64 (plan.quotaResetCustomSeconds * 1000000000) / 1000000000

/-- The last reset is not in the future, unless the next one is scheduled. -/
structure RowFits (sub : UserSubscription) (now : ℤ) : Prop where
  base : sub.lastResetTime ≤ sub.resetBase
  past : sub.resetBase ≤ now ∨ sub.nextResetTime ≠ 0

/-- The custom period that is added falls due, or is scheduled, as the one of the plan is. -/
structure SecondsFit (plan : SubscriptionPlan) (sub : UserSubscription) (now : ℤ) : Prop where
  due : Reached now (sub.resetBase + plan.wrappedSeconds) →
    (0 < sub.endTime → sub.resetBase + plan.wrappedSeconds ≤ sub.endTime) →
      0 < plan.wrappedSeconds ∧ sub.resetBase + plan.quotaResetCustomSeconds ≤ now
  ahead : sub.nextResetTime = 0 → now < sub.resetBase + plan.wrappedSeconds →
    (0 < sub.endTime → sub.resetBase + plan.wrappedSeconds ≤ sub.endTime) →
      now < sub.resetBase + plan.quotaResetCustomSeconds

/-- The days on which the period resets begin at midnight, from the last reset until now; the
midnight of a day that the clock has not reached is ahead. -/
structure MidnightsFit (loc : Location) (period : ResetPeriod) (base now : ℤ) : Prop where
  shows : ShowsMidnight loc (period.anchor (localDay loc base))
  reached : ∀ day, period.Resets day → localDay loc base < day →
    (∃ t, base ≤ t ∧ t ≤ now ∧ day ≤ localDay loc t) → KeepsMidnight loc day
  ahead : ∀ day, period.Resets day → localDay loc base < day →
    (¬ ∃ t, base ≤ t ∧ t ≤ now ∧ day ≤ localDay loc t) → now < midnight loc day

/-- The next reset is scheduled and ahead, or the steps of the period lead forward. -/
def ResetFits (loc : Location) (plan : SubscriptionPlan) (sub : UserSubscription) (now : ℤ) :
    Prop :=
  (0 < sub.nextResetTime ∧ now < sub.nextResetTime) ∨
    match normalizeResetPeriod plan.quotaResetPeriod with
    | .never => True
    | .custom => RowFits sub now ∧ SecondsFit plan sub now
    | period => RowFits sub now ∧ MidnightsFit loc period sub.resetBase now

section DueCheck

variable {loc : Location} {plan : SubscriptionPlan} {sub : UserSubscription} {now : ℤ}

/-- A duration that fits is the period of the plan. -/
theorem wrappedSeconds_eq (h : 0 < plan.quotaResetCustomSeconds)
    (hfits : plan.quotaResetCustomSeconds * 1000000000 < 2 ^ 63) :
    plan.wrappedSeconds = plan.quotaResetCustomSeconds := by
  unfold SubscriptionPlan.wrappedSeconds wrap64
  rw [Int.bmod_eq_of_le (by omega) (by omega)]
  omega

theorem secondsFit_of_lt (h : 0 < plan.quotaResetCustomSeconds)
    (hfits : plan.quotaResetCustomSeconds * 1000000000 < 2 ^ 63) : SecondsFit plan sub now := by
  refine ⟨?_, ?_⟩
  · intro hdue _
    rw [wrappedSeconds_eq h hfits] at hdue ⊢
    exact ⟨h, hdue.2⟩
  · intro _ hahead _
    rwa [wrappedSeconds_eq h hfits] at hahead

/-- **The loop ends** if every reset that has been reached is later than the one before it: the
resets it passes satisfy `R`, and it stops at the first one that is not due. -/
theorem resetLoop_leaves {endTime : ℤ} {R : ℤ → Prop}
    (hstep : ∀ x, R x → Reached now (calcNextResetTime loc x plan endTime) →
      x < calcNextResetTime loc x plan endTime ∧ R (calcNextResetTime loc x plan endTime)) :
    ∀ (fuel : ℕ) (advanced : Bool) (x : ℤ), R x → (now - x).toNat < fuel →
      ∃ b, resetLoop loc plan endTime now fuel advanced x (calcNextResetTime loc x plan endTime) =
          some (advanced || decide (Reached now (calcNextResetTime loc x plan endTime)), b,
            calcNextResetTime loc b plan endTime) ∧
        R b ∧ ¬ Reached now (calcNextResetTime loc b plan endTime) ∧
        (Reached now (calcNextResetTime loc x plan endTime) → x < b ∧ 0 < b ∧ b ≤ now) ∧
        (¬ Reached now (calcNextResetTime loc x plan endTime) → b = x) := by
  intro fuel
  induction fuel with
  | zero =>
    intro advanced x _ hfuel
    omega
  | succ fuel ih =>
    intro advanced x hx hfuel
    by_cases hdue : Reached now (calcNextResetTime loc x plan endTime)
    · obtain ⟨hlt, hR⟩ := hstep x hx hdue
      obtain ⟨hpos, hle⟩ := hdue
      -- the next reset is nearer to the present
      obtain ⟨b, hloop, hb, hleft, hlater, hsame⟩ := ih true _ hR (by omega)
      refine ⟨b, ?_, hb, hleft, ?_, fun hno => absurd ⟨hpos, hle⟩ hno⟩
      · simp only [resetLoop]
        rw [if_pos ⟨hpos, hle⟩, hloop]
        simp [Reached, hpos, hle]
      · intro _
        by_cases hagain : Reached now (calcNextResetTime loc
            (calcNextResetTime loc x plan endTime) plan endTime)
        · obtain ⟨hlater', hpos', hle'⟩ := hlater hagain
          exact ⟨by omega, hpos', hle'⟩
        · rw [hsame hagain]
          exact ⟨hlt, hpos, hle⟩
    · refine ⟨x, ?_, hx, hdue, fun h => absurd h hdue, fun _ => rfl⟩
      simp only [resetLoop]
      rw [if_neg (by exact hdue)]
      simp [hdue]

/-- The due check ends and lands where it should if the steps lead forward, the first of them is a
boundary where it is due, and there is no boundary before it where it is ahead. -/
theorem resetEnds_of_steps {R : ℤ → Prop} (hrow : RowFits sub now) (hbase : R sub.resetBase)
    (hstep : ∀ x, R x → Reached now (calcNextResetTime loc x plan sub.endTime) →
      x < calcNextResetTime loc x plan sub.endTime ∧
        R (calcNextResetTime loc x plan sub.endTime))
    (hpos : ∀ x, R x → 0 < x → x ≤ now → sub.resetBase < x →
      0 ≤ calcNextResetTime loc x plan sub.endTime)
    (hdue : Reached now (calcNextResetTime loc sub.resetBase plan sub.endTime) →
      BoundaryPassed loc plan sub now)
    (hahead : sub.nextResetTime = 0 → 0 < calcNextResetTime loc sub.resetBase plan sub.endTime →
      now < calcNextResetTime loc sub.resetBase plan sub.endTime →
        ¬ BoundaryPassed loc plan sub now) :
    ResetEnds loc plan sub now := by
  refine ⟨(now - sub.resetBase).toNat + 1, ?_⟩
  intro fuel hfuel saveFault t
  obtain ⟨b, hloop, hb, hleft, hlater, hsame⟩ :=
    resetLoop_leaves hstep fuel false sub.resetBase hbase (by omega)
  have houtcome : ∀ o, resetOutcome loc fuel sub plan now = o → o ≠ .hang ∧
      (o.apply sub ≠ sub → ResetLands loc plan sub now (o.apply sub)) := by
    intro o ho
    unfold resetOutcome at ho
    by_cases hwaiting : 0 < sub.nextResetTime ∧ now < sub.nextResetTime
    · rw [if_pos hwaiting] at ho
      subst ho
      exact ⟨by simp, fun h => absurd rfl h⟩
    rw [if_neg hwaiting] at ho
    by_cases hnever : normalizeResetPeriod plan.quotaResetPeriod = .never
    · rw [if_pos hnever] at ho
      subst ho
      exact ⟨by simp, fun h => absurd rfl h⟩
    rw [if_neg hnever] at ho
    have hbaseUnix : (if sub.lastResetTime ≤ 0 then sub.startTime else sub.lastResetTime) =
        sub.resetBase := rfl
    simp only [hbaseUnix, hloop, Bool.false_or, decide_eq_true_eq] at ho
    by_cases hreached : Reached now (calcNextResetTime loc sub.resetBase plan sub.endTime)
    · rw [if_pos hreached] at ho
      subst ho
      obtain ⟨hlt, hpos', hle⟩ := hlater hreached
      have hnonneg := hpos b hb hpos' hle hlt
      generalize calcNextResetTime loc b plan sub.endTime = next at hleft hnonneg ⊢
      refine ⟨by simp, fun _ => ⟨hle, ?_, ?_, fun _ => rfl, fun h => absurd (hdue hreached) h⟩⟩
      · show sub.lastResetTime ≤ b
        have := hrow.base
        omega
      · show next = 0 ∨ now < next
        unfold Reached at hleft
        omega
    · rw [if_neg hreached] at ho
      obtain rfl := hsame hreached
      by_cases hschedule : sub.nextResetTime = 0 ∧
          0 < calcNextResetTime loc sub.resetBase plan sub.endTime
      · rw [if_pos hschedule] at ho
        subst ho
        have hnow : now < calcNextResetTime loc sub.resetBase plan sub.endTime := by
          unfold Reached at hreached
          omega
        have hnot := hahead hschedule.1 hschedule.2 hnow
        generalize calcNextResetTime loc sub.resetBase plan sub.endTime = next at hnow ⊢
        refine ⟨by simp, fun _ => ⟨?_, hrow.base, .inr hnow, fun h => absurd h hnot,
          fun _ => rfl⟩⟩
        exact hrow.past.resolve_right (by simp [hschedule.1])
      · rw [if_neg hschedule] at ho
        subst ho
        exact ⟨by simp, fun h => absurd rfl h⟩
  obtain ⟨hhang, hlands⟩ := houtcome _ rfl
  unfold maybeResetUserSubscriptionWithPlanTx
  cases hout : resetOutcome loc fuel sub plan now with
  | hang => exact absurd hout hhang
  | keep =>
    refine ⟨by simp, ?_⟩
    intro sub' t' heq hne
    simp only [Except.ok.injEq, Prod.mk.injEq] at heq
    exact absurd heq.1.symm hne
  | schedule base next | reset base next =>
    rw [hout] at hlands
    refine ⟨by cases saveFault <;> simp, ?_⟩
    intro sub' t' heq hne
    obtain ⟨-, heq⟩ := guardFault_eq_ok.1 heq
    simp only [Except.ok.injEq, Prod.mk.injEq] at heq
    obtain ⟨rfl, -⟩ := heq
    exact hlands hne

/-- A due check that leaves the row alone. -/
theorem resetEnds_of_keep (h : ∀ fuel, resetOutcome loc fuel sub plan now = .keep) :
    ResetEnds loc plan sub now := by
  refine ⟨0, ?_⟩
  intro fuel _ saveFault t
  unfold maybeResetUserSubscriptionWithPlanTx
  rw [h fuel]
  refine ⟨by simp, ?_⟩
  intro sub' t' heq hne
  simp only [Except.ok.injEq, Prod.mk.injEq] at heq
  exact absurd heq.1.symm hne

/-! ### Custom periods -/

/-- The next reset of a custom period, before it is cut at the end. -/
theorem calcNextResetTime_custom
    (hperiod : normalizeResetPeriod plan.quotaResetPeriod = .custom)
    (hq : 0 < plan.quotaResetCustomSeconds) (base endTime : ℤ) :
    calcNextResetTime loc base plan endTime =
      if 0 < endTime ∧ endTime < base + plan.wrappedSeconds then 0
      else base + plan.wrappedSeconds := by
  have hadd : addSeconds base plan.quotaResetCustomSeconds 1 = base + plan.wrappedSeconds := by
    rw [addSeconds, SubscriptionPlan.wrappedSeconds, mul_one]
  simp only [calcNextResetTime, hperiod, nextReset]
  rw [if_neg (by omega), hadd]

/-- Some boundary of a custom period has passed exactly if the first has. -/
theorem boundaryPassed_custom (hperiod : normalizeResetPeriod plan.quotaResetPeriod = .custom)
    (hq : 0 < plan.quotaResetCustomSeconds) :
    BoundaryPassed loc plan sub now ↔ sub.resetBase + plan.quotaResetCustomSeconds ≤ now := by
  unfold BoundaryPassed IsBoundary
  simp only [hperiod]
  constructor
  · rintro ⟨t, ⟨k, rfl⟩, -, hle⟩
    have hk : plan.quotaResetCustomSeconds ≤ (k + 1) * plan.quotaResetCustomSeconds := by
      nlinarith [Int.natCast_nonneg k]
    omega
  · intro hle
    exact ⟨_, ⟨0, rfl⟩, by simpa using hq, by simpa using hle⟩

/-- A custom period whose steps lead forward. -/
theorem resetEnds_custom (hperiod : normalizeResetPeriod plan.quotaResetPeriod = .custom)
    (hq : 0 < plan.quotaResetCustomSeconds) (hrow : RowFits sub now)
    (hfit : SecondsFit plan sub now) : ResetEnds loc plan sub now := by
  have hnext := @calcNextResetTime_custom loc plan hperiod hq
  refine resetEnds_of_steps (R := fun x => 0 < plan.wrappedSeconds ∨ x = sub.resetBase) hrow
    (.inr rfl) ?_ ?_ ?_ ?_
  · intro x hx hdue
    rw [hnext] at hdue ⊢
    by_cases hcut : 0 < sub.endTime ∧ sub.endTime < x + plan.wrappedSeconds
    · rw [if_pos hcut] at hdue
      exact absurd hdue.1 (by omega)
    · rw [if_neg hcut] at hdue ⊢
      have hforward : 0 < plan.wrappedSeconds := by
        obtain hforward | rfl := hx
        · exact hforward
        · exact (hfit.due hdue (by omega)).1
      exact ⟨by omega, .inl hforward⟩
  · intro x hx hpos _ hlt
    rw [hnext]
    obtain hforward | rfl := hx
    · split <;> omega
    · omega
  · intro hdue
    rw [hnext] at hdue
    by_cases hcut : 0 < sub.endTime ∧ sub.endTime < sub.resetBase + plan.wrappedSeconds
    · rw [if_pos hcut] at hdue
      exact absurd hdue.1 (by omega)
    · rw [if_neg hcut] at hdue
      exact (boundaryPassed_custom hperiod hq).2 (hfit.due hdue (by omega)).2
  · intro hunset hpos hnow
    rw [hnext] at hpos hnow
    rw [boundaryPassed_custom hperiod hq]
    by_cases hcut : 0 < sub.endTime ∧ sub.endTime < sub.resetBase + plan.wrappedSeconds
    · rw [if_pos hcut] at hpos
      omega
    · rw [if_neg hcut] at hnow
      have := hfit.ahead hunset hnow (by omega)
      omega

/-- A custom period whose steps do not lead forward ends, if at all, before it has begun. -/
theorem resetLoop_back {endTime : ℤ} (hback : plan.wrappedSeconds ≤ 0)
    (hnext : ∀ x, x ≤ sub.resetBase →
      calcNextResetTime loc x plan endTime = x + plan.wrappedSeconds) :
    ∀ (fuel : ℕ) (advanced : Bool) (x : ℤ), x ≤ sub.resetBase →
      Reached now (x + plan.wrappedSeconds) → ∀ a b n,
        resetLoop loc plan endTime now fuel advanced x (x + plan.wrappedSeconds) =
          some (a, b, n) → a = true ∧ b < x := by
  intro fuel
  induction fuel with
  | zero =>
    intro advanced x _ _ a b n h
    simp [resetLoop] at h
  | succ fuel ih =>
    intro advanced x hx hdue a b n h
    simp only [resetLoop] at h
    rw [if_pos (by exact hdue), hnext _ (by omega)] at h
    by_cases hagain : Reached now (x + plan.wrappedSeconds + plan.wrappedSeconds)
    · obtain ⟨ha, hb⟩ := ih true _ (by omega) hagain a b n h
      exact ⟨ha, by omega⟩
    · cases fuel with
      | zero => simp [resetLoop] at h
      | succ fuel =>
        simp only [resetLoop] at h
        rw [if_neg (by exact hagain)] at h
        simp only [Option.some.injEq, Prod.mk.injEq] at h
        obtain ⟨ha, hb, -⟩ := h
        refine ⟨ha.symm, ?_⟩
        -- a step of no seconds would be due again
        obtain hzero | hneg : plan.wrappedSeconds = 0 ∨ plan.wrappedSeconds < 0 := by omega
        · rw [hzero, add_zero] at hdue hagain
          exact absurd (by simpa using hdue) hagain
        · omega

/-- Where the due check ends as promised, its outcome does. -/
theorem outcome_of_resetEnds (h : ResetEnds loc plan sub now) :
    ∃ rounds, ∀ fuel, rounds ≤ fuel → resetOutcome loc fuel sub plan now ≠ .hang ∧
      ((resetOutcome loc fuel sub plan now).apply sub ≠ sub →
        ResetLands loc plan sub now ((resetOutcome loc fuel sub plan now).apply sub)) := by
  obtain ⟨rounds, h⟩ := h
  refine ⟨rounds, ?_⟩
  intro fuel hfuel
  obtain ⟨hhang, hlands⟩ := h fuel hfuel none (Tables.empty fun _ => "")
  unfold maybeResetUserSubscriptionWithPlanTx at hhang hlands
  cases hout : resetOutcome loc fuel sub plan now with
  | hang =>
    rw [hout] at hhang
    exact absurd rfl hhang
  | keep => exact ⟨by simp, fun h => absurd rfl h⟩
  | schedule base next | reset base next =>
    rw [hout] at hlands
    exact ⟨by simp, fun h => hlands _ _ rfl h⟩

/-- A custom period with which the due check ends as promised: the seconds that are added fit. -/
theorem resetFits_custom (hperiod : normalizeResetPeriod plan.quotaResetPeriod = .custom)
    (hq : 0 < plan.quotaResetCustomSeconds) (hlast : 0 < sub.lastResetTime)
    (hpast : sub.lastResetTime ≤ now) (hused : sub.amountUsed ≠ 0)
    (h : ResetEnds loc plan sub now) : ResetFits loc plan sub now := by
  have hnext := @calcNextResetTime_custom loc plan hperiod hq
  have hbase : sub.resetBase = sub.lastResetTime := if_neg (by omega)
  by_cases hwaiting : 0 < sub.nextResetTime ∧ now < sub.nextResetTime
  · exact .inl hwaiting
  refine .inr ?_
  rw [hperiod]
  obtain ⟨rounds, h⟩ := outcome_of_resetEnds h
  -- the outcome, once the rows that are not looked at are set aside
  have hhangs : ∀ fuel, resetLoop loc plan sub.endTime now fuel false sub.resetBase
      (calcNextResetTime loc sub.resetBase plan sub.endTime) = none →
      resetOutcome loc fuel sub plan now = .hang := by
    intro fuel hres
    unfold UserSubscription.resetBase at hres
    simp only [resetOutcome, if_neg hwaiting, hperiod, hres, reduceCtorEq, if_false]
  have hends : ∀ fuel advanced base next,
      resetLoop loc plan sub.endTime now fuel false sub.resetBase
        (calcNextResetTime loc sub.resetBase plan sub.endTime) = some (advanced, base, next) →
      resetOutcome loc fuel sub plan now =
        if advanced then .reset base next
        else if sub.nextResetTime = 0 ∧ 0 < next then .schedule base next
        else .keep := by
    intro fuel advanced base next hres
    unfold UserSubscription.resetBase at hres
    simp only [resetOutcome, if_neg hwaiting, hperiod, hres, reduceCtorEq, if_false]
  refine ⟨⟨by omega, .inl (by omega)⟩, ?_, ?_⟩
  · intro hdue hcut
    have hfirst : calcNextResetTime loc sub.resetBase plan sub.endTime =
        sub.resetBase + plan.wrappedSeconds := by
      rw [hnext, if_neg (by omega)]
    have hforward : 0 < plan.wrappedSeconds := by
      by_contra hback
      obtain ⟨hhang, hlands⟩ := h rounds le_rfl
      cases hres : resetLoop loc plan sub.endTime now rounds false sub.resetBase
          (sub.resetBase + plan.wrappedSeconds) with
      | none => exact hhang (hhangs rounds (by rw [hfirst, hres]))
      | some result =>
        obtain ⟨a, b, n⟩ := result
        have hall : ∀ x, x ≤ sub.resetBase →
            calcNextResetTime loc x plan sub.endTime = x + plan.wrappedSeconds := by
          intro x hx
          rw [hnext, if_neg (by omega)]
        obtain ⟨rfl, hb⟩ := @resetLoop_back loc plan sub now sub.endTime (by omega) hall rounds
          false sub.resetBase le_rfl hdue a b n hres
        rw [hends rounds true b n (by rw [hfirst, hres])] at hlands
        have hmoved : b ≠ sub.lastResetTime := by omega
        have hforward := (hlands fun heq => hmoved (congrArg (·.lastResetTime) heq)).forward
        have hle : sub.lastResetTime ≤ b := hforward
        omega
    refine ⟨hforward, ?_⟩
    have hstep : ∀ x, True → Reached now (calcNextResetTime loc x plan sub.endTime) →
        x < calcNextResetTime loc x plan sub.endTime ∧ True := by
      intro x _ hx
      rw [hnext] at hx ⊢
      unfold Reached at hx
      split at hx
      · omega
      · rename_i hopen
        rw [if_neg hopen]
        exact ⟨by omega, trivial⟩
    obtain ⟨b, hres, -, -, hlater, -⟩ := resetLoop_leaves hstep
      (rounds + (now - sub.resetBase).toNat + 1) false sub.resetBase trivial (by omega)
    rw [hfirst] at hres hlater
    obtain ⟨-, hlands⟩ := h (rounds + (now - sub.resetBase).toNat + 1) (by omega)
    rw [hends _ _ _ _ (by rw [hfirst, hres])] at hlands
    simp only [Bool.false_or, decide_eq_true hdue, if_true] at hlands
    have hmoved : b ≠ sub.lastResetTime := by
      have := (hlater hdue).1
      omega
    have hkept := (hlands fun heq => hmoved (congrArg (·.lastResetTime) heq)).kept
    rw [boundaryPassed_custom hperiod hq] at hkept
    by_contra hnot
    have hzero : (0 : ℤ) = sub.amountUsed := hkept hnot
    omega
  · intro hunset hahead hcut
    have hfirst : calcNextResetTime loc sub.resetBase plan sub.endTime =
        sub.resetBase + plan.wrappedSeconds := by
      rw [hnext, if_neg (by omega)]
    have hnot : ¬ (0 < sub.resetBase + plan.wrappedSeconds ∧
        sub.resetBase + plan.wrappedSeconds ≤ now) := by omega
    obtain ⟨-, hlands⟩ := h (rounds + 1) (by omega)
    have hstays : resetLoop loc plan sub.endTime now (rounds + 1) false sub.resetBase
        (sub.resetBase + plan.wrappedSeconds) =
          some (false, sub.resetBase, sub.resetBase + plan.wrappedSeconds) := by
      simp only [resetLoop]
      rw [if_neg hnot]
    rw [hends _ _ _ _ (by rw [hfirst, hstays])] at hlands
    simp only [Bool.false_eq_true, if_false] at hlands
    rw [if_pos ⟨hunset, by omega⟩] at hlands
    have hmoved : sub.resetBase + plan.wrappedSeconds ≠ sub.nextResetTime := by omega
    have hzeroed := (hlands fun heq => hmoved (congrArg (·.nextResetTime) heq)).zeroed
    rw [boundaryPassed_custom hperiod hq] at hzeroed
    by_contra hnow
    have hzero : sub.amountUsed = 0 := hzeroed (by omega)
    exact hused hzero

/-! ### Calendar periods -/

/-- Where every day begins at its midnight, those a period resets on do. -/
theorem midnightsFit_of_keeps (h : ∀ day, KeepsMidnight loc day) (period : ResetPeriod)
    (base : ℤ) : MidnightsFit loc period base now := by
  refine ⟨(h _).shows, fun day _ _ _ => h day, ?_⟩
  intro day _ hlt hclock
  by_contra hcome
  have hday := ((h day).begins now).1 (by omega)
  obtain hle | hlt' : base ≤ now ∨ now < base := by omega
  · exact hclock ⟨now, hle, le_rfl, hday⟩
  · have := ((h day).begins base).1 (by omega)
    omega

/-- A calendar period whose days begin at their midnights. -/
theorem resetEnds_calendar {period : ResetPeriod} (hcalendar : period.IsCalendar)
    (hperiod : normalizeResetPeriod plan.quotaResetPeriod = period) (hrow : RowFits sub now)
    (hfit : MidnightsFit loc period sub.resetBase now) : ResetEnds loc plan sub now := by
  have hspec := fun day => ResetPeriod.following_spec hcalendar day
  -- from an instant whose anchor is shown the step leads to the midnight of the following day
  have hnext : ∀ x, ShowsMidnight loc (period.anchor (localDay loc x)) →
      calcNextResetTime loc x plan sub.endTime =
        if 0 < sub.endTime ∧ sub.endTime < midnight loc (period.following (localDay loc x)) then 0
        else midnight loc (period.following (localDay loc x)) := by
    intro x hanchor
    simp only [calcNextResetTime, hperiod, nextReset_eq_midnight hcalendar hanchor]
  -- the days whose midnight has come are days the clock has reached
  have hreached : ∀ day, period.Resets day → localDay loc sub.resetBase < day →
      midnight loc day ≤ now → KeepsMidnight loc day := by
    intro day hresets hlt hle
    by_cases hclock : ∃ t, sub.resetBase ≤ t ∧ t ≤ now ∧ day ≤ localDay loc t
    · exact hfit.reached day hresets hlt hclock
    · have := hfit.ahead day hresets hlt hclock
      omega
  let R : ℤ → Prop := fun x => ShowsMidnight loc (period.anchor (localDay loc x)) ∧
    localDay loc sub.resetBase ≤ localDay loc x
  have hstep : ∀ x, R x → Reached now (calcNextResetTime loc x plan sub.endTime) →
      x < calcNextResetTime loc x plan sub.endTime ∧
        R (calcNextResetTime loc x plan sub.endTime) := by
    rintro x ⟨hanchor, hday⟩ hdue
    obtain ⟨hlt, hresets, -⟩ := hspec (localDay loc x)
    rw [hnext x hanchor] at hdue ⊢
    by_cases hcut : 0 < sub.endTime ∧
        sub.endTime < midnight loc (period.following (localDay loc x))
    · rw [if_pos hcut] at hdue
      exact absurd hdue.1 (by omega)
    rw [if_neg hcut] at hdue ⊢
    have hkeeps := hreached _ hresets (by omega) hdue.2
    refine ⟨?_, ?_, ?_⟩
    · have := (hkeeps.begins x).1
      by_contra hnot
      have := this (by omega)
      omega
    · rw [localDay_midnight hkeeps.shows, ResetPeriod.anchor_of_resets hresets]
      exact hkeeps.shows
    · rw [localDay_midnight hkeeps.shows]
      omega
  refine resetEnds_of_steps (R := R) hrow ⟨hfit.shows, le_rfl⟩ hstep ?_ ?_ ?_
  · rintro x ⟨hanchor, hday⟩ hpos hle -
    obtain ⟨hlt, hresets, -⟩ := hspec (localDay loc x)
    rw [hnext x hanchor]
    split
    · exact le_rfl
    · by_cases hcome : midnight loc (period.following (localDay loc x)) ≤ now
      · -- a midnight not after `x` would belong to a day not after that of `x`
        have hkeeps := hreached _ hresets (by omega) hcome
        have := (hkeeps.begins x).1
        by_contra hneg
        have := this (by omega)
        omega
      · omega
  · intro hdue
    obtain ⟨hlt, hresets, -⟩ := hspec (localDay loc sub.resetBase)
    rw [hnext _ hfit.shows] at hdue
    by_cases hcut : 0 < sub.endTime ∧
        sub.endTime < midnight loc (period.following (localDay loc sub.resetBase))
    · rw [if_pos hcut] at hdue
      exact absurd hdue.1 (by omega)
    rw [if_neg hcut] at hdue
    have hkeeps := hreached _ hresets hlt hdue.2
    refine ⟨_, ?_, ?_, hdue.2⟩
    · have hboundary : (∀ u, u < midnight loc (period.following (localDay loc sub.resetBase)) →
          localDay loc u <
            localDay loc (midnight loc (period.following (localDay loc sub.resetBase)))) ∧
          period.Resets
            (localDay loc (midnight loc (period.following (localDay loc sub.resetBase)))) := by
        rw [localDay_midnight hkeeps.shows]
        refine ⟨?_, hresets⟩
        intro u hu
        have := (hkeeps.begins u).2
        by_contra hnot
        have := this (by omega)
        omega
      unfold IsBoundary
      rw [hperiod]
      obtain rfl | rfl | rfl := hcalendar
      · exact hboundary
      · exact hboundary
      · exact hboundary
    · have := (hkeeps.begins sub.resetBase).1
      by_contra hnot
      have := this (by omega)
      omega
  · rintro - hpos hnow ⟨t, hboundary, hlt, hle⟩
    obtain ⟨hday, hresets, hleast⟩ := hspec (localDay loc sub.resetBase)
    have hstart : localDay loc sub.resetBase < localDay loc t ∧
        period.Resets (localDay loc t) := by
      unfold IsBoundary at hboundary
      rw [hperiod] at hboundary
      obtain rfl | rfl | rfl := hcalendar
      · exact ⟨hboundary.1 _ hlt, hboundary.2⟩
      · exact ⟨hboundary.1 _ hlt, hboundary.2⟩
      · exact ⟨hboundary.1 _ hlt, hboundary.2⟩
    rw [hnext _ hfit.shows] at hpos hnow
    by_cases hcut : 0 < sub.endTime ∧
        sub.endTime < midnight loc (period.following (localDay loc sub.resetBase))
    · rw [if_pos hcut] at hpos
      omega
    rw [if_neg hcut] at hnow
    -- the clock reaches the following day at the boundary, so its midnight has come
    have hfollowing := hleast _ hstart.1 hstart.2
    have hkeeps := hfit.reached _ hresets hday ⟨t, by omega, hle, hfollowing⟩
    have := (hkeeps.begins t).2 hfollowing
    omega

/-- Where the offset never changes, a calendar period always leads forward. -/
theorem resetEnds_const {zone : Zone} (hzone : ∀ t, loc.lookup t = zone) {period : ResetPeriod}
    (hcalendar : period.IsCalendar)
    (hperiod : normalizeResetPeriod plan.quotaResetPeriod = period) (hrow : RowFits sub now) :
    ResetEnds loc plan sub now :=
  resetEnds_calendar hcalendar hperiod hrow
    (midnightsFit_of_keeps (keepsMidnight_of_const hzone) period sub.resetBase)

/-- **The loop ends and lands after the present** where the next reset is ahead anyway or the steps
of the period lead forward.  With a custom period nothing less will do, for a subscription that has
been used and was last reset in the past. -/
theorem due_check_ends (hplan : plan.AcceptsReset) :
    (ResetFits loc plan sub now → ResetEnds loc plan sub now) ∧
      (normalizeResetPeriod plan.quotaResetPeriod = .custom → 0 < sub.lastResetTime →
        sub.lastResetTime ≤ now → sub.amountUsed ≠ 0 →
          ResetEnds loc plan sub now → ResetFits loc plan sub now) := by
  refine ⟨?_, fun hperiod hlast hpast hused h =>
    resetFits_custom hperiod (hplan hperiod).1 hlast hpast hused h⟩
  rintro (hwaiting | hfits)
  · exact resetEnds_of_keep fun fuel => by rw [resetOutcome, if_pos hwaiting]
  cases hperiod : normalizeResetPeriod plan.quotaResetPeriod with
  | never =>
    refine resetEnds_of_keep ?_
    intro fuel
    rw [resetOutcome, if_pos hperiod]
    exact ite_self _
  | custom =>
    rw [hperiod] at hfits
    exact resetEnds_custom hperiod (hplan hperiod).1 hfits.1 hfits.2
  | daily =>
    rw [hperiod] at hfits
    exact resetEnds_calendar (.inl rfl) hperiod hfits.1 hfits.2
  | weekly =>
    rw [hperiod] at hfits
    exact resetEnds_calendar (.inr (.inl rfl)) hperiod hfits.1 hfits.2
  | monthly =>
    rw [hperiod] at hfits
    exact resetEnds_calendar (.inr (.inr rfl)) hperiod hfits.1 hfits.2

end DueCheck

/-! ### Periods that fit, and one that does not -/

/-- A plan that resets after a custom number of seconds. -/
def secondsPlan (seconds : ℤ) : SubscriptionPlan where
  id := 1
  title := "Pro"
  durationUnit := "month"
  durationValue := 1
  customSeconds := 0
  maxPurchasePerUser := 0
  upgradeGroup := ""
  totalAmount := 1000
  quotaResetPeriod := "custom"
  quotaResetCustomSeconds := seconds

/-- A subscription of 2026, with its next reset as the purchase computes it. -/
def secondsSub (next : ℤ) : UserSubscription where
  id := 1
  userId := 1
  planId := 1
  amountTotal := 1000
  amountUsed := 10
  startTime := 1767225600
  endTime := 1769904000
  status := .active
  source := "order"
  lastResetTime := 1767225600
  nextResetTime := next
  upgradeGroup := ""
  prevUserGroup := ""

/-- A reset after each day of 86400 seconds, two and a half days later. -/
theorem due_check_ends_daily :
    ResetEnds utc (secondsPlan 86400) (secondsSub 1767312000) 1767441600 := by
  have hperiod : normalizeResetPeriod "custom" = .custom := by decide
  refine (@due_check_ends utc (secondsPlan 86400) (secondsSub 1767312000) 1767441600
    fun _ => ⟨by decide, by decide⟩).1 (.inr ?_)
  show match normalizeResetPeriod "custom" with
    | .never => True
    | .custom => RowFits (secondsSub 1767312000) 1767441600 ∧
        SecondsFit (secondsPlan 86400) (secondsSub 1767312000) 1767441600
    | period => RowFits (secondsSub 1767312000) 1767441600 ∧
        MidnightsFit utc period (secondsSub 1767312000).resetBase 1767441600
  rw [hperiod]
  exact ⟨⟨by decide, .inl (by decide)⟩, secondsFit_of_lt (by decide) (by decide)⟩

/-- A period of 18446744074 seconds is no nanoseconds and a fraction of a second once it has
wrapped: the next reset is the last one, and the loop does not get past it. -/
theorem wrapped_period_hangs :
    (secondsPlan 18446744074).AcceptsReset ∧
      ¬ ResetEnds utc (secondsPlan 18446744074) (secondsSub 1767225600) 1767225600 := by
  refine ⟨fun _ => ⟨by decide, by decide⟩, ?_⟩
  intro h
  have hperiod : normalizeResetPeriod (secondsPlan 18446744074).quotaResetPeriod = .custom := by
    decide
  have hfits := resetFits_custom hperiod (by decide) (by decide) (by decide) (by decide) h
  obtain hwaiting | hfits := hfits
  · exact absurd hwaiting (by decide)
  · rw [hperiod] at hfits
    exact absurd (hfits.2.due (by decide) (by decide)).1 (by decide)

end NewApi
