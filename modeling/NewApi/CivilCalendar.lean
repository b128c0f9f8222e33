/-
**Days and months of the Gregorian calendar.**

`civilFromDays` reads a date off the number of days since the epoch and `daysFromCivil` counts the
days back.  Both count in years that begin in March, so that the leap day is the last of its year.
The months are numbered through by `monthNumber`, and `monthStart` is the first day of each; that a
day lies in the month that `civilFromDays` names is what everything else here follows from.

Main definitions:

* `NewApi.yearStart`, `NewApi.monthStart` — the first day of a year that begins in March, and of a
  month;
* `NewApi.monthNumber` — the months in one row.

Main results:

* `NewApi.civilFromDays_month` — **a day lies in the month of its date**;
* `NewApi.daysFromCivil_civilFromDays` — the days of a date read off a number of days;
* `NewApi.civilFromDays_monthStart` — the date of the first day of a month.
-/

import NewApi.Calendar

set_option autoImplicit false

namespace NewApi

/-! ### Years and months -/

/-- The days from 0000-03-01 to the first of March of a year. -/
def yearStart (year : ℤ) : ℤ := 365 * year + year / 4 - year / 100 + year / 400

/-- The number of a month, counted on from March of the year `0`. -/
def monthNumber (year month : ℤ) : ℤ :=
  12 * (if month ≤ 2 then year - 1 else year) + (month + 9) % 12

/-- The days from 1970-01-01 to the first of a month, given by its number. -/
def monthStart (number : ℤ) : ℤ :=
  yearStart (number / 12) + (153 * (number % 12) + 2) / 5 - 719468

/-- A year has 365 days or 366. -/
theorem yearStart_succ (year : ℤ) :
    yearStart year + 365 ≤ yearStart (year + 1) ∧ yearStart (year + 1) ≤ yearStart year + 366 := by
  unfold yearStart
  omega

/-- A month has 28 days at least. -/
theorem monthStart_succ (number : ℤ) : monthStart number + 28 ≤ monthStart (number + 1) := by
  have hyear := yearStart_succ (number / 12)
  unfold monthStart
  obtain hlast | hlast : number % 12 = 11 ∨ number % 12 < 11 := by omega
  · -- February, after which a new year begins
    have hnext : (number + 1) / 12 = number / 12 + 1 := by omega
    rw [hnext]
    omega
  · have hsame : (number + 1) / 12 = number / 12 := by omega
    rw [hsame]
    omega

theorem monthStart_strictMono : StrictMono monthStart := by
  refine strictMono_int_of_lt_succ ?_
  intro number
  have := monthStart_succ number
  omega

/-- A day lies in one month only. -/
theorem monthStart_unique {number other days : ℤ} (h : monthStart number ≤ days)
    (h' : days < monthStart (number + 1)) (ho : monthStart other ≤ days)
    (ho' : days < monthStart (other + 1)) : number = other := by
  have hlt : number < other + 1 := monthStart_strictMono.lt_iff_lt.1 (by omega)
  have hgt : other < number + 1 := monthStart_strictMono.lt_iff_lt.1 (by omega)
  omega

/-- The days of a date are those of its month's first and of the day within it. -/
theorem daysFromCivil_eq (year month day : ℤ) :
    daysFromCivil year month day = monthStart (monthNumber year month) + day - 1 := by
  simp only [daysFromCivil, monthStart, monthNumber, yearStart]
  generalize (if month ≤ 2 then year - 1 else year) = y
  have hyear : (12 * y + (month + 9) % 12) / 12 = y := by omega
  have hmonth : (12 * y + (month + 9) % 12) % 12 = (month + 9) % 12 := by omega
  have hera : (y - y / 400 * 400) / 4 = y / 4 - 100 * (y / 400) := by omega
  have hcenturies : (y - y / 400 * 400) / 100 = y / 100 - 4 * (y / 400) := by omega
  rw [hyear, hmonth, hera, hcenturies]
  omega

/-- Months of different years or names have different numbers. -/
theorem monthNumber_inj {year month year' month' : ℤ} (h : 1 ≤ month) (hle : month ≤ 12)
    (h' : 1 ≤ month') (hle' : month' ≤ 12)
    (heq : monthNumber year month = monthNumber year' month') :
    year = year' ∧ month = month' := by
  unfold monthNumber at heq
  split at heq <;> split at heq <;> omega

/-- The month after December is January of the next year. -/
theorem monthNumber_succ {year month : ℤ} (h : 1 ≤ month) (hle : month ≤ 12) :
    monthNumber (year + month / 12) (month % 12 + 1) = monthNumber year month + 1 := by
  unfold monthNumber
  split <;> split <;> omega

/-! ### The date of a day -/

/-- Within a century of an era the year is found by counting leap years as days too many. -/
theorem yearOfCentury {n c y : ℤ} (hc : n / 36524 = c) (h0 : 0 ≤ c) (h3 : c ≤ 3)
    (hy : (n - n / 1460 + c) / 365 = y) :
    y / 100 = c ∧ 365 * y + y / 4 - c ≤ n ∧
      n < 365 * (y + 1) + (y + 1) / 4 - (if (y + 1) % 100 = 0 then c + 1 else c) := by
  have hcentury : y / 100 = c := by
    obtain rfl | rfl | rfl | rfl : c = 0 ∨ c = 1 ∨ c = 2 ∨ c = 3 := by omega
    all_goals omega
  have hlow : y / 4 ≤ n / 1460 := by
    obtain rfl | rfl | rfl | rfl : c = 0 ∨ c = 1 ∨ c = 2 ∨ c = 3 := by omega
    all_goals omega
  have hhigh : n / 1460 ≤ y / 4 + 1 := by omega
  refine ⟨hcentury, by omega, ?_⟩
  split
  · omega
  · omega

/-- The year of an era that `civilFromDays` computes is the one the day lies in. -/
theorem yearOfEra_spec {n : ℤ} (h0 : 0 ≤ n) (h : n < 146097) {y : ℤ}
    (hy : (n - n / 1460 + n / 36524 - n / 146096) / 365 = y) :
    0 ≤ y ∧ y < 400 ∧ yearStart y ≤ n ∧ n < yearStart (y + 1) := by
  obtain hlast | hlast : n = 146096 ∨ n < 146096 := by omega
  · -- the leap day that ends the era
    have hy' : y = 399 := by
      rw [← hy, hlast]
      rfl
    subst hlast hy'
    decide
  · have hera : n / 146096 = 0 := by omega
    obtain ⟨hcentury, hle, hlt⟩ := yearOfCentury (rfl : n / 36524 = n / 36524) (by omega) (by omega)
      (y := y) (by rw [← hy, hera]; congr 1; omega)
    have hrange : 0 ≤ y ∧ y < 400 := by omega
    refine ⟨hrange.1, hrange.2, ?_, ?_⟩
    · unfold yearStart
      omega
    · unfold yearStart
      by_cases hturn : (y + 1) % 100 = 0
      · rw [if_pos hturn] at hlt
        omega
      · rw [if_neg hturn] at hlt
        have hsame : (y + 1) / 100 = y / 100 := by omega
        have hfirst : (y + 1) / 400 = 0 := by omega
        rw [hsame, hfirst]
        omega

/-- The years of an era begin as those of the first one do. -/
theorem yearStart_era {y : ℤ} (era : ℤ) :
    yearStart (y + era * 400) = yearStart y + era * 146097 := by
  unfold yearStart
  omega

/-- **A day lies in the month of its date**, and its day counts from the first of that month. -/
theorem civilFromDays_month (days : ℤ) :
    1 ≤ (civilFromDays days).2.1 ∧ (civilFromDays days).2.1 ≤ 12 ∧
      days = monthStart (monthNumber (civilFromDays days).1 (civilFromDays days).2.1) +
        (civilFromDays days).2.2 - 1 ∧
      1 ≤ (civilFromDays days).2.2 ∧
      days < monthStart (monthNumber (civilFromDays days).1 (civilFromDays days).2.1 + 1) := by
  simp only [civilFromDays]
  generalize hera : (days + 719468) / 146097 = era
  generalize hn : days + 719468 - era * 146097 = n
  generalize hy : (n - n / 1460 + n / 36524 - n / 146096) / 365 = y
  obtain ⟨hy0, hy400, hle, hlt⟩ := yearOfEra_spec (by omega : 0 ≤ n) (by omega) hy
  have hstart : 365 * y + y / 4 - y / 100 = yearStart y := by
    unfold yearStart
    omega
  have hsucc := yearStart_succ y
  have hdays : days = yearStart (y + era * 400) + (n - yearStart y) - 719468 := by
    rw [yearStart_era]
    omega
  rw [hstart]
  generalize hd : n - yearStart y = d at hdays
  generalize hm : (5 * d + 2) / 153 = m
  have hm0 : 0 ≤ m ∧ m ≤ 11 := by omega
  -- the number of the month, whichever half of the year it lies in
  have hnumber : monthNumber (y + era * 400 + if (if m < 10 then m + 3 else m - 9) ≤ 2 then 1 else 0)
      (if m < 10 then m + 3 else m - 9) = 12 * (y + era * 400) + m := by
    unfold monthNumber
    by_cases hten : m < 10
    · rw [if_pos hten, if_neg (by omega), if_neg (by omega)]
      omega
    · rw [if_neg hten, if_pos (by omega), if_pos (by omega)]
      omega
  have hyear : (12 * (y + era * 400) + m) / 12 = y + era * 400 := by omega
  have hmonth : (12 * (y + era * 400) + m) % 12 = m := by omega
  rw [hnumber]
  refine ⟨by split <;> omega, by split <;> omega, ?_, by omega, ?_⟩
  · rw [monthStart, hyear, hmonth]
    omega
  · obtain hlast | hlast : m = 11 ∨ m < 11 := by omega
    · have hnext : (12 * (y + era * 400) + m + 1) / 12 = y + 1 + era * 400 := by omega
      have hmarch : (12 * (y + era * 400) + m + 1) % 12 = 0 := by omega
      rw [monthStart, hnext, hmarch, yearStart_era]
      rw [yearStart_era] at hdays
      omega
    · have hnext : (12 * (y + era * 400) + m + 1) / 12 = y + era * 400 := by omega
      have hnext' : (12 * (y + era * 400) + m + 1) % 12 = m + 1 := by omega
      rw [monthStart, hnext, hnext']
      omega

/-- Counting the days of a date read off a number of days gives the number back. -/
theorem daysFromCivil_civilFromDays (days : ℤ) :
    daysFromCivil (civilFromDays days).1 (civilFromDays days).2.1 (civilFromDays days).2.2 =
      days := by
  rw [daysFromCivil_eq]
  exact (civilFromDays_month days).2.2.1.symm

/-- The date of the first day of a month names that month and its first day. -/
theorem civilFromDays_monthStart {year month : ℤ} (h : 1 ≤ month) (hle : month ≤ 12) :
    civilFromDays (monthStart (monthNumber year month)) = (year, month, 1) := by
  obtain ⟨hlow, hhigh, hdays, hday, hlt⟩ :=
    civilFromDays_month (monthStart (monthNumber year month))
  have hsucc := monthStart_succ (monthNumber year month)
  have hnumber := @monthStart_unique (monthNumber year month) _ (monthStart (monthNumber year month))
    le_rfl (by omega) (by omega) hlt
  obtain ⟨hyear, hmonth⟩ := monthNumber_inj h hle hlow hhigh hnumber
  rw [← hnumber] at hdays
  refine Prod.ext hyear.symm (Prod.ext hmonth.symm ?_)
  show (civilFromDays (monthStart (monthNumber year month))).2.2 = 1
  omega

end NewApi
