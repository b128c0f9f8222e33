/-
**Civil time in a location, as the standard library computes it.**

The end of a subscription and the instants its quota is reset at are computed with `time.Date`,
`AddDate`, `Weekday` and `Add` in the server's location.  The functions are embedded on Unix
seconds (no instant here has a fraction of a second): the proleptic Gregorian calendar, the
normalisation of months outside `1, …, 12` and of days outside the month, and the two look-ups of
the zone offset with which `time.Date` turns a local clock reading into an instant.

Main definitions:

* `NewApi.Zone`, `NewApi.Location` — the offset in force at an instant, and from when to when;
* `NewApi.daysFromCivil`, `NewApi.civilFromDays` — dates and days since the epoch;
* `NewApi.date`, `NewApi.addDate`, `NewApi.addSeconds` — the functions themselves;
* `NewApi.LocalDate`, `NewApi.localDate` — the clock reading at an instant.

Main results:

* `NewApi.date_utc_next_day` — in the zone without offset a day is 86400 seconds long.
-/

import NewApi.Common

set_option autoImplicit false

namespace NewApi

/-! ### Locations -/

/-- The offset from UTC in force from `start` until `stop`, in seconds. -/
structure Zone where
  offset : ℤ
  start : ℤ
  stop : ℤ
deriving DecidableEq, Repr

/-- A location: the zone in force at every Unix time. -/
structure Location where
  lookup : ℤ → Zone

/-- The location without offset. -/
def utc : Location where
  lookup _ := { offset := 0, start := -(2 ^ 63), stop := 2 ^ 63 - 1 }

/-! ### The Gregorian calendar -/

/-- Days from 1970-01-01 to the given date; the month is one of `1, …, 12`, the day is any
number and counts on from the first of the month. -/
def daysFromCivil (year month day : ℤ) : ℤ :=
  let y := if month ≤ 2 then year - 1 else year
  let era := y / 400
  let yearOfEra := y - era * 400
  let dayOfYear := (153 * ((month + 9) % 12) + 2) / 5 + day - 1
  let dayOfEra := yearOfEra * 365 + yearOfEra / 4 - yearOfEra / 100 + dayOfYear
  era * 146097 + dayOfEra - 719468

/-- A date and the time of day on the local clock. -/
structure LocalDate where
  year : ℤ
  month : ℤ
  day : ℤ
  secondOfDay : ℤ
  days : ℤ
deriving DecidableEq, Repr

/-- The date that lies `days` days after 1970-01-01, as year, month and day. -/
def civilFromDays (days : ℤ) : ℤ × ℤ × ℤ :=
  let z := days + 719468
  let era := z / 146097
  let dayOfEra := z - era * 146097
  let yearOfEra := (dayOfEra - dayOfEra / 1460 + dayOfEra / 36524 - dayOfEra / 146096) / 365
  let dayOfYear := dayOfEra - (365 * yearOfEra + yearOfEra / 4 - yearOfEra / 100)
  let monthIndex := (5 * dayOfYear + 2) / 153
  let month := if monthIndex < 10 then monthIndex + 3 else monthIndex - 9
  (yearOfEra + era * 400 + (if month ≤ 2 then 1 else 0), month,
    dayOfYear - (153 * monthIndex + 2) / 5 + 1)

/-- What the local clock shows at the instant `unix`. -/
def localDate (loc : Location) (unix : ℤ) : LocalDate :=
  let clock := unix + (loc.lookup unix).offset
  let days := clock / 86400
  let civil := civilFromDays days
  { year := civil.1
    month := civil.2.1
    day := civil.2.2
    secondOfDay := clock % 86400
    days := days }

/-- The day of the week, Sunday being `0`. -/
def LocalDate.weekday (d : LocalDate) : ℤ := (d.days + 4) % 7

/-! ### Instants -/

/-- The instant at which the local clock shows the given reading.  Months outside `1, …, 12` carry
into the year and any number of days counts on from the first of the month. -/
def date (loc : Location) (year month day secondOfDay : ℤ) : ℤ :=
  let monthIndex := month - 1
  let unix := daysFromCivil (year + monthIndex / 12) (monthIndex % 12 + 1) day * 86400
    + secondOfDay
  -- the offset is looked up as if the reading were an instant, and once more where it was not
  let zone := loc.lookup unix
  if zone.offset = 0 then unix
  else
    let instant := unix - zone.offset
    if instant < zone.start ∨ zone.stop ≤ instant then unix - (loc.lookup instant).offset
    else instant

/-- The same time of day the given years, months and days later. -/
def addDate (loc : Location) (unix years months days : ℤ) : ℤ :=
  let d := localDate loc unix
  date loc (d.year + years) (d.month + months) (d.day + days) d.secondOfDay

/-- A duration of `n` units of `unit` seconds, in nanoseconds of 64 bits, added to an instant. -/
def addSeconds (unix n unit : ℤ) : ℤ :=
  unix + wrap64 (n * unit * 1000000000) / 1000000000

/-- In the zone without offset the next midnight is 86400 seconds after the last one. -/
theorem date_utc_next_day (year month day : ℤ) :
    date utc year month (day + 1) 0 = date utc year month day 0 + 86400 := by
  simp only [date, utc, daysFromCivil, if_true]
  ring

example : date utc 2026 2 22 0 = 1771718400 := by decide

example : localDate utc 1771718400 =
    { year := 2026, month := 2, day := 22, secondOfDay := 0, days := 20506 } := by decide

end NewApi
