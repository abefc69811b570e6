/-!
# The calendar

Dates of the Gregorian calendar, extended to all years before and after, and their numbers counted
in days from the first of January 1970.
-/

namespace MeteredRules

/-- A year, a month from 1 and a day of the month from 1. -/
structure Date where
  year : Int
  month : Nat
  day : Nat
deriving DecidableEq

namespace Date

/-- Every fourth year is a leap year, but of the full centuries only every fourth. -/
def isLeapYear (year : Int) : Bool :=
  year % 4 == 0 && (year % 100 != 0 || year % 400 == 0)

/-- The lengths of the months of a year. -/
def monthLengths (year : Int) : List Nat :=
  [31, if isLeapYear year then 29 else 28, 31, 30, 31, 30, 31, 31, 30, 31, 30, 31]

/-- The length of a month. -/
def daysInMonth (year : Int) (month : Nat) : Nat :=
  (monthLengths year).getD (month - 1) 0

/-- The dates that the calendar has. -/
def isValid (date : Date) : Bool :=
  1 ≤ date.month && date.month ≤ 12 && 1 ≤ date.day &&
    date.day ≤ daysInMonth date.year date.month

/-- The days from the first day of year 1 to the first day of a year. -/
def daysBeforeYear (year : Int) : Int :=
  let past := year - 1
  365 * past + past / 4 - past / 100 + past / 400

/-- The days of a year before a month. -/
def daysBeforeMonth (year : Int) (month : Nat) : Nat :=
  ((monthLengths year).take (month - 1)).foldr (· + ·) 0

/-- The days from the first day of year 1 to the first of January 1970. -/
def epoch : Int := 719162

/-- The number of a date, counted in days from the first of January 1970. -/
def toDayNumber (date : Date) : Int :=
  daysBeforeYear date.year + daysBeforeMonth date.year date.month + date.day - 1 - epoch

/-- The month that holds a day of the year counted from 0, and the day of that month from 1. -/
def locate : (lengths : List Nat) → (month dayOfYear : Nat) → Nat × Nat
  | [], month, dayOfYear => (month, dayOfYear + 1)
  | length :: lengths, month, dayOfYear =>
    if dayOfYear < length then (month, dayOfYear + 1)
    else locate lengths (month + 1) (dayOfYear - length)

/--
The date with a given number. Days are counted off in periods of 400, 100, 4 and 1 years; the last
century of 400 years and the last year of four are one day longer than the others.
-/
def ofDayNumber (number : Int) : Date :=
  let days := number + epoch
  let cycle := days / 146097
  let inCycle := (days % 146097).toNat
  let century := min 3 (inCycle / 36524)
  let inCentury := inCycle - 36524 * century
  let quadrennium := inCentury / 1461
  let inQuadrennium := inCentury % 1461
  let ordinary := min 3 (inQuadrennium / 365)
  let dayOfYear := inQuadrennium - 365 * ordinary
  let year : Int := 400 * cycle + 100 * century + 4 * quadrennium + ordinary + 1
  let (month, day) := locate (monthLengths year) 1 dayOfYear
  ⟨year, month, day⟩

end Date

end MeteredRules
