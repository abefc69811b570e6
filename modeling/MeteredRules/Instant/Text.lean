import MeteredRules.Decimal.Digits
import MeteredRules.Instant.Basic

/-!
# Instants as text

An instant is written as date and time with a final `Z`, its fraction with as few of 0, 3, 6 or 9
digits as are exact. A leap second is written as second 60.
-/

namespace MeteredRules.Instant

/-- A year: four digits, and outside of 0 to 9999 a sign and at least four digits. -/
def yearText (year : Int) : List Char :=
  if 0 ≤ year ∧ year ≤ 9999 then Decimal.padded 4 year.natAbs
  else (if year < 0 then '-' else '+') :: Decimal.padded 4 year.natAbs

/-- A fraction of a second, with its point. -/
def fractionText (nanos : Nat) : List Char :=
  if nanos = 0 then []
  else if nanos % 1000000 = 0 then '.' :: Decimal.padded 3 (nanos / 1000000)
  else if nanos % 1000 = 0 then '.' :: Decimal.padded 6 (nanos / 1000)
  else '.' :: Decimal.padded 9 nanos

/-- A date, with dashes between its parts. -/
def dateText (date : Date) : List Char :=
  yearText date.year ++ '-' :: Decimal.padded 2 date.month ++ '-' :: Decimal.padded 2 date.day

/-- A time of day, with colons between its parts. -/
def timeText (secondOfDay nanos : Nat) : List Char :=
  let leap := if nanosPerSecond ≤ nanos then 1 else 0
  Decimal.padded 2 (secondOfDay / 3600) ++ ':' :: Decimal.padded 2 (secondOfDay / 60 % 60) ++
    ':' :: Decimal.padded 2 (secondOfDay % 60 + leap) ++
    fractionText (nanos - leap * nanosPerSecond)

/-- The text of an instant. -/
def render (instant : Instant) : String :=
  String.ofList
    (dateText instant.date ++ 'T' :: timeText instant.secondOfDay instant.nanos ++ ['Z'])

end MeteredRules.Instant
