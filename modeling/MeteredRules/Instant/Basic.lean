import MeteredRules.Calendar

/-!
# Instants

A point in time to the nanosecond, counted from the start of 1970 in Coordinated Universal Time. A
leap second has no number of its own: it is the second before it with a fraction of one second or
more. Instants reach over the years -262143 to 262142.
-/

namespace MeteredRules

/-- The nanoseconds of one second. -/
def nanosPerSecond : Nat := 1000000000

/-- The seconds of one day. -/
def secondsPerDay : Nat := 86400

/-- A point in time. -/
structure Instant where
  /-- Whole seconds since the start of 1970, rounded to the floor. -/
  seconds : Int
  /-- Nanoseconds past the whole second; more than a second's worth in a leap second. -/
  nanos : Nat
  /-- The whole second lies between the first and the last that can be represented. -/
  inRange : -8334601228800 ≤ seconds ∧ seconds ≤ 8210266876799
  /-- Only the last second of a minute can be a leap second. -/
  fraction : nanos < 1000000000 ∨ (nanos < 2000000000 ∧ seconds % 60 = 59)
deriving DecidableEq

namespace Instant

/-- The instant with given parts, if there is one. -/
def ofUnix? (seconds : Int) (nanos : Nat) : Option Instant :=
  if inRange : -8334601228800 ≤ seconds ∧ seconds ≤ 8210266876799 then
    if fraction : nanos < 1000000000 ∨ (nanos < 2000000000 ∧ seconds % 60 = 59) then
      some ⟨seconds, nanos, inRange, fraction⟩
    else none
  else none

/-- The start of 1970. -/
def epoch : Instant := ⟨0, 0, by decide, by decide⟩

instance : Inhabited Instant := ⟨epoch⟩

/-- Whether an instant lies in a leap second. -/
def isLeap (instant : Instant) : Bool :=
  nanosPerSecond ≤ instant.nanos

/-- Instants are ordered by whole seconds and then by nanoseconds. -/
def order (left right : Instant) : Ordering :=
  (compare left.seconds right.seconds).then (compare left.nanos right.nanos)

/-- The date of an instant. -/
def date (instant : Instant) : Date :=
  Date.ofDayNumber (instant.seconds / secondsPerDay)

/-- The seconds of an instant since midnight. -/
def secondOfDay (instant : Instant) : Nat :=
  (instant.seconds % secondsPerDay).toNat

end Instant

end MeteredRules
