import MeteredRules.Instant.Basic

/-!
# Moving instants

An instant is moved by a number of nanoseconds, exactly or not at all. A move that leaves a leap
second counts it as part of the second on that side.
-/

namespace MeteredRules.Instant

/-- The instant a number of nanoseconds after one that lies in no leap second. -/
def moveFrom? (seconds : Int) (nanos : Nat) (delta : Int) : Option Instant :=
  let total := seconds * nanosPerSecond + nanos + delta
  ofUnix? (total / nanosPerSecond) (total % nanosPerSecond).toNat

/--
The instant a number of nanoseconds later, or earlier for a negative number, if it can be
represented. Within a leap second a move by less than a second only changes the fraction.
-/
def move? (instant : Instant) (delta : Int) : Option Instant :=
  if instant.isLeap then
    if nanosPerSecond ≤ delta ∨ (0 < delta ∧ 2 * nanosPerSecond ≤ instant.nanos + delta) then
      moveFrom? instant.seconds (instant.nanos - nanosPerSecond) delta
    else if delta ≤ -nanosPerSecond then
      moveFrom? (instant.seconds + 1) (instant.nanos - nanosPerSecond) delta
    else
      ofUnix? instant.seconds (instant.nanos + delta).toNat
  else
    moveFrom? instant.seconds instant.nanos delta

end MeteredRules.Instant
