import MeteredRules.Error
import MeteredRules.Instant.Shift

/-!
# The clock

Time is an input of evaluation. A clock is the sequence of its readings together with how many of
them were taken, and an action is a computation that may fail and may read the clock. An action
that fails keeps the readings that it took.
-/

namespace MeteredRules

/-- What a clock shows at each reading, and the number of readings taken so far. -/
structure Clock where
  reading : Nat → Instant
  taken : Nat

namespace Clock

/-- A clock that advances by a number of nanoseconds after every reading. -/
def stepping (seconds : Int) (nanos step : Int) : Clock where
  reading count := (Instant.moveFrom? seconds 0 (nanos + count * step)).getD Instant.epoch
  taken := 0

/-- A clock that stands still. -/
def still (instant : Instant) : Clock where
  reading _ := instant
  taken := 0

/-- A clock of which only the first readings are known; it shows the epoch at all others. -/
def ofReadings (readings : List Instant) : Clock where
  reading count := readings.getD count Instant.epoch
  taken := 0

/-- Takes one reading. -/
def read (clock : Clock) : Instant × Clock :=
  (clock.reading clock.taken, { clock with taken := clock.taken + 1 })

end Clock

/-- A computation that may fail and may read the clock. -/
abbrev Action := ExceptT Error (StateM Clock)

namespace Action

/-- An action that leaves the clock alone. -/
def ofResult {α : Type} (result : Except Error α) : Action α :=
  ExceptT.mk (pure result)

/-- Takes one reading of the clock. -/
def readClock : Action Instant :=
  ExceptT.mk fun clock => (.ok clock.read.1, clock.read.2)

end Action

/-- The functions of a host: what the function kept under a key does with its arguments. -/
abbrev Host := (key : String) → List Value → Action Value

end MeteredRules
