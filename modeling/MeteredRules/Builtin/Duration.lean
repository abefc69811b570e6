import MeteredRules.Builtin.Arithmetic
import MeteredRules.Error
import MeteredRules.Instant.Shift

/-!
# Durations

A duration is a number of seconds. Integers are exact; a float counts to the nearest millisecond.
Durations and the instants that they lead to are refused where they leave their ranges.
-/

namespace MeteredRules

/-- The units that a duration can be given in. -/
inductive DurationUnit where
  | days
  | hours
  | minutes
  | seconds
deriving DecidableEq

/-- The seconds of one unit. -/
def DurationUnit.length : DurationUnit → Nat
  | .days => 86400
  | .hours => 3600
  | .minutes => 60
  | .seconds => 1

namespace Duration

/-- The seconds of an amount of a unit. -/
def ofUnit (unit : DurationUnit) : Number → Except Error Number
  | .int amount => Arithmetic.orOverflow .duration ((Number.fit? (amount.toInt * unit.length)).map .int)
  | .float amount => .ok (.float (amount * Float.ofNat unit.length))

/-- The direction of time in which a duration is counted. -/
inductive Direction where
  | forward
  | backward
deriving DecidableEq

/-- The greatest number of whole seconds in a duration. -/
def mostSeconds : Int := 9223372036854775

/-- The milliseconds of a float of seconds, to the nearest one. -/
def milliseconds? (direction : Direction) (seconds : Float) : Option Int :=
  let sign := match direction with
    | .forward => Float.ofNat 1
    | .backward => -Float.ofNat 1
  match Binary64.toInt? .nearest (seconds * Float.ofNat 1000 * sign) with
  | some count =>
    if Int64.minValue.toInt < count ∧ count ≤ Int64.maxValue.toInt then some count else none
  | none => none

/-- The nanoseconds of a duration in a direction of time. -/
def nanoseconds? (direction : Direction) : Number → Option Int
  | .int seconds =>
    if -mostSeconds ≤ seconds.toInt ∧ seconds.toInt ≤ mostSeconds then
      some ((match direction with
        | .forward => seconds.toInt
        | .backward => -seconds.toInt) * 1000000000)
    else none
  | .float seconds => (milliseconds? direction seconds).map (· * 1000000)

/-- The instant a duration away from another one. -/
def offset (base : Instant) (direction : Direction) (seconds : Number) : Except Error Instant :=
  match nanoseconds? direction seconds with
  | none => .error (.refuse (.durationRange seconds))
  | some delta =>
    match base.move? delta with
    | none => .error (.refuse (.instantRange seconds))
    | some instant => .ok instant

end Duration

end MeteredRules
