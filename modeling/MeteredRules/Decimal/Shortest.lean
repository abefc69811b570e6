import MeteredRules.Binary64.Parts

/-!
# The shortest decimal that denotes a float

Every real number near a float rounds to it: these numbers form an interval, whose ends belong to
it exactly if the significand is even. The shortest decimal of the float is the point of this
interval on the coarsest grid of powers of ten that has one, and of two points on that grid the one
nearer to the float.
-/

namespace MeteredRules.Decimal

/-- Which of two equally near decimals is taken. -/
inductive Tie where
  | larger
  | even
deriving DecidableEq

/-- A positive decimal `coefficient * 10 ^ exponent`. -/
structure Scaled where
  coefficient : Nat
  exponent : Int
deriving DecidableEq

/--
The interval of the numbers that round to one float, around its value. All three distances are
counted in units of `numerator / denominator`.
-/
structure Interval where
  below : Nat
  value : Nat
  above : Nat
  numerator : Nat
  denominator : Nat
  inclusive : Bool
deriving DecidableEq

/--
The numbers that round to `significand * 2 ^ exponent`. Below a power of two the floats are twice
as dense, so that the interval is shorter on that side.
-/
def Interval.ofParts (significand : Nat) (exponent : Int) : Interval :=
  let narrow := significand == Binary64.hiddenBit && exponent > Binary64.leastExponent
  { below := 4 * significand - (if narrow then 1 else 2)
    value := 4 * significand
    above := 4 * significand + 2
    numerator := Nat.pow 2 (exponent - 2).toNat
    denominator := Nat.pow 2 (2 - exponent).toNat
    inclusive := significand % 2 == 0 }

/-- The point of an interval nearest to its value on the grid of the multiples of `10 ^ power`. -/
def Interval.onGrid? (interval : Interval) (tie : Tie) (power : Int) : Option Scaled :=
  let step := Nat.pow 10 power.toNat * interval.denominator
  let unit := Nat.pow 10 (-power).toNat * interval.numerator
  let lower := interval.value * unit / step
  let past := interval.value * unit % step
  let contains (left right : Nat) : Bool := left < right || (left == right && interval.inclusive)
  let lowerFits := lower != 0 && contains (interval.below * unit) (lower * step)
  let upperFits := contains ((lower + 1) * step) (interval.above * unit)
  let preferUpper :=
    step < 2 * past || (2 * past == step && (tie == .larger || lower % 2 == 1))
  if lowerFits && !(upperFits && preferUpper) then some ⟨lower, power⟩
  else if upperFits then some ⟨lower + 1, power⟩
  else none

/--
The shortest decimal of a positive float. The search starts at a power of ten above the float;
seventeen digits always suffice, so that it ends within the grids that are tried.
-/
def shortest (tie : Tie) (significand : Nat) (exponent : Int) : Scaled :=
  let interval := Interval.ofParts significand exponent
  let top := (exponent + significand.log2 + 1) * 30103 / 100000 + 2
  ((List.range 24).findSome? fun (step : Nat) => interval.onGrid? tie (top - step)).getD ⟨0, 0⟩

end MeteredRules.Decimal
