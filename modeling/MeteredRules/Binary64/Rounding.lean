import MeteredRules.Binary64.Parts

/-!
# From floats to integers

Rounds a finite float to an integer in one of four directions, exactly and for any magnitude.
-/

namespace MeteredRules.Binary64

/-- Which integer stands for a number between two integers. -/
inductive Rounding where
  /-- The smaller one. -/
  | floor
  /-- The larger one. -/
  | ceiling
  /-- The nearer one, and of two equally near the one farther from zero. -/
  | nearest
  /-- The one nearer to zero. -/
  | truncate
deriving DecidableEq

/-- Whether a magnitude `quotient + part / whole` is rounded away from zero. -/
def Rounding.awayFromZero (rounding : Rounding) (negative : Bool) (part whole : Nat) : Bool :=
  match rounding with
  | .floor => negative && part != 0
  | .ceiling => !negative && part != 0
  | .nearest => whole ≤ 2 * part
  | .truncate => false

/-- Rounds a float to an integer; only a finite float has one. -/
def toInt? (rounding : Rounding) (value : Float) : Option Int :=
  match Parts.ofFloat value with
  | .finite negative significand exponent =>
    let whole := Nat.pow 2 (-exponent).toNat
    let scaled := significand * Nat.pow 2 exponent.toNat
    let magnitude :=
      scaled / whole + if rounding.awayFromZero negative (scaled % whole) whole then 1 else 0
    some (if negative then -(magnitude : Int) else magnitude)
  | _ => none

end MeteredRules.Binary64
