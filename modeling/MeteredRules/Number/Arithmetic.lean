import MeteredRules.Number.Basic
import MeteredRules.Binary64.Rounding

/-!
# Arithmetic on numbers

Two integers are combined exactly and the result is refused if it needs more than 64 bits: nothing
wraps around. As soon as one operand is a float, both are taken as floats. Integer division rounds
to the floor, and the remainder has the sign of the divisor. Both are computed in 64 bits: the
machine divides toward zero, and where the division is inexact and the signs differ, its quotient
and its remainder are corrected.
-/

namespace MeteredRules.Number

/-- The 64-bit integer with a given value, if there is one. -/
def fit? (value : Int) : Option Int64 :=
  if Int64.minValue.toInt ≤ value ∧ value ≤ Int64.maxValue.toInt then some (Int64.ofInt value)
  else none

/-- Combines two integers, or two numbers as floats if one of them is a float. -/
def combine? (onInts : Int64 → Int64 → Option Int64) (onFloats : Float → Float → Float) :
    Number → Number → Option Number
  | .int left, .int right => (onInts left right).map .int
  | left, right => some (.float (onFloats left.toFloat right.toFloat))

/-- The result of an operation on integers of any size, if it has 64 bits. -/
def fitting? (operation : Int → Int → Int) (left right : Int64) : Option Int64 :=
  fit? (operation left.toInt right.toInt)

/-- The sum of two numbers. -/
def add? : Number → Number → Option Number :=
  combine? (fitting? (· + ·)) (· + ·)

/-- The difference of two numbers. -/
def subtract? : Number → Number → Option Number :=
  combine? (fitting? (· - ·)) (· - ·)

/-- The product of two numbers. -/
def multiply? : Number → Number → Option Number :=
  combine? (fitting? (· * ·)) (· * ·)

/--
A division toward zero, or its remainder. There is none by zero, and none of the least integer by
`-1`, whose quotient needs more than 64 bits.
-/
def truncated? (operation : Int64 → Int64 → Int64) (dividend divisor : Int64) : Option Int64 :=
  if divisor = 0 ∨ dividend = Int64.minValue ∧ divisor = -1 then none
  else some (operation dividend divisor)

/-- Whether exactly one of two integers is negative. -/
def signsDiffer (left right : Int64) : Bool :=
  decide (left < 0) != decide (right < 0)

/-- The floor of a quotient: one less than the quotient toward zero if that was rounded up. -/
def floorQuotient? (dividend divisor : Int64) : Option Int64 := do
  let quotient ← truncated? (· / ·) dividend divisor
  if dividend % divisor ≠ 0 ∧ signsDiffer dividend divisor then fitting? (· - ·) quotient 1
  else some quotient

/-- The remainder of a division to the floor, with the sign of the divisor. -/
def floorRemainder? (dividend divisor : Int64) : Option Int64 := do
  let rest ← truncated? (· % ·) dividend divisor
  if rest ≠ 0 ∧ signsDiffer rest divisor then some (rest + divisor) else some rest

/-- The quotient of two numbers, the floor of it between integers. -/
def divide? : Number → Number → Option Number :=
  combine? floorQuotient? (· / ·)

/-- The remainder of a division of floats, with the sign of the divisor. -/
def floatModulo (dividend divisor : Float) : Float :=
  let zero := Float.ofScientific 0 false 0
  let rest := Binary64.remainder dividend divisor
  if rest != zero && (decide (rest < zero) != decide (divisor < zero)) then rest + divisor else rest

/-- The remainder of a division, with the sign of the divisor. -/
def modulo? : Number → Number → Option Number :=
  combine? floorRemainder? floatModulo

/-- Rounds a number to an integer, if that integer has 64 bits. -/
def toInt? (rounding : Binary64.Rounding) : Number → Option Int64
  | .int value => some value
  | .float value => (Binary64.toInt? rounding value).bind fit?

end MeteredRules.Number
