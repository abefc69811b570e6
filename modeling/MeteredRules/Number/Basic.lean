import MeteredRules.Decimal.Digits
import MeteredRules.Decimal.Layout

/-!
# Numbers

A number is a 64-bit integer or a float. The two kinds stay apart, in the text of a number as well
as in arithmetic, but they compare with each other: an integer met by a float is first rounded to
the nearest float.
-/

namespace MeteredRules

/-- An integer or a float. -/
inductive Number where
  | int (value : Int64)
  | float (value : Float)
deriving DecidableEq

namespace Number

/-- The float nearest to a number. -/
def toFloat : Number → Float
  | .int value => Float.ofInt value.toInt
  | .float value => value

/-- Whether a number is of the integer kind. -/
def isInt : Number → Bool
  | .int _ => true
  | .float _ => false

/-- Numerical equality: exact between integers, otherwise on the nearest floats. -/
def equals : Number → Number → Bool
  | .int left, .int right => left == right
  | left, right => left.toFloat == right.toFloat

instance : BEq Number := ⟨equals⟩

/-- How two floats are ordered; a NaN is not ordered at all. -/
def compareFloats (left right : Float) : Option Ordering :=
  if left < right then some .lt
  else if right < left then some .gt
  else if left == right then some .eq
  else none

/-- How two numbers are ordered: exactly between integers, otherwise on the nearest floats. -/
def compare? : Number → Number → Option Ordering
  | .int left, .int right => some (compare left.toInt right.toInt)
  | left, right => compareFloats left.toFloat right.toFloat

/-- Zero of either kind and either sign. -/
def isZero : Number → Bool
  | .int value => value == 0
  | .float value => value == Float.ofScientific 0 false 0

/--
Floats as they are written in source texts and messages: plain from `0.0001` to below `1e16`, an
exponent without a plus sign otherwise.
-/
def floatLayout : Decimal.Layout where
  leastPlain := -3
  greatestPlain := 16
  plus := ""
  tie := .larger

/-- The text of a float. -/
def floatText (value : Float) : String :=
  floatLayout.render value

/-- The text of a number; that of a float always shows a point, an exponent or a word. -/
def render : Number → String
  | .int value => String.ofList (Decimal.ofInt value.toInt)
  | .float value => floatText value

end Number

end MeteredRules
