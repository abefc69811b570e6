import MeteredRules.Decimal.Digits

/-!
# Reading floats

A float is written as digits with an optional point and an optional exponent, or as one of the
words for infinity and NaN. The text denotes an exact decimal, and the float is the one nearest to
it.
-/

namespace MeteredRules.Decimal

/-- A decimal number `± coefficient * 10 ^ exponent`, or one of the values beyond all numbers. -/
inductive FloatText where
  | finite (negative : Bool) (coefficient : Nat) (exponent : Int)
  | infinite (negative : Bool)
  | nan
deriving DecidableEq

/-- Reads what may follow a mantissa: nothing, or an exponent with an optional sign. -/
def readExponent? : List Char → Option Int
  | [] => some 0
  | mark :: text => if mark == 'e' || mark == 'E' then readInt? text else none

/-- Reads digits with an optional point, at least one digit beside it, and an optional exponent. -/
def readMagnitude? (text : List Char) : Option (Nat × Int) :=
  let whole := text.takeWhile Char.isDigit
  let rest := text.dropWhile Char.isDigit
  let (fraction, rest) := match rest with
    | '.' :: rest => (rest.takeWhile Char.isDigit, rest.dropWhile Char.isDigit)
    | rest => ([], rest)
  if whole.isEmpty && fraction.isEmpty then none
  else
    (readExponent? rest).map fun exponent =>
      (ofDigits (whole ++ fraction), exponent - fraction.length)

/-- Reads a float with an optional sign; the words for infinity and NaN may be in any case. -/
def FloatText.read? (text : List Char) : Option FloatText :=
  let (negative, rest) := splitSign text
  let word := String.ofList (rest.map Char.toLower)
  if word == "inf" || word == "infinity" then some (.infinite negative)
  else if word == "nan" then some .nan
  else (readMagnitude? rest).map fun (coefficient, exponent) =>
    .finite negative coefficient exponent

/--
Where the leading digit of a decimal stands. Outside these bounds every decimal rounds to infinity
or to zero, which spares the computation of huge powers of ten.
-/
def leadingPosition (coefficient : Nat) (exponent : Int) : Int :=
  exponent + (digits coefficient).length

/-- The float nearest to `coefficient * 10 ^ exponent`. -/
def nearestFloat (coefficient : Nat) (exponent : Int) : Float :=
  if coefficient == 0 || leadingPosition coefficient exponent < -330 then
    Float.ofScientific 0 false 0
  else if leadingPosition coefficient exponent > 310 then
    Float.ofScientific 1 false 0 / Float.ofScientific 0 false 0
  else
    Float.ofScientific coefficient (exponent < 0) exponent.natAbs

/-- The single-precision float nearest to `coefficient * 10 ^ exponent`. -/
def nearestFloat32 (coefficient : Nat) (exponent : Int) : Float32 :=
  if coefficient == 0 || leadingPosition coefficient exponent < -330 then
    Float32.ofScientific 0 false 0
  else if leadingPosition coefficient exponent > 310 then
    Float32.ofScientific 1 false 0 / Float32.ofScientific 0 false 0
  else
    Float32.ofScientific coefficient (exponent < 0) exponent.natAbs

/-- The float that a text denotes. -/
def FloatText.toFloat : FloatText → Float
  | .finite negative coefficient exponent =>
    let magnitude := nearestFloat coefficient exponent
    if negative then -magnitude else magnitude
  | .infinite negative =>
    let infinity := Float.ofScientific 1 false 0 / Float.ofScientific 0 false 0
    if negative then -infinity else infinity
  | .nan => Float.ofScientific 0 false 0 / Float.ofScientific 0 false 0

/-- The single-precision float that a text denotes. -/
def FloatText.toFloat32 : FloatText → Float32
  | .finite negative coefficient exponent =>
    let magnitude := nearestFloat32 coefficient exponent
    if negative then -magnitude else magnitude
  | .infinite negative =>
    let infinity := Float32.ofScientific 1 false 0 / Float32.ofScientific 0 false 0
    if negative then -infinity else infinity
  | .nan => Float32.ofScientific 0 false 0 / Float32.ofScientific 0 false 0

/-- Reads a float. -/
def readFloat? (text : List Char) : Option Float :=
  (FloatText.read? text).map FloatText.toFloat

end MeteredRules.Decimal
