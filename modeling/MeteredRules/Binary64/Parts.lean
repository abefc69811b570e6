/-!
# Binary floating-point numbers, taken apart

A finite float is an integer significand times a power of two. Everything that must be exact about
floats (rounding to integers, remainders, decimal text) is computed on these parts in integer
arithmetic.
-/

namespace MeteredRules.Binary64

/-- What a float denotes: a finite one is `± significand * 2 ^ exponent`. -/
inductive Parts where
  | nan
  | infinite (negative : Bool)
  | finite (negative : Bool) (significand : Nat) (exponent : Int)
deriving DecidableEq

/-- The exponent of the smallest positive float. -/
def leastExponent : Int := -1074

/-- The highest digit of the significand of a normal float, which its encoding leaves out. -/
def hiddenBit : Nat := Nat.pow 2 52

/-- The digit of the encoding that is the sign. -/
def signBit : Nat := Nat.pow 2 63

/-- Takes a float apart; the significand of a normal float has 53 binary digits. -/
def Parts.ofFloat (value : Float) : Parts :=
  let bits : Nat := value.toBits.toNat
  let negative : Bool := bits / signBit == 1
  let biased : Nat := bits / hiddenBit % 2048
  let fraction : Nat := bits % hiddenBit
  if biased == 2047 then
    if fraction == 0 then .infinite negative else .nan
  else if biased == 0 then
    .finite negative fraction leastExponent
  else
    .finite negative (hiddenBit + fraction) ((biased : Int) - 1075)

/-- The float `± significand * 2 ^ exponent`, for a value that some float has exactly. -/
def ofExact (negative : Bool) (significand : Nat) (exponent : Int) : Float :=
  let sign := if negative then signBit else 0
  if significand == 0 then
    Float.ofBits (UInt64.ofNat sign)
  else
    let unit := max (exponent + significand.log2 - 52) leastExponent
    let scaled :=
      if unit ≥ exponent then significand / Nat.pow 2 (unit - exponent).toNat
      else significand * Nat.pow 2 (exponent - unit).toNat
    let magnitude :=
      if scaled < hiddenBit then scaled
      else (unit - leastExponent).toNat * hiddenBit + scaled
    Float.ofBits (UInt64.ofNat (sign + magnitude))

/--
The remainder of a division whose quotient is cut off toward zero: it has the sign of the dividend
and is computed without rounding.
-/
def remainder (dividend divisor : Float) : Float :=
  match Parts.ofFloat dividend, Parts.ofFloat divisor with
  | .finite _ _ _, .infinite _ => dividend
  | .finite negative significand exponent, .finite _ divisorSignificand divisorExponent =>
    if divisorSignificand == 0 then
      Float.ofScientific 0 false 0 / Float.ofScientific 0 false 0
    else
      let unit := min exponent divisorExponent
      let scaled := significand * Nat.pow 2 (exponent - unit).toNat
      let divisorScaled := divisorSignificand * Nat.pow 2 (divisorExponent - unit).toNat
      ofExact negative (scaled % divisorScaled) unit
  | _, _ => Float.ofScientific 0 false 0 / Float.ofScientific 0 false 0

end MeteredRules.Binary64
