import MeteredRules.Decimal.Digits
import MeteredRules.Decimal.Shortest

/-!
# Floats as text

A float is written with its shortest digits, plainly while the decimal point stays near them and
with an exponent otherwise. A layout says where the change is and how an exponent is marked.
-/

namespace MeteredRules.Decimal

/--
How a float is laid out. The position of the point is the power of ten just above the number, so
that `0.5` has position 0 and `12.5` has position 2.
-/
structure Layout where
  /-- The least position of the point that is written plainly. -/
  leastPlain : Int
  /-- The greatest position of the point that is written plainly. -/
  greatestPlain : Int
  /-- The mark before an exponent that is not negative. -/
  plus : String
  /-- Which of two equally near decimals is written. -/
  tie : Tie

/-- Digits with the decimal point at a position; one fractional digit is always written. -/
def plain (text : List Char) (position : Int) : List Char :=
  if position ≤ 0 then
    '0' :: '.' :: (List.replicate (-position).toNat '0' ++ text)
  else if text.length ≤ position.toNat then
    text ++ List.replicate (position.toNat - text.length) '0' ++ ['.', '0']
  else
    text.take position.toNat ++ '.' :: text.drop position.toNat

/-- Digits with a point after the first of them and an exponent. -/
def scientific (plus : String) (text : List Char) (position : Int) : List Char :=
  let exponent := position - 1
  let mantissa := if text.length ≤ 1 then text else text.take 1 ++ '.' :: text.drop 1
  let mark := if exponent < 0 then [] else plus.toList
  mantissa ++ 'e' :: (mark ++ ofInt exponent)

/-- The text of the magnitude of a finite float. -/
def Layout.magnitude (layout : Layout) (significand : Nat) (exponent : Int) : List Char :=
  if significand == 0 then ['0', '.', '0']
  else
    let decimal := shortest layout.tie significand exponent
    let text := digits decimal.coefficient
    let position := decimal.exponent + text.length
    if layout.leastPlain ≤ position && position ≤ layout.greatestPlain then plain text position
    else scientific layout.plus text position

/-- The text of a float; the sign of a zero is kept and that of a NaN is not. -/
def Layout.render (layout : Layout) (value : Float) : String :=
  match Binary64.Parts.ofFloat value with
  | .nan => "NaN"
  | .infinite negative => if negative then "-inf" else "inf"
  | .finite negative significand exponent =>
    let text := layout.magnitude significand exponent
    String.ofList (if negative then '-' :: text else text)

end MeteredRules.Decimal
