import MeteredRules.Decimal.Digits
import MeteredRules.Json.Basic

/-!
# JSON numbers

Numbers without a fraction and an exponent are integers as long as they fit 64 bits, and all others
are floats. A float is scaled from a significand of 64 bits by one power of ten, each step rounded
on its own, so that the result can differ from the nearest float in its last digit. A number beyond
all floats is not accepted.
-/

namespace MeteredRules.Json

/-- The number of significands that fit 64 bits. -/
def significandBound : Nat := UInt64.size

/--
Appends digits to a significand as long as it fits 64 bits; the result is the significand and the
digits that were left over.
-/
def accumulate (significand : Nat) : List Char → Nat × List Char
  | [] => (significand, [])
  | digit :: digits =>
    let next := 10 * significand + Decimal.ofDigits [digit]
    if next < significandBound then accumulate next digits else (significand, digit :: digits)

/-- A power of ten as a float. -/
def powerOfTen (exponent : Nat) : Float :=
  Float.ofScientific 1 false exponent

/-- The greatest power of ten that is a float. -/
def greatestPower : Nat := 308

/-- A float divided by a power of ten, in steps of the greatest power until nothing is left. -/
def divideByPower (value : Float) (exponent : Nat) : Float :=
  if exponent ≤ greatestPower then value / powerOfTen exponent
  else if value == Float.ofNat 0 then value
  else divideByPower (value / powerOfTen greatestPower) (exponent - greatestPower)
termination_by exponent
decreasing_by
  simp only [greatestPower] at *
  omega

/-- The float of a significand and a power of ten, unless it is too large. -/
def scale? (significand : Nat) (exponent : Int) : Option Float :=
  let value := Float.ofNat significand
  if exponent < 0 then some (divideByPower value exponent.natAbs)
  else if exponent ≤ greatestPower then
    let scaled := value * powerOfTen exponent.natAbs
    if scaled.isInf then none else some scaled
  else if significand = 0 then some value
  else none

/-- The float of the digits of a number and its exponent. -/
def floatOfDigits? (negative : Bool) (whole fraction : List Char) (exponent : Int) :
    Option Json :=
  let (significand, skipped) := accumulate 0 whole
  let (significand, unused) := accumulate significand fraction
  let shift : Int := skipped.length - (fraction.length - unused.length : Nat)
  (scale? significand (shift + exponent)).map fun magnitude =>
    .float (if negative then -magnitude else magnitude)

/-- The number of the digits of an integer: minus zero and what is too long are floats. -/
def integerOfDigits? (negative : Bool) (whole : List Char) : Option Json :=
  let magnitude := Decimal.ofDigits whole
  if negative then
    if 0 < magnitude ∧ magnitude ≤ Int64.minValue.toInt.natAbs then some (.integer (-magnitude))
    else floatOfDigits? true whole [] 0
  else if magnitude < significandBound then some (.integer magnitude)
  else floatOfDigits? false whole [] 0

/-- Takes the digits at the beginning of a text, of which there has to be one. -/
def takeDigits? (text : List Char) : Option (List Char × List Char) :=
  let digits := text.takeWhile Char.isDigit
  if digits.isEmpty then none else some (digits, text.dropWhile Char.isDigit)

/-- Takes an optional fraction with its point. -/
def takeFraction? : List Char → Option (Option (List Char) × List Char)
  | '.' :: text => (takeDigits? text).map fun (digits, rest) => (some digits, rest)
  | text => some (none, text)

/-- Takes an optional exponent with its mark and sign. -/
def takeExponent? : List Char → Option (Option Int × List Char)
  | mark :: text =>
    if mark == 'e' || mark == 'E' then
      let (negative, rest) := Decimal.splitSign text
      (takeDigits? rest).map fun (digits, rest) =>
        let magnitude : Int := Decimal.ofDigits digits
        (some (if negative then -magnitude else magnitude), rest)
    else some (none, mark :: text)
  | [] => some (none, [])

/-- The JSON number of its parts; without a fraction and an exponent it is an integer. -/
def ofParts? (negative : Bool) (whole : List Char) (fraction : Option (List Char))
    (exponent : Option Int) : Option Json :=
  match fraction, exponent with
  | none, none => integerOfDigits? negative whole
  | _, _ => floatOfDigits? negative whole (fraction.getD []) (exponent.getD 0)

/-- Takes a number without its sign; only zero itself starts with the digit zero. -/
def takeMagnitude? (negative : Bool) (text : List Char) : Option (Json × List Char) :=
  match takeDigits? text with
  | none => none
  | some (whole, rest) =>
    if whole.head? == some '0' && 1 < whole.length then none
    else
      match takeFraction? rest with
      | none => none
      | some (fraction, rest) =>
        match takeExponent? rest with
        | none => none
        | some (exponent, rest) =>
          (ofParts? negative whole fraction exponent).map fun number => (number, rest)

/-- Takes a number. -/
def takeNumber? : List Char → Option (Json × List Char)
  | '-' :: text => takeMagnitude? true text
  | text => takeMagnitude? false text

theorem length_takeDigits? {text digits rest : List Char}
    (taken : takeDigits? text = some (digits, rest)) : rest.length < text.length := by
  have split := congrArg List.length (List.takeWhile_append_dropWhile (p := Char.isDigit) (l := text))
  simp only [takeDigits?] at taken
  split at taken
  · simp at taken
  · rename_i nonempty
    have := List.length_pos_iff.2 (mt List.isEmpty_iff.2 nonempty)
    simp only [Option.some.injEq, Prod.mk.injEq] at taken
    rw [List.length_append] at split
    rw [← taken.2]
    omega

theorem length_takeFraction? {text rest : List Char} {fraction : Option (List Char)}
    (taken : takeFraction? text = some (fraction, rest)) : rest.length ≤ text.length := by
  have digits := @length_takeDigits?
  unfold takeFraction? at taken
  split at taken <;> grind [Option.map_eq_some_iff]

theorem length_takeExponent? {text rest : List Char} {exponent : Option Int}
    (taken : takeExponent? text = some (exponent, rest)) : rest.length ≤ text.length := by
  have digits := @length_takeDigits?
  unfold takeExponent? at taken
  split at taken
  · rename_i text
    have := Decimal.length_splitSign text
    grind [Option.map_eq_some_iff]
  · grind

/-- A number takes at least one character. -/
theorem length_takeNumber? {text rest : List Char} {number : Json}
    (taken : takeNumber? text = some (number, rest)) : rest.length < text.length := by
  have digits := @length_takeDigits?
  have fractions := @length_takeFraction?
  have exponents := @length_takeExponent?
  unfold takeNumber? at taken
  split at taken <;> grind [takeMagnitude?, Option.map_eq_some_iff]

end MeteredRules.Json
