import MeteredRules.Builtin.Arithmetic
import MeteredRules.Decimal.Reading
import MeteredRules.Error
import MeteredRules.Instant.Reading

/-!
# Conversions

Integers, floats and instants from strings and numbers. Blanks around a text are ignored.
-/

namespace MeteredRules.Conversion

/-- Rounds a number to an integer. -/
def round (rounding : Binary64.Rounding) : Number → Except Error Int64
  | .int value => .ok value
  | .float value =>
    match (Number.float value).toInt? rounding with
    | some integer => .ok integer
    | none => .error (.refuse (.noInteger value))

/-- The integer that a text denotes: an optional sign and digits. -/
def integerOfText? (text : String) : Option Int64 :=
  (Decimal.readInt? (Text.trim text.toList)).bind Number.fit?

/-- The float that a text denotes. -/
def floatOfText? (text : String) : Option Float :=
  Decimal.readFloat? (Text.trim text.toList)

/-- The integer of a text, or of a number without its fraction. -/
def toInteger : Value → Except Error Int64
  | .string text =>
    match integerOfText? text with
    | some integer => .ok integer
    | none => .error (.refuse (.notIntegerText text))
  | .number number => round .truncate number
  | other => .error (.refuse (.noConversion .int other))

/-- The float of a text or a number. -/
def toFloat : Value → Except Error Float
  | .string text =>
    match floatOfText? text with
    | some float => .ok float
    | none => .error (.refuse (.notFloatText text))
  | .number number => .ok number.toFloat
  | other => .error (.refuse (.noConversion .float other))

/-- The instant of a text. -/
def toInstant (text : String) : Except Error Instant :=
  match Instant.read? text.toList with
  | some instant => .ok instant
  | none => .error (.refuse (.notTimeText text))

end MeteredRules.Conversion
