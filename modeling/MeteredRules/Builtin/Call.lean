import MeteredRules.Builtin.Comparison
import MeteredRules.Builtin.Conversion
import MeteredRules.Builtin.Duration
import MeteredRules.Parameter
import MeteredRules.Text.Case

/-!
# Calling the primitives

What each primitive does once the number of its arguments is accepted.
-/

namespace MeteredRules.Primitive

/-- A computed value as an action. -/
def give {α : Type} (result : Except Error α) (asValue : α → Value) : Action Value :=
  .ofResult (result.map asValue)

/-- The body of a comparison of neighbours. -/
def comparison (accepted : Ordering → Bool) : Function :=
  .variadicAfter .value .value fun first rest =>
    give (Comparison.chain accepted first rest) .boolean

/-- The body of a rounding function. -/
def rounding (direction : Binary64.Rounding) : Function :=
  .unary .number fun number => give (Conversion.round direction number) .int

/-- The body of a function that counts seconds in a unit. -/
def duration (unit : DurationUnit) : Function :=
  .unary .number fun amount => give (Duration.ofUnit unit amount) .number

/-- The body of a function that counts from the present instant. -/
def relative (direction : Duration.Direction) : Function :=
  .unary .number fun seconds => do
    let present ← Action.readClock
    give (Duration.offset present direction seconds) .instant

/-- The elements of a nonempty array; the named function refuses the empty one. -/
def nonempty (function : Primitive) (body : Value → List Value → Value) : Function :=
  .unary (.array .value) fun
    | [] => .ofResult (.error (.refuse (.emptyArray function)))
    | head :: tail => pure (body head tail)

/-- The number of elements of an array or of characters of a string. -/
def lengthOf : Value → Except Error Int64
  | .array items => Arithmetic.orOverflow .length (Number.fit? items.length)
  | .string text => Arithmetic.orOverflow .length (Number.fit? text.length)
  | other => .error (.refuse (.noLength other))

/-- The last of one or more values. -/
def lastOf (first : Value) (rest : List Value) : Value :=
  rest.getLastD first

/-- What a primitive does with a list of arguments of an accepted length. -/
def body : Primitive → Function
  | .add => .variadic .number fun numbers => give (Arithmetic.sum numbers) .number
  | .subtract => .variadicAfter .number .number fun first rest =>
    give (Arithmetic.difference first rest) .number
  | .multiply => .variadicAfter .number .number fun first rest =>
    give (Arithmetic.product first rest) .number
  | .divide => .variadicAfter .number .number fun first rest =>
    give (Arithmetic.quotient first rest) .number
  | .modulo => .binary .number .number fun dividend divisor =>
    give (Arithmetic.modulo dividend divisor) .number
  | .greater => comparison Ordering.isGT
  | .less => comparison Ordering.isLT
  | .greaterOrEqual => comparison Ordering.isGE
  | .lessOrEqual => comparison Ordering.isLE
  | .equal => .variadicAfter .value .value fun first rest =>
    give (Comparison.allEqual first rest) .boolean
  | .notEqual => .binary .value .value fun left right =>
    give (Comparison.notEqual left right) .boolean
  | .not => .unary .value fun value => pure (.boolean !value.isTruthy)
  | .isNil => .unary .value fun value => pure (.boolean value.isNil)
  | .identity => .unary .value fun value => pure value
  | .array => .variadic .value fun values => pure (.array values)
  | .first => nonempty .first fun first _ => first
  | .last => nonempty .last lastOf
  | .rest => nonempty .rest fun _ rest => .array rest
  | .length => .unary .value fun value => give (lengthOf value) .int
  | .max => .unary (.array .value) fun values => .ofResult (Comparison.extreme .gt values)
  | .min => .unary (.array .value) fun values => .ofResult (Comparison.extreme .lt values)
  | .member => .binary .value (.array .value) fun wanted values =>
    pure (.boolean (values.any (· == wanted)))
  | .str => .variadic .value fun values => pure (.string (String.join (values.map Value.plainText)))
  | .upcase => .unary .string fun text => pure (.string (Text.upcase text))
  | .downcase => .unary .string fun text => pure (.string (Text.downcase text))
  | .strip => .unary .string fun text => pure (.string (Text.strip text))
  | .int => .unary .value fun value => give (Conversion.toInteger value) .int
  | .float => .unary .value fun value => give (Conversion.toFloat value) .float
  | .time => .unary .string fun text => give (Conversion.toInstant text) .instant
  | .floor => rounding .floor
  | .ceil => rounding .ceiling
  | .round => rounding .nearest
  | .days => duration .days
  | .hours => duration .hours
  | .minutes => duration .minutes
  | .seconds => duration .seconds
  | .now => .nullary do return .instant (← Action.readClock)
  | .ago => relative .backward
  | .fromNow => relative .forward

/-- Calls a primitive: the number of arguments is checked first. -/
def call (primitive : Primitive) : Function :=
  .checked primitive.arity primitive.body

end MeteredRules.Primitive
