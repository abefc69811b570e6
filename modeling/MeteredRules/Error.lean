import MeteredRules.Node.Text
import MeteredRules.ParseError

/-!
# Errors

Why reading or evaluating a program failed. An error keeps its cause as data, and an error about
arguments or about a computation also keeps the expressions that were being evaluated, the innermost
first. The wording of all errors is in `Error.render`.
-/

namespace MeteredRules

/-- What a parameter of a function accepts. -/
inductive Expectation where
  | number
  | integer
  | boolean
  | instant
  | string
  | array
deriving DecidableEq

/-- The name of what is accepted. -/
def Expectation.name : Expectation → String
  | .number => "number"
  | .integer => "integer"
  | .boolean => "boolean"
  | .instant => "instant"
  | .string => "string"
  | .array => "array"

/-- Why a value was refused. -/
inductive Refusal where
  | mismatch (expected : Expectation) (value : Value)
  | divisionByZero
  /-- Two numbers one of which is a NaN. -/
  | unordered (left right : Value)
  /-- Two values of types that do not compare. -/
  | incomparable (left right : Value)
  | emptyArray (function : Primitive)
  | noLength (value : Value)
  | noInteger (value : Float)
  | notIntegerText (text : String)
  | notFloatText (text : String)
  /-- Neither a string nor a number, for a conversion to a number. -/
  | noConversion (function : Primitive) (value : Value)
  | notTimeText (text : String)
  | durationRange (seconds : Number)
  | instantRange (seconds : Number)
  | notApplicable (value : Value)
  | notCallable (value : Value)
  | emptyForm
  | reservedName (form : SpecialForm)
  | noJsonFloat (value : Float)
  | noJsonCallable (function : Callable)
  /-- A refusal in the words of a host function. -/
  | reported (message : String)

/-- What overflowed. -/
inductive Overflow where
  | addition
  | negation
  | subtraction
  | multiplication
  | division
  | modulo
  | duration
  | length
deriving DecidableEq

/-- Why a computation failed although its arguments were accepted. -/
inductive Failure where
  | overflow (activity : Overflow)
  /-- A function in the place of a special form. -/
  | notSpecialForm (operation : Operation)
  /-- A failure in the words of a host function. -/
  | reported (message : String)

/-- An error of reading or evaluating a program. -/
inductive Error where
  | parse (error : ParseError)
  | argument (cause : Refusal) (trail : List Node)
  | arity (expected got : Nat) (expression : Option String)
  | budget (limit : UInt64)
  | unbound (name : String)
  | evaluation (cause : Failure) (trail : List Node)

/-- Names a value together with its type. -/
def Value.withType (value : Value) : String :=
  value.typeName ++ ": " ++ value.display

/-- The wording of a refusal. -/
def Refusal.render : Refusal → String
  | .mismatch expected value => "expected " ++ expected.name ++ ", got " ++ value.withType
  | .divisionByZero => "division by zero"
  | .unordered left right => "cannot order " ++ left.display ++ " and " ++ right.display
  | .incomparable left right =>
    "cannot compare " ++ left.typeName ++ " with " ++ right.typeName ++ ": " ++ left.display ++
      " and " ++ right.display
  | .emptyArray function => function.name ++ " of empty array"
  | .noLength value => "length expects an array or string, got " ++ value.withType
  | .noInteger value => Number.floatText value ++ " does not fit in an integer"
  | .notIntegerText text => "cannot convert '" ++ text ++ "' to an integer"
  | .notFloatText text => "cannot convert '" ++ text ++ "' to a float"
  | .noConversion function value =>
    function.name ++ " expects a string or number, got " ++ value.withType
  | .notTimeText text => "cannot parse '" ++ text ++ "' as a time"
  | .durationRange seconds => "duration out of range: " ++ seconds.render
  | .instantRange seconds => "instant out of range: " ++ seconds.render
  | .notApplicable value => "apply expects a callable, got " ++ value.withType
  | .notCallable value => value.typeName ++ " is not callable: " ++ value.display
  | .emptyForm => "cannot evaluate an empty form"
  | .reservedName form => "'" ++ form.name ++ "' is a special form and cannot be used as a value"
  | .noJsonFloat value => Number.floatText value ++ " has no JSON representation"
  | .noJsonCallable function => "callable '" ++ function.id ++ "' has no JSON representation"
  | .reported message => message

/-- The name of an overflowing computation. -/
def Overflow.name : Overflow → String
  | .addition => "addition"
  | .negation => "negation"
  | .subtraction => "subtraction"
  | .multiplication => "multiplication"
  | .division => "division"
  | .modulo => "modulo"
  | .duration => "duration"
  | .length => "length"

/-- The wording of a failure. -/
def Failure.render : Failure → String
  | .overflow activity => "Integer overflow in " ++ activity.name
  | .notSpecialForm operation => "'" ++ operation.name ++ "' is not a special form"
  | .reported message => message

namespace Error

/-- An error about an argument, outside of any expression. -/
def refuse (cause : Refusal) : Error :=
  .argument cause []

/-- An error of a computation, outside of any expression. -/
def fail (cause : Failure) : Error :=
  .evaluation cause []

/-- Records that an error left an expression; the errors that keep no trail are unchanged. -/
def within (node : Node) : Error → Error
  | .argument cause trail => .argument cause (trail ++ [node])
  | .evaluation cause trail => .evaluation cause (trail ++ [node])
  | error => error

/-- One line for each expression that an error has left. -/
def trailText : List Node → String
  | [] => ""
  | node :: trail => "\n  Context: while evaluating: " ++ node.display ++ trailText trail

/-- The wording of an error. -/
def render : Error → String
  | .parse error => error.render
  | .argument cause trail => "ArgumentError: " ++ cause.render ++ trailText trail
  | .arity expected got (some expression) =>
    "ArityError: expression " ++ expression ++ ": expected " ++ expected.repr ++
      " arguments, got " ++ got.repr
  | .arity expected got none =>
    "ArityError: function expected " ++ expected.repr ++ " arguments but got " ++ got.repr
  | .budget limit =>
    "OpsThresholdError: operation limit of " ++ limit.toNat.repr ++ " exceeded"
  | .unbound name => "Unbound variable: " ++ name
  | .evaluation cause trail => "EvaluationError: " ++ cause.render ++ trailText trail

/-- Errors about the arguments of a call: their values or their number. -/
def isArgumentError : Error → Bool
  | .argument _ _ | .arity _ _ _ => true
  | _ => false

end Error

/-- Refuses a number of arguments that an arity does not accept. -/
def Arity.check (arity : Arity) (got : Nat) : Except Error Unit :=
  if arity.accepts got then .ok () else .error (.arity (arity.expected got) got none)

end MeteredRules
