import MeteredRules.Builtin.Basic
import MeteredRules.Instant.Basic
import MeteredRules.Number.Basic

/-!
# Values

The values that expressions evaluate to. Functions are values too: a built-in function is known by
which one it is, and a function of the host by an id, under which it appears, and a key, under which
the host keeps it. Values hold no code, so that they can be compared and recursed over.
-/

namespace MeteredRules

/-- A function as a value. -/
inductive Callable where
  | builtin (function : Builtin)
  | host (id key : String)
deriving DecidableEq

/-- The name under which a function appears. -/
def Callable.id : Callable → String
  | .builtin function => function.name
  | .host id _ => id

/-- What an expression evaluates to. -/
inductive Value where
  | number (amount : Number)
  | string (text : String)
  | boolean (truth : Bool)
  | nil
  | array (items : List Value)
  | instant (moment : Instant)
  | callable (function : Callable)

instance : Inhabited Value := ⟨.nil⟩

namespace Value

/-- An integer as a value. -/
def int (value : Int64) : Value :=
  .number (.int value)

/-- A float as a value. -/
def float (value : Float) : Value :=
  .number (.float value)

/-- An optional value, `nil` standing for a missing one. -/
def ofOption : Option Value → Value
  | some value => value
  | none => .nil

/-- Only `nil` and `false` count as false. -/
def isTruthy : Value → Bool
  | .nil | .boolean false => false
  | _ => true

/-- Whether a value is `nil`. -/
def isNil : Value → Bool
  | .nil => true
  | _ => false

/-- The name of the type of a value. -/
def typeName : Value → String
  | .number (.int _) => "integer"
  | .number (.float _) => "float"
  | .string _ => "string"
  | .boolean _ => "boolean"
  | .nil => "nil"
  | .array _ => "array"
  | .instant _ => "instant"
  | .callable _ => "callable"

end Value

end MeteredRules
