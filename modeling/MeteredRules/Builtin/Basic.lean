import MeteredRules.Arity

/-!
# The built-in operations

The special forms, which decide themselves what they evaluate, and the built-in functions, which
take evaluated arguments. Of the functions only `apply` calls other functions; the rest are the
primitives. Every operation has a name in source texts and a declared arity.
-/

namespace MeteredRules

/-- The operations that receive their arguments unevaluated. -/
inductive SpecialForm where
  | and
  | or
  | ite
  | cond
deriving DecidableEq

/-- The built-in functions that call no other function. -/
inductive Primitive where
  | add | subtract | multiply | divide | modulo
  | greater | less | greaterOrEqual | lessOrEqual | equal | notEqual
  | not | isNil | identity
  | array | first | last | rest | length | max | min | member
  | str | upcase | downcase | strip
  | int | float | time | floor | ceil | round
  | days | hours | minutes | seconds
  | now | ago | fromNow
deriving DecidableEq

/-- The built-in functions. -/
inductive Builtin where
  | primitive (function : Primitive)
  /-- Calls a function with the elements of an array as its arguments. -/
  | apply
deriving DecidableEq

/-- The built-in operations: what a name can mean without a binding. -/
inductive Operation where
  | form (special : SpecialForm)
  | function (builtin : Builtin)
deriving DecidableEq

namespace SpecialForm

/-- The special forms in the order of the registry. -/
def all : List SpecialForm :=
  [.and, .or, .ite, .cond]

/-- The name of a special form. -/
def name : SpecialForm → String
  | .and => "and"
  | .or => "or"
  | .ite => "if"
  | .cond => "cond"

/-- The declared arity of a special form. -/
def arity : SpecialForm → Arity
  | .and => .atLeast 1
  | .or => .atLeast 1
  | .ite => .exact 3
  | .cond => .even

/-- The special form with a given name. -/
def ofName? (name : String) : Option SpecialForm :=
  all.find? fun form => form.name == name

end SpecialForm

namespace Primitive

/-- The primitives in the order of the registry. -/
def all : List Primitive :=
  [.add, .subtract, .multiply, .divide, .modulo,
    .greater, .less, .greaterOrEqual, .lessOrEqual, .equal, .notEqual,
    .not, .isNil, .identity,
    .array, .first, .last, .rest, .length, .max, .min, .member,
    .str, .upcase, .downcase, .strip,
    .int, .float, .time, .floor, .ceil, .round,
    .days, .hours, .minutes, .seconds,
    .now, .ago, .fromNow]

/-- The name of a primitive. -/
def name : Primitive → String
  | .add => "+"
  | .subtract => "-"
  | .multiply => "*"
  | .divide => "/"
  | .modulo => "%"
  | .greater => ">"
  | .less => "<"
  | .greaterOrEqual => ">="
  | .lessOrEqual => "<="
  | .equal => "="
  | .notEqual => "!="
  | .not => "not"
  | .isNil => "nil?"
  | .identity => "identity"
  | .array => "array"
  | .first => "first"
  | .last => "last"
  | .rest => "rest"
  | .length => "length"
  | .max => "max"
  | .min => "min"
  | .member => "member?"
  | .str => "str"
  | .upcase => "upcase"
  | .downcase => "downcase"
  | .strip => "strip"
  | .int => "int"
  | .float => "float"
  | .time => "time"
  | .floor => "floor"
  | .ceil => "ceil"
  | .round => "round"
  | .days => "days"
  | .hours => "hours"
  | .minutes => "minutes"
  | .seconds => "seconds"
  | .now => "now"
  | .ago => "ago"
  | .fromNow => "from-now"

/-- The declared arity of a primitive. -/
def arity : Primitive → Arity
  | .add | .array | .str => .any
  | .subtract | .multiply => .atLeast 1
  | .divide | .greater | .less | .greaterOrEqual | .lessOrEqual | .equal => .atLeast 2
  | .modulo | .notEqual | .member => .exact 2
  | .now => .exact 0
  | .not | .isNil | .identity | .first | .last | .rest | .length | .max | .min
  | .upcase | .downcase | .strip | .int | .float | .time | .floor | .ceil | .round
  | .days | .hours | .minutes | .seconds | .ago | .fromNow => .exact 1

end Primitive

namespace Builtin

/-- The built-in functions in the order of the registry. -/
def all : List Builtin :=
  Primitive.all.map .primitive ++ [.apply]

/-- The name of a built-in function. -/
def name : Builtin → String
  | .primitive function => function.name
  | .apply => "apply"

/-- The declared arity of a built-in function. -/
def arity : Builtin → Arity
  | .primitive function => function.arity
  | .apply => .exact 2

/-- The built-in function with a given name. -/
def ofName? (name : String) : Option Builtin :=
  all.find? fun function => function.name == name

end Builtin

namespace Operation

/-- The registry: every built-in operation, the special forms first. -/
def all : List Operation :=
  SpecialForm.all.map .form ++ Builtin.all.map .function

/-- The name of an operation. -/
def name : Operation → String
  | .form special => special.name
  | .function builtin => builtin.name

/-- The declared arity of an operation. -/
def arity : Operation → Arity
  | .form special => special.arity
  | .function builtin => builtin.arity

/-- Whether an operation is a special form. -/
def isSpecial : Operation → Bool
  | .form _ => true
  | .function _ => false

/-- The operation with a given name. -/
def ofName? (name : String) : Option Operation :=
  all.find? fun operation => operation.name == name

end Operation

end MeteredRules
