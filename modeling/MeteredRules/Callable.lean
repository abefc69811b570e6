import MeteredRules.Builtin.Call

/-!
# Calling functions

A call of any function. Only `apply` calls another function, with the elements of an array that is
among its own arguments, so that a chain of calls ends with the nesting of the arrays: the recursion
is on the arguments, taken as one array.
-/

namespace MeteredRules.Callable

/-- Calls a function with the elements of an array as its arguments. -/
def callWith (host : Host) : (arguments : Value) → Callable → Action Value
  | .array [function, arguments], .builtin .apply =>
    match arguments with
    | .array _ =>
      match function with
      | .callable called => callWith host arguments called
      | other => .ofResult (.error (.refuse (.notApplicable other)))
    | other => .ofResult (Parameter.mismatch .array other)
  | .array arguments, .builtin .apply => Function.arityError 2 arguments
  | .array arguments, .builtin (.primitive primitive) => primitive.call arguments
  | .array arguments, .host _ key => host key arguments
  | other, _ => .ofResult (Parameter.mismatch .array other)

/-- Calls a function with a list of arguments. -/
def call (host : Host) (function : Callable) (arguments : List Value) : Action Value :=
  function.callWith host (.array arguments)

end MeteredRules.Callable
