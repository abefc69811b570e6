/-!
# Argument counts

Every function and special form declares how many arguments it accepts.
-/

namespace MeteredRules

/-- The accepted numbers of arguments. -/
inductive Arity where
  | exact (count : Nat)
  | atLeast (count : Nat)
  /-- Any even number, zero included. -/
  | even
  | any
deriving DecidableEq

namespace Arity

/-- Whether a number of arguments is accepted. -/
def accepts : Arity → Nat → Bool
  | .exact count, got => got == count
  | .atLeast count, got => count ≤ got
  | .even, got => got % 2 == 0
  | .any, _ => true

/-- The number of arguments that a message names as expected where `got` of them are refused. -/
def expected : Arity → (got : Nat) → Nat
  | .exact count, _ => count
  | .atLeast count, _ => count
  | .even, got => got + 1
  | .any, got => got

end Arity

end MeteredRules
