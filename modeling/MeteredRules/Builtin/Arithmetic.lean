import MeteredRules.Error
import MeteredRules.Number.Arithmetic

/-!
# Arithmetic functions

Folds of the binary operations from left to right. Each intermediate result has to fit, and a zero
divisor is refused when its turn comes.
-/

namespace MeteredRules.Arithmetic

/-- The result of an operation, or the overflow of the named activity. -/
def orOverflow {α : Type} (activity : Overflow) : Option α → Except Error α
  | some result => .ok result
  | none => .error (.fail (.overflow activity))

/-- The sum of any number of numbers; that of none is the integer zero. -/
def sum (numbers : List Number) : Except Error Number :=
  numbers.foldlM (fun total number => orOverflow .addition (total.add? number)) (.int 0)

/-- The first number less all others, or its negation if there are no others. -/
def difference (first : Number) : List Number → Except Error Number
  | [] => orOverflow .negation ((Number.int 0).subtract? first)
  | number :: numbers =>
    (number :: numbers).foldlM
      (fun total number => orOverflow .subtraction (total.subtract? number)) first

/-- The product of the first number and all others. -/
def product (first : Number) (numbers : List Number) : Except Error Number :=
  numbers.foldlM (fun total number => orOverflow .multiplication (total.multiply? number)) first

/-- One division; zero is refused as a divisor. -/
def divide (dividend divisor : Number) : Except Error Number :=
  if divisor.isZero then .error (.refuse .divisionByZero)
  else orOverflow .division (dividend.divide? divisor)

/-- The first number divided by all others in turn. -/
def quotient (first : Number) (numbers : List Number) : Except Error Number :=
  numbers.foldlM divide first

/-- The remainder of one division; zero is refused as a divisor. -/
def modulo (dividend divisor : Number) : Except Error Number :=
  if divisor.isZero then .error (.refuse .divisionByZero)
  else orOverflow .modulo (dividend.modulo? divisor)

end MeteredRules.Arithmetic
