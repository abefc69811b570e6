import MeteredRules.Value.Basic

/-!
# Equality of values

Numbers are equal if they are numerically equal, whatever their kind; arrays are equal element by
element; functions are equal if they appear under the same id. Values of different types are never
equal, and a NaN is not equal to itself.
-/

namespace MeteredRules.Value

mutual

/-- Whether two values are equal. -/
def equals : Value → Value → Bool
  | .number left, .number right => left == right
  | .string left, .string right => left == right
  | .boolean left, .boolean right => left == right
  | .nil, .nil => true
  | .array left, .array right => equalItems left right
  | .instant left, .instant right => left == right
  | .callable left, .callable right => left.id == right.id
  | _, _ => false

/-- Whether two lists of values are equal element by element. -/
def equalItems : List Value → List Value → Bool
  | [], [] => true
  | left :: lefts, right :: rights => left.equals right && equalItems lefts rights
  | _, _ => false

end

instance : BEq Value := ⟨equals⟩

end MeteredRules.Value
