import MeteredRules.Error

/-!
# Comparisons

Numbers, strings and instants are ordered among themselves. Equality asks for values of one type,
except that `nil` compares with everything; functions are never compared by a program. A comparison
of many values looks at all of them, so that a value of the wrong type is reported even if the
answer is already settled.
-/

namespace MeteredRules.Comparison

/-- How two values of one ordered type compare; strings are ordered by code points. -/
def order : Value → Value → Except Error Ordering
  | .number left, .number right =>
    match left.compare? right with
    | some ordering => .ok ordering
    | none => .error (.refuse (.unordered (.number left) (.number right)))
  | .string left, .string right => .ok (compare left right)
  | .instant left, .instant right => .ok (left.order right)
  | left, right => .error (.refuse (.incomparable left right))

/-- Whether every value and its successor compare as accepted. -/
def chain (accepted : Ordering → Bool) : (first : Value) → List Value → Except Error Bool
  | _, [] => .ok true
  | first, second :: rest => do
    let ordering ← order first second
    let others ← chain accepted second rest
    return accepted ordering && others

/-- Whether equality is defined between two values. -/
def areEquatable : Value → Value → Bool
  | .nil, _ | _, .nil => true
  | .number _, .number _ | .string _, .string _ | .boolean _, .boolean _
  | .array _, .array _ | .instant _, .instant _ => true
  | _, _ => false

/-- Whether two values are equal, if equality is defined between them. -/
def equal (left right : Value) : Except Error Bool :=
  if areEquatable left right then .ok (right == left)
  else .error (.refuse (.incomparable left right))

/-- Whether all further values are equal to the first. -/
def allEqual (first : Value) : List Value → Except Error Bool
  | [] => .ok true
  | second :: rest => do
    let same ← equal first second
    let others ← allEqual first rest
    return same && others

/-- Whether two values differ, if equality is defined between them. -/
def notEqual (left right : Value) : Except Error Bool :=
  if areEquatable left right then .ok (left != right)
  else .error (.refuse (.incomparable left right))

/--
The first of the greatest values, or of the least, as the wanted ordering of a better value against
the best one so far says; `nil` if there are no values.
-/
def extreme (wanted : Ordering) : List Value → Except Error Value
  | [] => .ok .nil
  | first :: rest =>
    rest.foldlM
      (fun best value => do
        let ordering ← order value best
        return if ordering == wanted then value else best)
      first

end MeteredRules.Comparison
