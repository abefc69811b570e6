import MeteredRules.Value.Equality

/-!
# Expressions

The tree that is evaluated. The reader builds trees in which every form has a head and every
special form is one of the four with an accepted number of arguments; a tree made by hand may
violate both.
-/

namespace MeteredRules

/-- An expression. -/
inductive Node where
  /-- A literal. -/
  | atom (value : Value)
  /-- A name, looked up when it is evaluated. -/
  | symbol (name : String)
  /-- A call: a head and its arguments. -/
  | form (elements : List Node)
  /-- An operation that was recognised when the expression was built. -/
  | special (operation : Operation) (arguments : List Node)

instance : Inhabited Node := ⟨.atom .nil⟩

namespace Node

mutual

/-- Whether two expressions are equal, literals being compared as values. -/
def equals : Node → Node → Bool
  | .atom left, .atom right => left == right
  | .symbol left, .symbol right => left == right
  | .form left, .form right => equalNodes left right
  | .special left leftArguments, .special right rightArguments =>
    left == right && equalNodes leftArguments rightArguments
  | _, _ => false

/-- Whether two lists of expressions are equal element by element. -/
def equalNodes : List Node → List Node → Bool
  | [], [] => true
  | left :: lefts, right :: rights => left.equals right && equalNodes lefts rights
  | _, _ => false

end

instance : BEq Node := ⟨equals⟩

end Node

end MeteredRules
