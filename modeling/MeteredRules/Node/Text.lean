import MeteredRules.Node.Basic
import MeteredRules.Value.Text

/-!
# Expressions as text

The display of an expression is its source notation, with one space between neighbours. Its
description names the kind of every part.
-/

namespace MeteredRules.Node

mutual

/-- The source notation of an expression. -/
def display : Node → String
  | .atom value => value.display
  | .symbol name => name
  | .form [] => "()"
  | .form (head :: arguments) => "(" ++ head.display ++ displayArguments arguments ++ ")"
  | .special operation arguments => "(" ++ operation.name ++ displayArguments arguments ++ ")"

/-- The displays of the arguments of a form, each after a space. -/
def displayArguments : List Node → String
  | [] => ""
  | argument :: arguments => " " ++ argument.display ++ displayArguments arguments

end

mutual

/-- The description of an expression. -/
def describe : Node → String
  | .atom value => "Atom(" ++ value.describe ++ ")"
  | .symbol name => "Symbol(" ++ name ++ ")"
  | .form elements => "Form(" ++ Text.joined ", " (describeNodes elements) ++ ")"
  | .special operation arguments =>
    "SpecialForm(" ++ operation.name ++ ", [" ++ Text.joined ", " (describeNodes arguments) ++ "])"

/-- The descriptions of a list of expressions. -/
def describeNodes : List Node → List String
  | [] => []
  | node :: nodes => node.describe :: describeNodes nodes

end

/-- A program as text: its expressions with one space between them. -/
def displayProgram (nodes : List Node) : String :=
  Text.joined " " (nodes.map display)

end MeteredRules.Node
