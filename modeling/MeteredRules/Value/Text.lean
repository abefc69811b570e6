import MeteredRules.Instant.Text
import MeteredRules.Text.Blank
import MeteredRules.Value.Basic

/-!
# Values as text

A value has three texts. Its display is its source notation where it has one. Its plain text is
what strings are built from: strings stand in it without quotes. Its description names the type of
every part.
-/

namespace MeteredRules.Value

/-- The text of a truth value. -/
def truthText (truth : Bool) : String :=
  if truth then "true" else "false"

mutual

/-- The source notation of a value; functions have none and get a mark of their own. -/
def display : Value → String
  | .number amount => amount.render
  | .string text => "'" ++ text ++ "'"
  | .boolean truth => truthText truth
  | .nil => "nil"
  | .array items => "(array" ++ displayItems items ++ ")"
  | .instant moment => "#t\x7b" ++ moment.render ++ "\x7d"
  | .callable function => "#<callable:" ++ function.id ++ ">"

/-- The displays of the elements of an array, each after a space. -/
def displayItems : List Value → String
  | [] => ""
  | item :: items => " " ++ item.display ++ displayItems items

end

/-- The plain text of a value; `nil` has an empty one. -/
def plainText : Value → String
  | .string text => text
  | .nil => ""
  | .instant moment => moment.render
  | .array items => "[" ++ Text.joined ", " (items.map display) ++ "]"
  | value => value.display

mutual

/-- The description of a value. -/
def describe : Value → String
  | .number (.int value) => "Int(" ++ (Number.int value).render ++ ")"
  | .number (.float value) => "Float(" ++ (Number.float value).render ++ ")"
  | .string text => "String(\"" ++ text ++ "\")"
  | .boolean truth => "Bool(" ++ truthText truth ++ ")"
  | .nil => "Nil"
  | .array items => "Array(" ++ Text.joined ", " (describeItems items) ++ ")"
  | .instant moment => "Instant(" ++ moment.render ++ ")"
  | .callable function => "Callable(" ++ function.id ++ ")"

/-- The descriptions of the elements of an array. -/
def describeItems : List Value → List String
  | [] => []
  | item :: items => item.describe :: describeItems items

end

end MeteredRules.Value
