import MeteredRules.Decimal.Layout
import MeteredRules.Json.Basic
import MeteredRules.Text.Blank

/-!
# Writing JSON

JSON texts without blanks. Only quotes, backslashes and control characters are escaped.
-/

namespace MeteredRules.Json

/--
Floats as they are written in JSON: plain from `0.00001` to below `1e16`, an exponent with its sign
otherwise.
-/
def floatLayout : Decimal.Layout where
  leastPlain := -4
  greatestPlain := 16
  plus := "+"
  tie := .even

/-- A character inside of a string. -/
def escaped (character : Char) : List Char :=
  match character with
  | '"' => ['\\', '"']
  | '\\' => ['\\', '\\']
  | '\x08' => ['\\', 'b']
  | '\x0c' => ['\\', 'f']
  | '\n' => ['\\', 'n']
  | '\r' => ['\\', 'r']
  | '\t' => ['\\', 't']
  | other =>
    if other.toNat < 0x20 then
      ['\\', 'u', '0', '0', Nat.digitChar (other.toNat / 16), Nat.digitChar (other.toNat % 16)]
    else [other]

/-- A string with its quotes. -/
def quoted (text : String) : String :=
  "\"" ++ String.ofList (text.toList.flatMap escaped) ++ "\""

mutual

/-- The text of a JSON value. -/
def render : Json → String
  | .null => "null"
  | .boolean truth => if truth then "true" else "false"
  | .integer value => String.ofList (Decimal.ofInt value)
  | .float value => floatLayout.render value
  | .string text => quoted text
  | .array items => "[" ++ Text.joined "," (renderItems items) ++ "]"
  | .object entries => "\x7b" ++ Text.joined "," (renderEntries entries) ++ "\x7d"

/-- The texts of the items of an array. -/
def renderItems : List Json → List String
  | [] => []
  | item :: items => item.render :: renderItems items

/-- The texts of the entries of an object. -/
def renderEntries : List (String × Json) → List String
  | [] => []
  | (name, value) :: entries => (quoted name ++ ":" ++ value.render) :: renderEntries entries

end

end MeteredRules.Json
