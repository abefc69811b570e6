import MeteredRules.Environment
import MeteredRules.Error
import MeteredRules.Json.Reader
import MeteredRules.Json.Text
import MeteredRules.Number.Arithmetic

/-!
# Values as JSON

Bindings come in as a JSON object and results go out as JSON. Objects have no value of their own,
and floats that are no numbers and functions have no JSON. An instant goes out as its text. How a text
is parsed is a parameter, since the error of bindings quotes the message of the parser.
-/

namespace MeteredRules

namespace Json

/-- The error of a JSON text that cannot be used. -/
def unusable (message : String) : Error :=
  .parse (.ofMessage .invalidSyntax message)

end Json

namespace Value

mutual

/-- The value of a JSON tree; an integer that does not fit becomes a float. -/
def ofJson : Json → Except Error Value
  | .null => .ok .nil
  | .boolean truth => .ok (.boolean truth)
  | .integer value =>
    match Number.fit? value with
    | some integer => .ok (.int integer)
    | none => .ok (.float (Float.ofInt value))
  | .float value => .ok (.float value)
  | .string text => .ok (.string text)
  | .array items => do return .array (← ofJsonItems items)
  | .object _ => .error (Json.unusable "nested objects have no value representation")

/-- The values of the items of a JSON array. -/
def ofJsonItems : List Json → Except Error (List Value)
  | [] => .ok []
  | item :: items => do
    let value ← ofJson item
    let values ← ofJsonItems items
    return value :: values

end

mutual

/-- A value as a JSON tree. -/
def toJson : Value → Except Error Json
  | .number (.int value) => .ok (.integer value.toInt)
  | .number (.float value) =>
    if value.isFinite then .ok (.float value) else .error (.refuse (.noJsonFloat value))
  | .string text => .ok (.string text)
  | .boolean truth => .ok (.boolean truth)
  | .nil => .ok .null
  | .array items => do return .array (← toJsonItems items)
  | .instant moment => .ok (.string moment.render)
  | .callable function => .error (.refuse (.noJsonCallable function))

/-- The elements of an array as JSON trees. -/
def toJsonItems : List Value → Except Error (List Json)
  | [] => .ok []
  | item :: items => do
    let json ← toJson item
    let jsons ← toJsonItems items
    return json :: jsons

end

/-- A value as JSON text. -/
def jsonText (value : Value) : Except Error String := do
  return (← value.toJson).render

end Value

namespace Environment

/-- Binds the entries of a JSON object; the error of a bad one tells its name. -/
def ofEntries (environment : Environment) : List (String × Json) → Except Error Environment
  | [] => .ok environment
  | (name, json) :: entries =>
    match Value.ofJson json with
    | .ok value => ofEntries (environment.define name value) entries
    | .error error => .error (Json.unusable ("binding '" ++ name ++ "': " ++ error.render))

/-- The bindings of a JSON text, which has to be an object. -/
def ofJsonText (parse : Json.Parser) (text : String) : Except Error Environment :=
  match parse text with
  | .error message => .error (Json.unusable ("Invalid JSON: " ++ message))
  | .ok (.object entries) => ofEntries empty entries
  | .ok _ => .error (Json.unusable "bindings must be a JSON object of name to value")

end Environment

end MeteredRules
