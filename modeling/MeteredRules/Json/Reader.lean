import Std.Data.TreeMap
import MeteredRules.Json.Token

/-!
# Reading JSON

Tokens are read onto a stack of the arrays and objects that are still open. A text holds exactly one
value. Of repeated names in an object the last counts, and the entries are listed in the order of
their names.
-/

namespace MeteredRules.Json

/-- An array or object whose closing mark is still to come; what it holds is listed last first. -/
inductive Frame where
  | array (items : List Json)
  /-- An object with the name whose value is read next. -/
  | object (entries : List (String × Json)) (name : String)

/-- What may come next. -/
inductive Expected where
  /-- A value. -/
  | value
  /-- A value, or the end of an array without items. -/
  | firstItem
  /-- A name. -/
  | name
  /-- A name, or the end of an object without entries. -/
  | firstName
  /-- The colon after a name. -/
  | colon
  /-- A comma, or the end of the innermost array or object. -/
  | separator
  /-- Nothing: the value of the text is complete. -/
  | nothing (value : Json)

/-- How far a text is read. -/
structure State where
  /-- The open arrays and objects, the innermost first. -/
  stack : List Frame
  expected : Expected

/-- How deep arrays and objects may be nested. -/
def maxDepth : Nat := 127

/-- The object with given entries, the last first. -/
def ofEntries (entries : List (String × Json)) : Json :=
  let table : Std.TreeMap String Json :=
    entries.foldr (fun entry table => table.insert entry.1 entry.2) ∅
  .object table.toList

namespace State

/-- Nothing is read yet. -/
def initial : State :=
  ⟨[], .value⟩

/-- Adds a complete value to the innermost array or object. -/
def complete (value : Json) : List Frame → State
  | [] => ⟨[], .nothing value⟩
  | .array items :: frames => ⟨.array (value :: items) :: frames, .separator⟩
  | .object entries name :: frames => ⟨.object ((name, value) :: entries) name :: frames, .separator⟩

/-- Opens an array or object, unless they are nested too deeply. -/
def enter? (stack : List Frame) (frame : Frame) (expected : Expected) : Option State :=
  if stack.length < maxDepth then some ⟨frame :: stack, expected⟩ else none

/-- Reads a token where a value may stand. -/
def beginValue? (stack : List Frame) : Token → Option State
  | .scalar value => some (complete value stack)
  | .string text => some (complete (.string text) stack)
  | .openArray => enter? stack (.array []) .firstItem
  | .openObject => enter? stack (.object [] "") .firstName
  | _ => none

/-- Reads one token. -/
def step? (state : State) (token : Token) : Option State :=
  match state.expected, token, state.stack with
  | .value, token, stack => beginValue? stack token
  | .firstItem, .closeArray, .array _ :: frames => some (complete (.array []) frames)
  | .firstItem, token, stack => beginValue? stack token
  | .firstName, .closeObject, .object _ _ :: frames => some (complete (.object []) frames)
  | .firstName, .string name, .object entries _ :: frames =>
    some ⟨.object entries name :: frames, .colon⟩
  | .name, .string name, .object entries _ :: frames =>
    some ⟨.object entries name :: frames, .colon⟩
  | .colon, .colon, stack => some ⟨stack, .value⟩
  | .separator, .comma, .array items :: frames => some ⟨.array items :: frames, .value⟩
  | .separator, .comma, .object entries name :: frames =>
    some ⟨.object entries name :: frames, .name⟩
  | .separator, .closeArray, .array items :: frames =>
    some (complete (.array items.reverse) frames)
  | .separator, .closeObject, .object entries _ :: frames =>
    some (complete (ofEntries entries) frames)
  | _, _, _ => none

/-- The value that was read, if it is complete. -/
def finish? (state : State) : Option Json :=
  match state.expected with
  | .nothing value => some value
  | _ => none

end State

/-- Reads the value of a JSON text. -/
def read? (text : String) : Option Json := do
  let tokens ← scan? text.toList
  let state ← tokens.foldlM State.step? .initial
  state.finish?

/--
A parser of JSON texts, which gives the value of a text or a message on what is wrong with it.
-/
abbrev Parser := String → Except String Json

/-- The parser that reads texts as above; its message does not tell where a text is at fault. -/
def parse : Parser := fun text =>
  match read? text with
  | some json => .ok json
  | none => .error "malformed text"

end MeteredRules.Json
