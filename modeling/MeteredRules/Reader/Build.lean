import MeteredRules.Error
import MeteredRules.Reader.Token

/-!
# From tokens to expressions

Tokens are read one after the other onto a stack of the forms that are still open. A form is
complete at its closing parenthesis; an expression outside of all forms is checked for the arities
of its special forms as soon as it is complete.
-/

namespace MeteredRules

namespace Node

/-- The expression of a form: a special form if its head is the name of one. -/
def ofElements : List Node → Node
  | .symbol name :: arguments =>
    match SpecialForm.ofName? name with
    | some recognized => .special (.form recognized) arguments
    | none => .form (.symbol name :: arguments)
  | elements => .form elements

mutual

/-- Refuses a special form with a number of arguments that it does not accept, the outer first. -/
def checkArities : Node → Except Error Unit
  | .atom _ | .symbol _ => .ok ()
  | .form elements => checkAllArities elements
  | .special operation arguments =>
    if operation.arity.accepts arguments.length then checkAllArities arguments
    else
      .error (.arity (operation.arity.expected arguments.length) arguments.length
        (some (Node.special operation arguments).display))

/-- Checks the arities in a list of expressions from left to right. -/
def checkAllArities : List Node → Except Error Unit
  | [] => .ok ()
  | node :: nodes => do
    checkArities node
    checkAllArities nodes

end

end Node

namespace Reader

namespace Fault

/-- The kind of error that a fault is. -/
def kind : Fault → ParseErrorKind
  | .tooDeeplyNested _ => .tooDeeplyNested
  | .unfinished => .incomplete
  | .invalidTime | .integerRange => .invalidLiteral
  | .emptyForm | .unrecognized => .invalidSyntax
  | .unmatchedClosing => .trailingContent

/-- The wording of a fault. -/
def message : Fault → String
  | .tooDeeplyNested limit =>
    "Expression too deeply nested (max depth: " ++ limit.repr ++ ")"
  | .unfinished => "Unexpected end of input: unterminated string, form or literal"
  | .invalidTime => "Invalid time literal"
  | .integerRange => "Integer literal out of range"
  | .emptyForm => "Empty form: a form needs a head"
  | .unmatchedClosing => "Unexpected ')' without matching '('"
  | .unrecognized => "Unrecognized token"

/-- How much of the text at a fault is quoted. -/
def foundLength : Nat := 20

/-- The beginning of the word at a fault. -/
def foundAt (text : List Char) : Option String :=
  match (text.takeWhile fun character => !Text.isBlank character).take foundLength with
  | [] => none
  | found => some (String.ofList found)

/-- The error of a fault in a source text, given the text from the fault on. -/
def toError (fault : Fault) (source : List Char) (text : List Char) : Error :=
  .parse (.atPosition fault.kind fault.message source (source.length - text.length) (foundAt text))

end Fault

/-- A form whose closing parenthesis is still to come. -/
structure Frame where
  /-- The source text from the opening parenthesis on. -/
  source : List Char
  /-- The elements read so far, the last first. -/
  elements : List Node

/-- How far a text is read. -/
structure State where
  /-- The open forms, the innermost first. -/
  stack : List Frame
  /-- The complete expressions outside of all forms, the last first. -/
  complete : List Node

namespace State

/-- Nothing is read yet. -/
def initial : State :=
  ⟨[], []⟩

/-- Adds a complete expression to the innermost open form, or to the program. -/
def add (state : State) (node : Node) : Except Error State :=
  match state.stack with
  | [] => do
    node.checkArities
    return { state with complete := node :: state.complete }
  | frame :: frames =>
    .ok { state with stack := { frame with elements := node :: frame.elements } :: frames }

/-- Closes the innermost open form. -/
def close (state : State) (source text : List Char) : Except Error State :=
  match state.stack with
  | [] => .error (Fault.unmatchedClosing.toError source text)
  | frame :: frames =>
    if frame.elements.isEmpty then .error (Fault.emptyForm.toError source frame.source)
    else State.add { state with stack := frames } (Node.ofElements frame.elements.reverse)

/-- Reads one token. -/
def step (maxDepth : Nat) (source : List Char) (state : State) (lexeme : Lexeme) :
    Except Error State :=
  match lexeme.token with
  | .opening =>
    if state.stack.length < maxDepth then
      .ok { state with stack := ⟨lexeme.source, []⟩ :: state.stack }
    else .error ((Fault.tooDeeplyNested maxDepth).toError source lexeme.source)
  | .closing => state.close source lexeme.source
  | .atom value => state.add (.atom value)
  | .symbol name => state.add (.symbol name)
  | .fault fault => .error (fault.toError source lexeme.source)

/-- The program that was read, if no form is left open. -/
def finish (source : List Char) (state : State) : Except Error (List Node) :=
  match state.stack with
  | [] => .ok state.complete.reverse
  | frame :: _ => .error (Fault.unfinished.toError source frame.source)

end State

/-- Reads the expressions of a source text. -/
def read (options : Options) (source : String) : Except Error (List Node) := do
  let text := source.toList
  let state ← (scan options.comments text).foldlM (State.step options.maxDepth text) .initial
  state.finish text

end Reader

end MeteredRules
