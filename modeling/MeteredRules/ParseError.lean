/-!
# Errors of reading

What is wrong with a text, what was found there, and a piece of the text around the place.
-/

namespace MeteredRules

/-- The kinds of reading errors. -/
inductive ParseErrorKind where
  | invalidSyntax
  | incomplete
  | tooDeeplyNested
  | trailingContent
  | invalidLiteral
deriving DecidableEq

/-- An error of reading. -/
structure ParseError where
  kind : ParseErrorKind
  message : String
  context : Option String
  found : Option String
deriving DecidableEq

namespace ParseError

/-- An error that names no place. -/
def ofMessage (kind : ParseErrorKind) (message : String) : ParseError :=
  ⟨kind, message, none, none⟩

/-- How far before an error the shown piece of the text starts. -/
def contextBefore : Nat := 20

/-- The greatest length of the shown piece of the text. -/
def contextLength : Nat := 100

/-- Where the text goes on beyond the shown piece. -/
def cutMark (cut : Bool) : List Char :=
  if cut then "[...]".toList else []

/-- A text in one line: a line feed is written as an escape and a carriage return is left out. -/
def inOneLine (text : List Char) : List Char :=
  text.flatMap fun character =>
    if character == '\n' then ['\\', 'n'] else if character == '\r' then [] else [character]

/-- The piece of a text around a position, with marks where it is cut off. -/
def contextAt (text : List Char) (position : Nat) : String :=
  let start := position - contextBefore
  let shown := (text.drop start).take contextLength
  String.ofList
    (inOneLine
      (cutMark (0 < start) ++ shown ++ cutMark (start + shown.length < text.length)))

/-- The number of characters of a text that start before an offset counted in bytes of UTF-8. -/
def charactersBefore (offset : Nat) : List Char → Nat
  | [] => 0
  | character :: rest =>
    if 0 < offset then 1 + charactersBefore (offset - character.utf8Size) rest else 0

/-- An error at a position of a text. -/
def atPosition (kind : ParseErrorKind) (message : String) (text : List Char) (position : Nat)
    (found : Option String) : ParseError :=
  ⟨kind, message, some (contextAt text position), found⟩

/-- An error at an offset of a text that is counted in bytes of UTF-8. -/
def atByte (kind : ParseErrorKind) (message : String) (text : String) (offset : Nat)
    (found : Option String) : ParseError :=
  atPosition kind message text.toList (charactersBefore offset text.toList) found

/-- The wording of an error of reading. -/
def render (error : ParseError) : String :=
  "ParseError: " ++ error.message ++
    (match error.found with
    | some found => "\nFound: " ++ found
    | none => "") ++
    (match error.context with
    | some context => "\nContext: " ++ context
    | none => "")

end ParseError

end MeteredRules
