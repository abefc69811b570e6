import MeteredRules.Instant.Reading
import MeteredRules.Number.Arithmetic
import MeteredRules.Decimal.Reading
import MeteredRules.Value.Basic

/-!
# Tokens

A source text as a list of tokens: parentheses, literals and names. A token that is not well formed
is kept as a fault, so that what stands before it can still be read. Every token remembers the text
from its first character on.
-/

namespace MeteredRules.Reader

/-- How a text is read. -/
structure Options where
  /-- Whether `;` starts a comment, which goes on to the end of the line. -/
  comments : Bool
  /-- How deep forms may be nested. -/
  maxDepth : Nat
deriving DecidableEq

/-- No comments, and forms nested up to 32 deep. -/
def Options.standard : Options :=
  ⟨false, 32⟩

/-- What can be wrong with a source text. -/
inductive Fault where
  | tooDeeplyNested (limit : Nat)
  | unfinished
  | invalidTime
  | integerRange
  | emptyForm
  | unmatchedClosing
  | unrecognized
deriving DecidableEq

/-- A token of a source text. -/
inductive Token where
  | opening
  | closing
  | atom (value : Value)
  | symbol (name : String)
  | fault (fault : Fault)

/-- A token together with the source text from its first character on. -/
structure Lexeme where
  token : Token
  source : List Char

/-- The characters that end a word. -/
def isDelimiter (comments : Bool) (character : Char) : Bool :=
  Text.isBlank character || character == '(' || character == ')' || character == '\'' ||
    (comments && character == ';')

/-- Drops blanks and comments before the first other character. -/
def skipTrivia (comments : Bool) : List Char → List Char
  | [] => []
  | character :: rest =>
    if Text.isBlank character then skipTrivia comments rest
    else if comments && character == ';' then
      skipTrivia comments (rest.dropWhile (· != '\n'))
    else character :: rest
termination_by text => text.length
decreasing_by
  · simp
  · have := (List.dropWhile_sublist (l := rest) (· != '\n')).length_le
    simp only [List.length_cons]
    omega

/-- Whether a word is an integer literal: an optional minus and digits. -/
def isIntegerWord : List Char → Bool
  | '-' :: rest => Decimal.isDigits rest
  | word => Decimal.isDigits word

/-- Whether a word consists of digits, a point and digits. -/
def isUnsignedFloatWord (word : List Char) : Bool :=
  match word.dropWhile Char.isDigit with
  | '.' :: fraction => word.head?.any Char.isDigit && Decimal.isDigits fraction
  | _ => false

/-- Whether a word is a float literal: an optional minus, digits, a point and digits. -/
def isFloatWord : List Char → Bool
  | '-' :: rest => isUnsignedFloatWord rest
  | word => isUnsignedFloatWord word

/-- The token of a word: a number, one of the three literal words, or a name. -/
def Token.ofWord (word : List Char) : Token :=
  if isIntegerWord word then
    match (Decimal.readInt? word).bind Number.fit? with
    | some value => .atom (.int value)
    | none => .fault .integerRange
  else if isFloatWord word then
    match Decimal.readFloat? word with
    | some value => .atom (.float value)
    | none => .fault .unrecognized
  else if word.head? == some '#' then .fault .unrecognized
  else
    match String.ofList word with
    | "true" => .atom (.boolean true)
    | "false" => .atom (.boolean false)
    | "nil" => .atom .nil
    | name => .symbol name

/-- The literal of an instant with a given text. -/
def Token.ofTime (text : List Char) : Token :=
  match Instant.read? text with
  | some instant => .atom (.instant instant)
  | none => .fault .invalidTime

/-- What stands up to a closing mark, and the text after the mark, if there is one. -/
def enclosed? (mark : Char) (text : List Char) : Option (List Char × List Char) :=
  match text.dropWhile (· != mark) with
  | [] => none
  | _ :: rest => some (text.takeWhile (· != mark), rest)

/-- The token that starts with a given character, and the text after it. -/
def Token.next (comments : Bool) (first : Char) (rest : List Char) : Token × List Char :=
  match first, rest with
  | '(', rest => (.opening, rest)
  | ')', rest => (.closing, rest)
  | '\'', rest =>
    match enclosed? '\'' rest with
    | some (content, after) => (.atom (.string (String.ofList content)), after)
    | none => (.fault .unfinished, [])
  | '#', 't' :: '\x7b' :: rest =>
    match enclosed? '\x7d' rest with
    | some (content, after) => (Token.ofTime content, after)
    | none => (.fault .unfinished, [])
  | first, rest =>
    let inWord := fun character => !isDelimiter comments character
    (Token.ofWord (first :: rest.takeWhile inWord), rest.dropWhile inWord)

theorem length_enclosed? {mark : Char} {text content rest : List Char}
    (found : enclosed? mark text = some (content, rest)) : rest.length < text.length := by
  have shorter := (List.dropWhile_sublist (l := text) (· != mark)).length_le
  simp only [enclosed?] at found
  split at found
  · simp at found
  · rename_i dropped
    simp only [Option.some.injEq, Prod.mk.injEq] at found
    rw [dropped, found.2] at shorter
    simp only [List.length_cons] at shorter
    omega

/-- A token takes at least the character that it starts with. -/
theorem Token.length_next_le (comments : Bool) (first : Char) (rest : List Char) :
    (Token.next comments first rest).2.length ≤ rest.length := by
  unfold Token.next
  split
  · simp
  · simp
  · split
    · rename_i found
      exact Nat.le_of_lt (length_enclosed? found)
    · simp
  · split
    · rename_i found
      have := length_enclosed? found
      simp only [List.length_cons]
      omega
    · simp
  · exact (List.dropWhile_sublist _).length_le

/-- Dropping blanks and comments makes no text longer. -/
theorem length_skipTrivia_le (comments : Bool) (text : List Char) :
    (skipTrivia comments text).length ≤ text.length := by
  fun_induction skipTrivia comments text with
  | case1 => simp
  | case2 character rest _ ih => simp only [List.length_cons]; omega
  | case3 character rest _ _ ih =>
    have := (List.dropWhile_sublist (l := rest) (· != '\n')).length_le
    simp only [List.length_cons]
    omega
  | case4 => simp

/-- The tokens of a text. -/
def scan (comments : Bool) (text : List Char) : List Lexeme :=
  match _found : skipTrivia comments text with
  | [] => []
  | first :: rest =>
    ⟨(Token.next comments first rest).1, first :: rest⟩ ::
      scan comments (Token.next comments first rest).2
termination_by text.length
decreasing_by
  have skipped := length_skipTrivia_le comments text
  have taken := Token.length_next_le comments first rest
  rw [_found, List.length_cons] at skipped
  omega

end MeteredRules.Reader
