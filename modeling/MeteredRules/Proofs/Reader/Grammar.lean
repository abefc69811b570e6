import MeteredRules.Reader.Build

/-!
# The grammar of source texts

What a source text may look like, apart from how it is read. The relations of this file take a text
from its front: they relate the text before a piece, the meaning of the piece, and the text after
it. The text after a piece matters for two of them: a word goes on as long as it can, and a comment
ends only at the end of its line.

A source is a sequence of items at depth zero with nothing after it. An item is a form or one of
the single tokens; items may stand next to each other wherever a word does not run into the next
one.
-/

namespace MeteredRules.Reader

/-- Blanks and, if they are allowed, comments; a comment reaches up to the next line feed. -/
inductive Trivia (comments : Bool) : List Char → List Char → Prop where
  | none {rest : List Char} : Trivia comments rest rest
  | blank {character : Char} {text rest : List Char} (isBlank : Text.isBlank character = true)
      (more : Trivia comments text rest) : Trivia comments (character :: text) rest
  | comment {body text rest : List Char} (allowed : comments = true) (inLine : '\n' ∉ body)
      (ended : ∀ next ∈ text.head?, next = '\n') (more : Trivia comments text rest) :
      Trivia comments (';' :: (body ++ text)) rest

/-- An optional minus and digits, with the integer that they denote. -/
inductive IntegerWord : List Char → Int → Prop where
  | plain {digits : List Char} (isDigits : Decimal.isDigits digits = true) :
      IntegerWord digits (Decimal.ofDigits digits)
  | minus {digits : List Char} (isDigits : Decimal.isDigits digits = true) :
      IntegerWord ('-' :: digits) (-(Decimal.ofDigits digits : Int))

/-- Digits, a point and digits after an optional minus, with the float nearest to the decimal. -/
inductive FloatWord : List Char → Float → Prop where
  | plain {whole fraction : List Char} (isWhole : Decimal.isDigits whole = true)
      (isFraction : Decimal.isDigits fraction = true) :
      FloatWord (whole ++ '.' :: fraction)
        (Decimal.nearestFloat (Decimal.ofDigits (whole ++ fraction)) (-(fraction.length : Int)))
  | minus {whole fraction : List Char} (isWhole : Decimal.isDigits whole = true)
      (isFraction : Decimal.isDigits fraction = true) :
      FloatWord ('-' :: (whole ++ '.' :: fraction))
        (-(Decimal.nearestFloat (Decimal.ofDigits (whole ++ fraction)) (-(fraction.length : Int))))

/-- The words that are literals without being numbers. -/
inductive Keyword : List Char → Value → Prop where
  | true : Keyword "true".toList (.boolean .true)
  | false : Keyword "false".toList (.boolean .false)
  | nil : Keyword "nil".toList .nil

/-- What a word means; an integer beyond 64 bits means nothing, and all other words are names. -/
inductive Word : List Char → Node → Prop where
  | integer {word : List Char} {value : Int64} (isInteger : IntegerWord word value.toInt) :
      Word word (.atom (.int value))
  | float {word : List Char} {value : Float} (isFloat : FloatWord word value) :
      Word word (.atom (.float value))
  | keyword {word : List Char} {value : Value} (isKeyword : Keyword word value) :
      Word word (.atom value)
  | symbol {word : List Char} (noInteger : ∀ number, ¬IntegerWord word number)
      (noFloat : ∀ value, ¬FloatWord word value) (noKeyword : ∀ value, ¬Keyword word value) :
      Word word (.symbol (String.ofList word))

/-- The items that are single tokens: strings, instants and words. -/
inductive Single (comments : Bool) : List Char → Node → List Char → Prop where
  | string {content rest : List Char} (noQuote : '\'' ∉ content) :
      Single comments ('\'' :: (content ++ '\'' :: rest))
        (.atom (.string (String.ofList content))) rest
  | instant {content rest : List Char} {instant : Instant} (noBrace : '\x7d' ∉ content)
      (isInstant : Instant.read? content = some instant) :
      Single comments ('#' :: 't' :: '\x7b' :: (content ++ '\x7d' :: rest))
        (.atom (.instant instant)) rest
  | word {word rest : List Char} {node : Node} (nonempty : word ≠ [])
      (noHash : word.head? ≠ some '#')
      (undelimited : ∀ character ∈ word, isDelimiter comments character = false)
      (ended : ∀ next ∈ rest.head?, isDelimiter comments next = true)
      (means : Word word node) :
      Single comments (word ++ rest) node rest

/--
The expression of the elements of a form: a special form if the first of them is its name, and
then with a number of arguments that it accepts.
-/
inductive Formed : List Node → Node → Prop where
  | special {form : SpecialForm} {arguments : List Node}
      (accepted : form.arity.accepts arguments.length = true) :
      Formed (.symbol form.name :: arguments) (.special (.form form) arguments)
  | call {head : Node} {arguments : List Node}
      (notSpecial : ∀ form : SpecialForm, head ≠ .symbol form.name) :
      Formed (head :: arguments) (.form (head :: arguments))

/-- A sequence of items at a depth, with trivia before, between and after them. -/
inductive Sequence (options : Options) : Nat → List Char → List Node → List Char → Prop where
  | done {depth : Nat} {text rest : List Char} (trivia : Trivia options.comments text rest) :
      Sequence options depth text [] rest
  | single {depth : Nat} {text start middle rest : List Char} {node : Node} {nodes : List Node}
      (trivia : Trivia options.comments text start)
      (item : Single options.comments start node middle)
      (more : Sequence options depth middle nodes rest) :
      Sequence options depth text (node :: nodes) rest
  | form {depth : Nat} {text inner middle rest : List Char} {elements nodes : List Node}
      {node : Node} (trivia : Trivia options.comments text ('(' :: inner))
      (shallow : depth < options.maxDepth)
      (content : Sequence options (depth + 1) inner elements (')' :: middle))
      (formed : Formed elements node)
      (more : Sequence options depth middle nodes rest) :
      Sequence options depth text (node :: nodes) rest

end MeteredRules.Reader
