import MeteredRules.Node.Text
import MeteredRules.Proofs.Decimal.Layout
import MeteredRules.Proofs.Instant.Text
import MeteredRules.Proofs.Reader.Derivation

/-!
# Reading what was displayed

The display of a program that was read is read as the same program, provided that its literals are
read back one by one. The proof says of each expression that its display spells it: in front of
anything that starts with a delimiter, or of the end, it is read as this expression. Displays put
nothing but a space or a closing parenthesis behind an expression, and both are delimiters.
-/

namespace MeteredRules

namespace Node

mutual

/-- The literals of an expression, from left to right. -/
def literals : Node → List Value
  | .atom value => [value]
  | .symbol _ => []
  | .form elements => allLiterals elements
  | .special _ arguments => allLiterals arguments

/-- The literals of a list of expressions. -/
def allLiterals : List Node → List Value
  | [] => []
  | node :: nodes => node.literals ++ allLiterals nodes

end

theorem toList_displayArguments_cons (argument : Node) (arguments : List Node) :
    (displayArguments (argument :: arguments)).toList =
      ' ' :: (argument.display.toList ++ (displayArguments arguments).toList) := by
  rw [displayArguments]
  simp

end Node

namespace Reader

/-! ## Delimiters -/

/-- The end of a text, or a delimiter and anything after it. -/
def Bounded (comments : Bool) (text : List Char) : Prop :=
  ∀ next ∈ text.head?, isDelimiter comments next = true

/-- A text without any delimiter. -/
def Undelimited (comments : Bool) (text : List Char) : Prop :=
  ∀ character ∈ text, isDelimiter comments character = false

variable {comments : Bool}

theorem bounded_nil : Bounded comments [] := by
  simp [Bounded]

theorem bounded_cons {first : Char} {rest : List Char}
    (delimiter : isDelimiter comments first = true) : Bounded comments (first :: rest) := by
  intro next head
  obtain rfl : first = next := by simpa using head
  exact delimiter

theorem isDelimiter_space : isDelimiter comments ' ' = true := by
  cases comments <;> decide

theorem isDelimiter_closing : isDelimiter comments ')' = true := by
  cases comments <;> decide

theorem undelimited_of_all {text : List Char}
    (free : (text.all fun character => !isDelimiter comments character) = true) :
    Undelimited comments text := by
  intro character character_mem
  simpa using List.all_eq_true.mp free character character_mem

theorem isDelimiter_of_isDigit {character : Char} (digit : character.isDigit = true) :
    isDelimiter comments character = false := by
  have distinct : ∀ other : Char, other.isDigit = false → character ≠ other := by
    rintro other noDigit rfl
    simp [noDigit] at digit
  rw [isDelimiter_eq_false_iff]
  refine ⟨Text.isBlank_of_isDigit digit, distinct '(' (by decide), distinct ')' (by decide),
    distinct '\'' (by decide), ?_⟩
  have notSemicolon : (character == ';') = false := by
    simpa using distinct ';' (by decide)
  rw [notSemicolon, Bool.and_false]

theorem undelimited_render (number : Number) : Undelimited comments number.render.toList := by
  intro character character_mem
  rcases Number.mem_render character_mem with digit | mark
  · exact isDelimiter_of_isDigit digit
  · have free : Undelimited comments Number.marks := by
      cases comments <;> exact undelimited_of_all rfl
    exact free character mark

/-! ## Literals -/

theorem Single.read_eq {options : Options} {source : String} {node : Node}
    (single : Single options.comments source.toList node []) :
    read options source = .ok [node] :=
  Sequence.read_eq (.single .none single (.done .none))

/-- A single item that goes as far as its text, in front of anything that ends a word. -/
theorem Single.append {text rest : List Char} {node : Node}
    (single : Single comments text node []) (bounded : Bounded comments rest) :
    Single comments (text ++ rest) node rest := by
  cases single with
  | string noQuote =>
      have item : Single comments _ _ rest := .string noQuote
      simpa using item
  | instant noBrace isInstant =>
      have item : Single comments _ _ rest := .instant noBrace isInstant
      simpa using item
  | word nonempty noHash undelimited _ means =>
      rw [List.append_nil]
      exact .word nonempty noHash undelimited bounded means

theorem Trivia.eq_of_significant {text rest : List Char} (trivia : Trivia comments text rest)
    (significant : Significant comments text) : text = rest := by
  cases trivia with
  | none => rfl
  | blank isBlank =>
      have free := significant _ rfl
      rw [isBlank] at free
      exact absurd free.1 (by decide)
  | comment allowed =>
      have free := significant _ rfl
      rw [allowed] at free
      exact absurd free.2 (by decide)

theorem Sequence.single_of_significant {options : Options} {text : List Char} {value : Value}
    (derived : Sequence options 0 text [.atom value] [])
    (significant : Significant options.comments text) :
    ∃ rest, Single options.comments text (.atom value) rest ∧
      Trivia options.comments rest [] := by
  cases derived with
  | single trivia item more =>
      obtain rfl := trivia.eq_of_significant significant
      cases more with
      | done trailing => exact ⟨_, item, trailing⟩
  | form _ _ _ formed _ => cases formed

/-- A number that is read back from its text is the whole of this text. -/
theorem single_render {options : Options} {number : Number}
    (readsBack : read options (Value.number number).display = .ok [.atom (.number number)]) :
    Single options.comments number.render.toList (.atom (.number number)) [] := by
  have undelimited : Undelimited options.comments number.render.toList :=
    undelimited_render number
  have derived := sequence_of_read readsBack
  rw [Value.display] at derived
  have significant : Significant options.comments number.render.toList := by
    intro first head
    have free := isDelimiter_eq_false_iff.mp (undelimited first (List.mem_of_mem_head? head))
    exact ⟨free.1, free.2.2.2.2⟩
  rcases derived.single_of_significant significant with ⟨rest, item, _⟩
  generalize number.render.toList = text at item undelimited
  cases item with
  | @word word rest node nonempty noHash inWord ended means =>
      cases rest with
      | nil => exact .word nonempty noHash inWord bounded_nil means
      | cons next rest =>
          have delimiter := ended next rfl
          have free := undelimited next (by simp)
          simp [free] at delimiter

/-- An item between braces is the instant that is read from what stands between them. -/
theorem Single.read?_of_braces {content rest : List Char} {instant : Instant}
    (closed : '\x7d' ∉ content)
    (single : Single comments ('#' :: 't' :: '\x7b' :: (content ++ ['\x7d']))
      (.atom (.instant instant)) rest) : Instant.read? content = some instant := by
  generalize text_eq : '#' :: 't' :: '\x7b' :: (content ++ ['\x7d']) = text at single
  generalize node_eq : Node.atom (.instant instant) = node at single
  cases single with
  | string => simp at text_eq
  | @instant inner rest _ noBrace isInstant =>
      have same : content ++ ['\x7d'] = inner ++ '\x7d' :: rest := by simpa using text_eq
      have first := enclosed?_append closed []
      rw [same, enclosed?_append noBrace] at first
      obtain rfl : inner = content := by simpa using congrArg (Option.map Prod.fst) first
      obtain rfl := Value.instant.inj (Node.atom.inj node_eq)
      exact isInstant
  | @word word rest node nonempty noHash _ _ _ =>
      cases word with
      | nil => exact absurd rfl nonempty
      | cons initial word =>
          have heads := congrArg List.head? text_eq
          obtain rfl : '#' = initial := by simpa using heads
          exact absurd rfl noHash

theorem toList_display_instant (instant : Instant) :
    (Value.instant instant).display.toList =
      '#' :: 't' :: '\x7b' :: (instant.render.toList ++ ['\x7d']) := by
  simp [Value.display]

theorem single_instant {instant : Instant}
    (isInstant : Instant.read? instant.render.toList = some instant) :
    Single comments (Value.instant instant).display.toList (.atom (.instant instant)) [] := by
  rw [toList_display_instant]
  exact .instant instant.brace_not_mem_render isInstant

/-- An instant is read back from its display if and only if it is read from its text. -/
theorem read_display_instant_iff {options : Options} {instant : Instant} :
    read options (Value.instant instant).display = .ok [.atom (.instant instant)] ↔
      Instant.read? instant.render.toList = some instant := by
  constructor
  · intro readsBack
    have derived := sequence_of_read readsBack
    rw [toList_display_instant] at derived
    have significant : Significant options.comments
        ('#' :: 't' :: '\x7b' :: (instant.render.toList ++ ['\x7d'])) := by
      intro first head
      obtain rfl : '#' = first := by simpa using head
      exact ⟨by decide, by simp⟩
    rcases derived.single_of_significant significant with ⟨rest, item, _⟩
    exact item.read?_of_braces instant.brace_not_mem_render
  · intro isInstant
    exact (single_instant isInstant).read_eq

/-! ## Expressions -/

variable {options : Options} {depth : Nat}

/-- In front of anything that ends a word, the text is read as the expression. -/
def Spells (options : Options) (depth : Nat) (text : List Char) (node : Node) : Prop :=
  ∀ ⦃rest after : List Char⦄ ⦃nodes : List Node⦄, Bounded options.comments rest →
    Sequence options depth rest nodes after →
      Sequence options depth (text ++ rest) (node :: nodes) after

theorem Single.spells {text : List Char} {node : Node}
    (single : Single options.comments text node []) : Spells options depth text node := by
  intro rest after nodes bounded more
  exact .single .none (single.append bounded) more

/-- A literal of a text is spelled by its display if it is read back from it. -/
theorem Single.spells_display {text rest : List Char} {node : Node}
    (single : Single options.comments text node rest)
    (readsBack : ∀ value ∈ node.literals, read options value.display = .ok [.atom value]) :
    Spells options depth node.display.toList node := by
  have literalReadsBack : ∀ {value : Value}, node = .atom value →
      read options value.display = .ok [.atom value] := by
    rintro value rfl
    exact readsBack value (by simp [Node.literals])
  cases single with
  | @string content rest noQuote =>
      have item : Single options.comments _ _ [] := .string noQuote
      simpa [Node.display, Value.display] using item.spells
  | instant =>
      rw [Node.display]
      exact (single_instant (read_display_instant_iff.mp (literalReadsBack rfl))).spells
  | @word word rest node nonempty noHash undelimited ended means =>
      have whole : Single options.comments (word ++ []) node [] :=
        .word nonempty noHash undelimited bounded_nil means
      rw [List.append_nil] at whole
      cases means with
      | integer =>
          rw [Node.display, Value.int, Value.display]
          exact (single_render (literalReadsBack rfl)).spells
      | float =>
          rw [Node.display, Value.float, Value.display]
          exact (single_render (literalReadsBack rfl)).spells
      | keyword isKeyword =>
          cases isKeyword with
          | true | false | nil =>
              rw [Node.display, Value.display]
              exact whole.spells
      | symbol =>
          rw [Node.display, String.toList_ofList]
          exact whole.spells

theorem Sequence.space {text rest : List Char} {nodes : List Node}
    (derived : Sequence options depth text nodes rest) :
    Sequence options depth (' ' :: text) nodes rest := by
  have isBlank : Text.isBlank ' ' = true := by decide
  cases derived with
  | done trivia => exact .done (.blank isBlank trivia)
  | single trivia item more => exact .single (.blank isBlank trivia) item more
  | form trivia shallow content formed more =>
      exact .form (.blank isBlank trivia) shallow content formed more

theorem bounded_displayArguments (arguments : List Node) (rest : List Char) :
    Bounded comments ((Node.displayArguments arguments).toList ++ ')' :: rest) := by
  cases arguments with
  | nil =>
      rw [Node.displayArguments]
      exact bounded_cons isDelimiter_closing
  | cons argument arguments =>
      rw [Node.toList_displayArguments_cons]
      exact bounded_cons isDelimiter_space

/-- Arguments that are displayed up to a closing parenthesis are read up to it. -/
theorem sequence_displayArguments {arguments : List Node} (rest : List Char)
    (spelled : ∀ argument ∈ arguments, Spells options depth argument.display.toList argument) :
    Sequence options depth ((Node.displayArguments arguments).toList ++ ')' :: rest) arguments
      (')' :: rest) := by
  induction arguments with
  | nil =>
      rw [Node.displayArguments]
      exact .done .none
  | cons argument arguments ih =>
      rw [List.forall_mem_cons] at spelled
      rw [Node.toList_displayArguments_cons, List.cons_append, List.append_assoc]
      exact (spelled.1 (bounded_displayArguments arguments rest) (ih spelled.2)).space

/-- A form is displayed as its elements between parentheses, whether it is special or not. -/
theorem Formed.toList_display {head node : Node} {arguments : List Node}
    (formed : Formed (head :: arguments) node) :
    node.display.toList = '(' :: (head.display.toList ++
      ((Node.displayArguments arguments).toList ++ [')'])) := by
  cases formed with
  | special accepted =>
      rw [Node.display, Node.display]
      simp [Operation.name]
  | call notSpecial =>
      rw [Node.display]
      simp

theorem Formed.allLiterals_eq {elements : List Node} {node : Node}
    (formed : Formed elements node) : Node.allLiterals elements = node.literals := by
  cases formed with
  | special accepted => simp [Node.literals, Node.allLiterals]
  | call notSpecial => rw [Node.literals]

theorem Formed.spells_display {elements : List Node} {node : Node} (formed : Formed elements node)
    (shallow : depth < options.maxDepth)
    (spelled : ∀ element ∈ elements, Spells options (depth + 1) element.display.toList element) :
    Spells options depth node.display.toList node := by
  intro rest after nodes bounded more
  cases elements with
  | nil => exact absurd rfl formed.ne_nil
  | cons head arguments =>
      rw [List.forall_mem_cons] at spelled
      have content := spelled.1 (bounded_displayArguments arguments rest)
        (sequence_displayArguments rest spelled.2)
      rw [formed.toList_display]
      simp only [List.cons_append, List.append_assoc, List.nil_append]
      exact .form .none shallow content formed more

/-- Every expression that was read is spelled by its display if its literals are read back. -/
theorem Sequence.spells_display {text rest : List Char} {nodes : List Node}
    (derived : Sequence options depth text nodes rest)
    (readsBack : ∀ value ∈ Node.allLiterals nodes, read options value.display = .ok [.atom value]) :
    ∀ node ∈ nodes, Spells options depth node.display.toList node := by
  induction derived with
  | done => simp
  | single trivia item more ih =>
      rw [Node.allLiterals, List.forall_mem_append] at readsBack
      rw [List.forall_mem_cons]
      exact ⟨item.spells_display readsBack.1, ih readsBack.2⟩
  | form trivia shallow content formed more ihContent ihMore =>
      rw [Node.allLiterals, List.forall_mem_append, ← formed.allLiterals_eq] at readsBack
      rw [List.forall_mem_cons]
      exact ⟨formed.spells_display shallow (ihContent readsBack.1), ihMore readsBack.2⟩

/-- Expressions that are spelled by their displays are read from these with spaces between them. -/
theorem sequence_displayProgram {nodes : List Node}
    (spelled : ∀ node ∈ nodes, Spells options depth node.display.toList node) :
    Sequence options depth (Node.displayProgram nodes).toList nodes [] := by
  induction nodes with
  | nil => exact .done .none
  | cons node nodes ih =>
      rw [List.forall_mem_cons] at spelled
      cases nodes with
      | nil =>
          have derived := spelled.1 bounded_nil (.done .none)
          rwa [List.append_nil] at derived
      | cons next nodes =>
          have joined : (Node.displayProgram (node :: next :: nodes)).toList =
              node.display.toList ++ ' ' :: (Node.displayProgram (next :: nodes)).toList := by
            simp [Node.displayProgram, Text.joined]
          rw [joined]
          exact spelled.1 (bounded_cons isDelimiter_space) (ih spelled.2).space

/--
A program that was read is read again from its display, provided that each of its literals is read
back from its own display.
-/
theorem read_displayProgram {source : String} {nodes : List Node}
    (accepted : read options source = .ok nodes)
    (readsBack : ∀ value ∈ Node.allLiterals nodes, read options value.display = .ok [.atom value]) :
    read options (Node.displayProgram nodes) = .ok nodes :=
  (sequence_displayProgram ((sequence_of_read accepted).spells_display readsBack)).read_eq

/-- The program `(if x 2.5 'a b')` and its two literals are read back from their displays. -/
theorem read_displayProgram_ite :
    let literals := [Value.float (Decimal.nearestFloat 25 (-1)), .string "a b"]
    let program := [Node.special (.form .ite) (.symbol "x" :: literals.map .atom)]
    read .standard "(if x  2.5 'a b')" = .ok program ∧
      (∀ value ∈ Node.allLiterals program, read .standard value.display = .ok [.atom value]) ∧
      read .standard (Node.displayProgram program) = .ok program := by
  intro literals program
  have isBlank : Text.isBlank ' ' = true := by decide
  have isFloat : Word ['2', '.', '5'] (.atom (.float (Decimal.nearestFloat 25 (-1)))) :=
    .float (@FloatWord.plain ['2'] ['5'] rfl rfl)
  have accepted : read .standard "(if x  2.5 'a b')" = .ok program := by
    apply Sequence.read_eq
    refine .form .none (by decide) ?_ (@Formed.special .ite _ rfl) (.done .none)
    refine .single .none (@Single.word _ "if".toList _ _ (by decide) (by decide)
      (undelimited_of_all rfl) (bounded_cons isDelimiter_space) (word_of_denotes (.symbol _))) ?_
    refine .single (.blank isBlank .none) (@Single.word _ "x".toList _ _ (by decide) (by decide)
      (undelimited_of_all rfl) (bounded_cons isDelimiter_space) (word_of_denotes (.symbol _))) ?_
    refine .single (.blank isBlank (.blank isBlank .none)) (@Single.word _ "2.5".toList _ _
      (by decide) (by decide) (undelimited_of_all rfl) (bounded_cons isDelimiter_space) isFloat) ?_
    exact .single (.blank isBlank .none) (@Single.string _ "a b".toList _ (by decide))
      (.done .none)
  have readsBack : ∀ value ∈ Node.allLiterals program,
      read .standard value.display = .ok [.atom value] := by
    have collected : Node.allLiterals program = literals := by
      simp [program, literals, Node.allLiterals, Node.literals]
    rw [collected, List.forall_mem_cons, List.forall_mem_singleton]
    refine ⟨?_, ?_⟩
    · have displayed : (Value.float (Decimal.nearestFloat 25 (-1))).display = "2.5" := by
        decide +kernel
      rw [displayed]
      exact Single.read_eq (@Single.word _ "2.5".toList [] _ (by decide) (by decide)
        (undelimited_of_all rfl) bounded_nil isFloat)
    · exact Single.read_eq (@Single.string _ "a b".toList [] (by decide))
  exact ⟨accepted, readsBack, read_displayProgram accepted readsBack⟩

end Reader

end MeteredRules
