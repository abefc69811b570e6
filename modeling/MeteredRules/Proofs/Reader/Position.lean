import MeteredRules.Proofs.Reader.Derivation

/-!
# Where reading fails

An error of reading points to a place of the source. Everything before this place was read: complete
items, and the beginnings of the forms that are open around it. The stack of the reader keeps the
texts of these forms and their complete elements, and every token preserves this. So what is wrong
at the place follows from the text from there on and from the number of forms around it.

The arities in a form are checked when the outermost form around it is complete. Until then its
items are those of the grammar except for the arities, and an arity that is refused is no error of
the text.
-/

namespace MeteredRules

namespace Reader

/-! ## Places of a source -/

/-- A sequence of complete items at a depth, whatever the arities in them are. -/
inductive Items (options : Options) : Nat → List Char → List Node → List Char → Prop where
  | done {depth : Nat} {text rest : List Char} (trivia : Trivia options.comments text rest) :
      Items options depth text [] rest
  | single {depth : Nat} {text start middle rest : List Char} {node : Node} {nodes : List Node}
      (trivia : Trivia options.comments text start)
      (item : Single options.comments start node middle)
      (more : Items options depth middle nodes rest) : Items options depth text (node :: nodes) rest
  | form {depth : Nat} {text inner middle rest : List Char} {elements nodes : List Node}
      (trivia : Trivia options.comments text ('(' :: inner)) (shallow : depth < options.maxDepth)
      (content : Items options (depth + 1) inner elements (')' :: middle))
      (nonempty : elements ≠ []) (more : Items options depth middle nodes rest) :
      Items options depth text (Node.ofElements elements :: nodes) rest

/--
The places of a source that are reached by its items, with the number of forms that are open there:
the innermost of them has been opened at such a place, and complete items follow in it.
-/
inductive Place (options : Options) (source : List Char) : Nat → List Char → Prop where
  | outside {nodes : List Node} {rest : List Char} (items : Items options 0 source nodes rest) :
      Place options source 0 rest
  | inside {depth : Nat} {inner rest : List Char} {elements : List Node}
      (opening : Place options source depth ('(' :: inner)) (shallow : depth < options.maxDepth)
      (items : Items options (depth + 1) inner elements rest) :
      Place options source (depth + 1) rest

/-- What is wrong with the text from a place on, given the number of forms that are open there. -/
inductive Misread (options : Options) (depth : Nat) : List Char → ParseErrorKind → Prop where
  | unmatchedClosing {after : List Char} (outside : depth = 0) :
      Misread options depth (')' :: after) .trailingContent
  | deepOpening {inner : List Char} (deep : depth = options.maxDepth) :
      Misread options depth ('(' :: inner) .tooDeeplyNested
  | openString {content : List Char} (noQuote : '\'' ∉ content) :
      Misread options depth ('\'' :: content) .incomplete
  | openTime {content : List Char} (noBrace : '\x7d' ∉ content) :
      Misread options depth ('#' :: 't' :: '\x7b' :: content) .incomplete
  /-- The elements of the form reach up to the end of the source. -/
  | openForm {inner : List Char} {elements : List Node} (shallow : depth < options.maxDepth)
      (items : Items options (depth + 1) inner elements []) :
      Misread options depth ('(' :: inner) .incomplete
  | noInstant {content after : List Char} (noBrace : '\x7d' ∉ content)
      (refused : Instant.read? content = none) :
      Misread options depth ('#' :: 't' :: '\x7b' :: (content ++ '\x7d' :: after)) .invalidLiteral
  | integerRange {word after : List Char} {number : Int} (isInteger : IntegerWord word number)
      (ended : ∀ next ∈ after.head?, isDelimiter options.comments next = true)
      (beyond : ∀ value : Int64, value.toInt ≠ number) :
      Misread options depth (word ++ after) .invalidLiteral
  | emptyForm {inner after : List Char} (shallow : depth < options.maxDepth)
      (trivia : Trivia options.comments inner (')' :: after)) :
      Misread options depth ('(' :: inner) .invalidSyntax
  | hash {after : List Char} (noTime : ∀ content, after ≠ 't' :: '\x7b' :: content) :
      Misread options depth ('#' :: after) .invalidSyntax

variable {options : Options} {source : List Char} {depth : Nat} {text middle rest : List Char}
  {node : Node} {nodes : List Node}

theorem Trivia.trans {comments : Bool} (first : Trivia comments text middle)
    (second : Trivia comments middle rest) : Trivia comments text rest := by
  induction first with
  | none => exact second
  | blank isBlank _ ih => exact .blank isBlank (ih second)
  | comment allowed inLine ended _ ih => exact .comment allowed inLine ended (ih second)

namespace Items

theorem of_trivia (trivia : Trivia options.comments text middle)
    (items : Items options depth middle nodes rest) : Items options depth text nodes rest := by
  cases items with
  | done more => exact .done (trivia.trans more)
  | single before item more => exact .single (trivia.trans before) item more
  | form before shallow content nonempty more =>
      exact .form (trivia.trans before) shallow content nonempty more

theorem append {others : List Node} (first : Items options depth text nodes middle)
    (second : Items options depth middle others rest) :
    Items options depth text (nodes ++ others) rest := by
  induction first with
  | done trivia => exact second.of_trivia trivia
  | single trivia item _ ih => exact .single trivia item (ih second)
  | form trivia shallow content nonempty _ _ ih =>
      exact .form trivia shallow content nonempty (ih second)

end Items

/-! ### The text from a place on -/

theorem Trivia.suffix {comments : Bool} (trivia : Trivia comments text rest) : rest <:+ text := by
  induction trivia with
  | none => exact List.suffix_rfl
  | blank _ _ ih => exact ih.trans (List.suffix_cons _ _)
  | @comment body text rest _ _ _ _ ih =>
      exact ih.trans ((List.suffix_append body text).trans (List.suffix_cons _ _))

theorem Single.suffix {comments : Bool} (single : Single comments text node rest) :
    rest <:+ text := by
  cases single with
  | @string content _ _ => exact ⟨'\'' :: (content ++ ['\'']), by simp⟩
  | @instant content _ _ _ _ => exact ⟨'#' :: 't' :: '\x7b' :: (content ++ ['\x7d']), by simp⟩
  | word => exact List.suffix_append _ _

theorem Items.suffix (items : Items options depth text nodes rest) : rest <:+ text := by
  induction items with
  | done trivia => exact trivia.suffix
  | single trivia item _ ih => exact ih.trans (item.suffix.trans trivia.suffix)
  | form trivia _ _ _ _ ihContent ihMore =>
      have closed := (List.suffix_cons _ _).trans ihContent
      exact ihMore.trans (closed.trans ((List.suffix_cons _ _).trans trivia.suffix))

namespace Place

theorem suffix (place : Place options source depth rest) : rest <:+ source := by
  induction place with
  | outside items => exact items.suffix
  | inside _ _ items ih => exact items.suffix.trans ((List.suffix_cons _ _).trans ih)

theorem depth_le (place : Place options source depth rest) : depth ≤ options.maxDepth := by
  cases place with
  | outside => exact Nat.zero_le _
  | inside _ shallow _ => exact shallow

end Place

/-! ## Tokens that are faults -/

theorem not_mem_of_enclosed?_eq_none {mark : Char} (unclosed : enclosed? mark text = none) :
    mark ∉ text := by
  unfold enclosed? at unclosed
  split at unclosed
  · rename_i dropped
    have taken := List.takeWhile_append_dropWhile (p := (· != mark)) (l := text)
    rw [dropped, List.append_nil] at taken
    intro mark_mem
    rw [← taken] at mark_mem
    simpa using List.all_eq_true.mp List.all_takeWhile _ mark_mem
  · simp at unclosed

/-- A word is a fault if it is an integer out of range, or if it starts with a hash. -/
theorem ofWord_eq_fault {word : List Char} {fault : Fault}
    (isFault : Token.ofWord word = .fault fault) :
    (fault = .integerRange ∧ ∃ number, IntegerWord word number ∧
      ∀ value : Int64, value.toInt ≠ number) ∨
    (fault = .unrecognized ∧ word.head? = some '#') := by
  unfold Token.ofWord at isFault
  split at isFault
  · rename_i shape
    rcases exists_integerWord shape with ⟨number, isInteger⟩
    rw [isInteger.readInt?, Option.bind_some] at isFault
    split at isFault
    · cases isFault
    · rename_i beyond
      cases isFault
      refine .inl ⟨rfl, number, isInteger, ?_⟩
      rintro value rfl
      simp [Number.fit?_toInt] at beyond
  · split at isFault
    · rename_i shape
      rcases exists_floatWord shape with ⟨value, isFloat⟩
      rw [isFloat.readFloat?] at isFault
      cases isFault
    · split at isFault
      · rename_i hash
        cases isFault
        exact .inr ⟨rfl, by simpa using hash⟩
      · split at isFault <;> cases isFault

theorem misread_of_next {first : Char} {fault : Fault}
    (isFault : (Token.next options.comments first text).1 = .fault fault) :
    Misread options depth (first :: text) fault.kind := by
  unfold Token.next at isFault
  split at isFault
  · cases isFault
  · cases isFault
  · split at isFault
    · cases isFault
    · rename_i unclosed
      cases isFault
      exact .openString (not_mem_of_enclosed?_eq_none unclosed)
  · split at isFault
    · rename_i content after enclosed
      rcases eq_append_of_enclosed? enclosed with ⟨noBrace, rfl⟩
      simp only [Token.ofTime] at isFault
      split at isFault
      · cases isFault
      · rename_i refused
        cases isFault
        exact .noInstant noBrace refused
    · rename_i unclosed
      cases isFault
      exact .openTime (not_mem_of_enclosed?_eq_none unclosed)
  · rename_i notTime
    rcases ofWord_eq_fault isFault with ⟨rfl, number, isInteger, beyond⟩ | ⟨rfl, hash⟩
    · have ended : ∀ next ∈ (text.dropWhile fun character =>
          !isDelimiter options.comments character).head?,
          isDelimiter options.comments next = true := by
        intro next head
        simpa using Text.eq_false_of_mem_head?_dropWhile head
      have misread : Misread options depth (_ ++ _) .invalidLiteral :=
        .integerRange isInteger ended beyond
      rwa [List.cons_append, List.takeWhile_append_dropWhile] at misread
    · obtain rfl : first = '#' := by simpa using hash
      exact .hash fun content => notTime content rfl

/-! ## The reader reaches places -/

/-- What a state of the reader holds at a place: the forms that are open there, and their items. -/
inductive Reached (options : Options) (source : List Char) : State → List Char → Prop where
  | outside {complete : List Node} {text : List Char}
      (items : Items options 0 source complete.reverse text) :
      Reached options source ⟨[], complete⟩ text
  | inside {stack : List Frame} {complete elements : List Node} {inner text : List Char}
      (opening : Reached options source ⟨stack, complete⟩ ('(' :: inner))
      (shallow : stack.length < options.maxDepth)
      (items : Items options (stack.length + 1) inner elements.reverse text) :
      Reached options source ⟨⟨'(' :: inner, elements⟩ :: stack, complete⟩ text

/-- An error of the text tells of a fault that is there, at a place of the source. -/
def Explained (options : Options) (source : List Char) : Error → Prop
  | .parse error => ∃ (fault : Fault) (depth : Nat) (rest : List Char),
      .parse error = fault.toError source rest ∧ Place options source depth rest ∧
        Misread options depth rest fault.kind
  | _ => True

theorem explained_toError {fault : Fault} (place : Place options source depth rest)
    (misread : Misread options depth rest fault.kind) :
    Explained options source (fault.toError source rest) :=
  ⟨fault, depth, rest, rfl, place, misread⟩

namespace Reached

variable {state : State}

theorem place (reached : Reached options source state text) :
    Place options source state.stack.length text := by
  induction reached with
  | outside items => exact .outside items
  | inside _ shallow items ih => exact .inside ih shallow items

theorem skip (reached : Reached options source state text)
    (trivia : Trivia options.comments text rest) : Reached options source state rest := by
  cases reached with
  | outside items =>
      have skipped := items.append (.done trivia)
      rw [List.append_nil] at skipped
      exact .outside skipped
  | inside opening shallow items =>
      have skipped := items.append (.done trivia)
      rw [List.append_nil] at skipped
      exact .inside opening shallow skipped

/-- An item is added to the form that is open where it starts. -/
theorem conforms_add (reached : Reached options source state text)
    (item : Items options state.stack.length text [node] rest) :
    Conforms (fun next => Reached options source next rest) (Explained options source)
      (state.add node) := by
  cases reached with
  | outside items =>
      apply Conforms.bind (node.conforms_checkArities fun _ _ _ => trivial)
      intro _ _
      exact .outside (by simpa using items.append item)
  | inside opening shallow items =>
      exact .inside opening shallow (by simpa using items.append item)

/-- A closing parenthesis completes the form that is open before it. -/
theorem conforms_close (reached : Reached options source state (')' :: rest)) :
    Conforms (fun next => Reached options source next rest) (Explained options source)
      (state.close source (')' :: rest)) := by
  cases reached with
  | outside items => exact explained_toError (.outside items) (.unmatchedClosing rfl)
  | @inside stack complete elements inner _ opening shallow items =>
      by_cases empty : elements = []
      · -- The error points to the opening parenthesis, not to the closing one.
        subst empty
        cases items with
        | done trivia => exact explained_toError opening.place (.emptyForm shallow trivia)
      · rw [State.close_of_stack_cons empty]
        exact opening.conforms_add (.form .none shallow items (by simpa using empty) (.done .none))

theorem conforms_step {first : Char} (reached : Reached options source state (first :: text))
    (significant : Significant options.comments (first :: text)) :
    Conforms (fun next => Reached options source next (Token.next options.comments first text).2)
      (Explained options source)
      (state.step options.maxDepth source
        ⟨(Token.next options.comments first text).1, first :: text⟩) := by
  by_cases isOpening : first = '('
  · subst isOpening
    simp only [Token.next, State.step]
    split
    · rename_i shallow
      exact .inside reached shallow (.done .none)
    · rename_i deep
      -- No place is deeper than the limit, so a form that may not be opened is exactly at it.
      have deepest := Nat.le_antisymm reached.place.depth_le (Nat.le_of_not_lt deep)
      exact explained_toError reached.place (.deepOpening deepest)
  by_cases isClosing : first = ')'
  · subst isClosing
    exact reached.conforms_close
  · rcases next_cases isOpening isClosing with ⟨node, denotes⟩ | ⟨fault, isFault⟩
    · have item : Single options.comments (first :: text) node
          (Token.next options.comments first text).2 :=
        single_of_next significant denotes rfl
      have added := reached.conforms_add (.single .none item (.done .none))
      generalize (Token.next options.comments first text).1 = token at denotes ⊢
      cases denotes <;> exact added
    · rw [isFault]
      exact explained_toError reached.place (misread_of_next isFault)

/-- Reading on goes from place to place up to the end, or it fails at one of them. -/
theorem conforms_resume {state : State} {text : List Char}
    (reached : Reached options source state text) :
    Conforms (fun final => Reached options source final []) (Explained options source)
      (resume options source state text) := by
  have trivia : Trivia options.comments text _ := trivia_skipTrivia text
  have significant : Significant options.comments _ := significant_skipTrivia text
  have skipped_le := length_skipTrivia_le options.comments text
  rw [trivia.resume_eq]
  generalize skipTrivia options.comments text = start at trivia significant skipped_le
  rcases start with _ | ⟨first, after⟩
  · rw [resume_nil]
    exact reached.skip trivia
  · rw [resume_cons significant]
    apply Conforms.bind ((reached.skip trivia).conforms_step significant)
    intro next nextReached
    have taken_le := Token.length_next_le options.comments first after
    have shorter : (Token.next options.comments first after).2.length < text.length :=
      Nat.lt_of_le_of_lt taken_le skipped_le
    exact nextReached.conforms_resume
termination_by text.length

theorem conforms_finish (reached : Reached options source state []) :
    Conforms (fun _ => True) (Explained options source) (state.finish source) := by
  cases reached with
  | outside => trivial
  | inside opening shallow items => exact explained_toError opening.place (.openForm shallow items)

end Reached

theorem explained_of_read {source : String} {error : Error}
    (failed : read options source = .error error) : Explained options source.toList error := by
  have reached : Reached options source.toList .initial source.toList :=
    .outside (.done .none)
  have conforms : Conforms (fun _ => True) (Explained options source.toList)
      (read options source) := by
    rw [read_eq_resume]
    apply Conforms.bind reached.conforms_resume
    intro final finalReached
    exact finalReached.conforms_finish
  rwa [failed] at conforms

/-! ## What an error shows -/

theorem Misread.head {kind : ParseErrorKind} (misread : Misread options depth rest kind) :
    ∃ first after, rest = first :: after ∧ Text.isBlank first = false := by
  cases misread with
  | @integerRange word after number isInteger ended beyond =>
      cases isInteger with
      | plain isDigits =>
          have ⟨nonempty, digits⟩ := Decimal.isDigits_iff.mp isDigits
          rcases word with _ | ⟨first, word⟩
          · exact absurd rfl nonempty
          · exact ⟨first, word ++ after, rfl, Text.isBlank_of_isDigit (digits first (by simp))⟩
      | minus isDigits => exact ⟨_, _, rfl, by decide⟩
  | _ => exact ⟨_, _, rfl, by decide⟩

theorem Fault.foundAt_cons {first : Char} (notBlank : Text.isBlank first = false)
    (after : List Char) :
    foundAt (first :: after) = some (String.ofList
      (((first :: after).takeWhile fun character => !Text.isBlank character).take 20)) := by
  simp [foundAt, foundLength, notBlank]

end Reader

namespace ParseError

theorem ne_of_mem_inOneLine {text : List Char} {character : Char}
    (shown : character ∈ inOneLine text) : character ≠ '\n' ∧ character ≠ '\r' := by
  rcases List.mem_flatMap.mp shown with ⟨written, _, shown⟩
  split at shown
  · have escaped : character = '\\' ∨ character = 'n' := by simpa using shown
    rcases escaped with rfl | rfl <;> decide
  · rename_i noLineFeed
    split at shown
    · simp at shown
    · rename_i noCarriageReturn
      obtain rfl : character = written := by simpa using shown
      exact ⟨by simpa using noLineFeed, by simpa using noCarriageReturn⟩

theorem inOneLine_infix {text piece : List Char} (inside : piece <:+: text) :
    inOneLine piece <:+: inOneLine text := by
  rcases inside with ⟨before, after, rfl⟩
  exact ⟨inOneLine before, inOneLine after, by simp [inOneLine]⟩

theorem ne_of_mem_contextAt {text : List Char} {position : Nat} {character : Char}
    (shown : character ∈ (contextAt text position).toList) :
    character ≠ '\n' ∧ character ≠ '\r' := by
  rw [contextAt, String.toList_ofList] at shown
  exact ne_of_mem_inOneLine shown

/-- At most 20 of the 100 characters that are shown stand before the position. -/
theorem take_infix_contextAt (before rest : List Char) :
    inOneLine (rest.take 80) <:+: (contextAt (before ++ rest) before.length).toList := by
  let start := before.length - contextBefore
  have dropped : (before ++ rest).drop start = before.drop start ++ rest :=
    List.drop_append_of_le_length (Nat.sub_le _ _)
  have before_le : (before.drop start).length ≤ 20 := by
    simp only [List.length_drop, start, contextBefore]
    omega
  have shown : rest.take 80 <:+: ((before ++ rest).drop start).take contextLength := by
    rw [dropped, List.take_append]
    have taken : rest.take 80 <+: rest.take (contextLength - (before.drop start).length) := by
      apply List.take_prefix_take_left
      simp only [contextLength]
      omega
    exact taken.isInfix.trans (List.suffix_append _ _).isInfix
  rw [contextAt, String.toList_ofList]
  apply inOneLine_infix
  exact shown.trans ⟨_, _, rfl⟩

end ParseError

/--
An error of reading is located and classified correctly. It is at a place of the source with a
non-blank character, and what is wrong with the text from there on is of its kind. It quotes the
first 20 characters of this text before a blank, and its context shows the first 80 characters of
the text, in one line.
-/
theorem Reader.misread_of_read_error {options : Options} {source : String} {error : ParseError}
    (failed : read options source = .error (.parse error)) :
    ∃ before rest depth, source.toList = before ++ rest ∧
      Place options source.toList depth rest ∧ Misread options depth rest error.kind ∧
      (∃ first after, rest = first :: after ∧ Text.isBlank first = false) ∧
      error.found = some (String.ofList
        ((rest.takeWhile fun character => !Text.isBlank character).take 20)) ∧
      ∃ context, error.context = some context ∧
        ParseError.inOneLine (rest.take 80) <:+: context.toList ∧
        ∀ character ∈ context.toList, character ≠ '\n' ∧ character ≠ '\r' := by
  rcases explained_of_read failed with ⟨fault, depth, rest, error_eq, place, misread⟩
  rcases place.suffix with ⟨before, source_eq⟩
  rcases misread.head with ⟨first, after, rfl, notBlank⟩
  have position_eq : source.toList.length - (first :: after).length = before.length := by
    rw [← source_eq, List.length_append, Nat.add_sub_cancel]
  obtain rfl := Error.parse.inj error_eq
  rw [position_eq]
  refine ⟨before, first :: after, depth, source_eq.symm, place, misread,
    ⟨first, after, rfl, notBlank⟩, Fault.foundAt_cons notBlank after, _, rfl, ?_, ?_⟩
  · rw [← source_eq]
    exact ParseError.take_infix_contextAt before (first :: after)
  · intro character shown
    exact ParseError.ne_of_mem_contextAt shown

/-- A time that is none, behind a form whose arity would be refused and behind a line feed. -/
theorem Reader.misread_of_read_error_time :
    let source := "(a (if)\n #t\x7bsoon\x7d b)"
    let error : ParseError :=
      ⟨.invalidLiteral, "Invalid time literal", some "(a (if)\\n #t\x7bsoon\x7d b)",
        some "#t\x7bsoon\x7d"⟩
    read .standard source = .error (.parse error) ∧
      ∃ before rest depth, source.toList = before ++ rest ∧
        Place .standard source.toList depth rest ∧
        Misread .standard depth rest .invalidLiteral ∧
        "#t\x7bsoon\x7d" =
          String.ofList ((rest.takeWhile fun character => !Text.isBlank character).take 20) := by
  intro source error
  have reported : (match read .standard source with
      | .error (.parse raised) => some raised
      | _ => none) = some error := by decide +kernel
  have failed : read .standard source = .error (.parse error) := by
    split at reported
    · rename_i raised failed
      rw [failed, Option.some.inj reported]
    · cases reported
  rcases misread_of_read_error failed with
    ⟨before, rest, depth, split, place, misread, _, found, _⟩
  exact ⟨failed, before, rest, depth, split, place, misread, Option.some.inj found⟩

end MeteredRules
