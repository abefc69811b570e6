import MeteredRules.Proofs.Reader.Position

/-!
# Reading by descent

A text can also be read expression by expression: a form is its elements one after the other up to
its closing parenthesis, each of them read in the same way, and a program is read in a loop over
what is left of the source. Nothing in these recursions tells that they end. So they are given a
bound on their steps, and have no outcome where it is reached.

It never is if it exceeds twice the length of the text: every expression takes at least one
character, and what is left of a text is a suffix of it. The outcome is then the one of the reader
that keeps the open forms on a stack. Since the reported places are suffixes of the source as well,
the bytes of the source that are not in such a suffix are exactly those that stand before the place.
-/

namespace MeteredRules

namespace Reader

/-- What is wrong with a text, and the text from the place on where it is. -/
structure Report where
  fault : Fault
  place : List Char

/-- One expression and the text after it, or a report. -/
abbrev Outcome : Type :=
  Except Report (Node × List Char)

/-- A way to read the expression that a text starts with, given the number of forms around it. -/
abbrev NodeReader : Type :=
  (depth : Nat) → (text : List Char) → Option Outcome

/--
A way to read a form from the text of its remaining elements on, given its text from the opening
parenthesis on and the elements read so far, the last first.
-/
abbrev FormReader : Type :=
  (depth : Nat) → (opening : List Char) → (elements : List Node) → (text : List Char) →
    Option Outcome

/-- Reads an expression, given a way to read a form. -/
def readNodeBy (options : Options) (readForm : FormReader) : NodeReader
  | _, [] => some (.error ⟨.unrecognized, []⟩)
  | depth, first :: after =>
    if Text.isBlank first || (options.comments && first == ';') then
      some (.error ⟨.unrecognized, first :: after⟩)
    else
      match Token.next options.comments first after with
      | (.opening, inner) =>
        if depth < options.maxDepth then readForm (depth + 1) (first :: after) [] inner
        else some (.error ⟨.tooDeeplyNested options.maxDepth, first :: after⟩)
      | (.closing, _) => some (.error ⟨.unmatchedClosing, first :: after⟩)
      | (.atom value, rest) => some (.ok (.atom value, rest))
      | (.symbol name, rest) => some (.ok (.symbol name, rest))
      | (.fault fault, _) => some (.error ⟨fault, first :: after⟩)

/-- Reads a form, given ways to read its next element and to go on behind this element. -/
def readFormBy (options : Options) (readNode : NodeReader) (readForm : FormReader) : FormReader
  | depth, opening, elements, text =>
    match skipTrivia options.comments text with
    | [] => some (.error ⟨.unfinished, opening⟩)
    | ')' :: rest =>
      if elements.isEmpty then some (.error ⟨.emptyForm, opening⟩)
      else some (.ok (Node.ofElements elements.reverse, rest))
    | start => do
      match ← readNode depth start with
      | .error report => some (.error report)
      | .ok (element, rest) => readForm depth opening (element :: elements) rest

mutual

/-- Reads the expression that a text starts with, within a bound on the steps. -/
def readNodeWithin (options : Options) : (bound : Nat) → NodeReader
  | 0 => fun _ _ => none
  | bound + 1 => readNodeBy options (readFormWithin options bound)

/-- Reads a form element by element, within a bound on the steps. -/
def readFormWithin (options : Options) : (bound : Nat) → FormReader
  | 0 => fun _ _ _ _ => none
  | bound + 1 => readFormBy options (readNodeWithin options bound) (readFormWithin options bound)

end

/-- How many bytes of UTF-8 of a source are not in the text from the reported place on. -/
def Report.offset (report : Report) (source : String) : Nat :=
  source.utf8ByteSize - (String.ofList report.place).utf8ByteSize

/-- The error of a report, at its offset in the source. -/
def Report.toError (report : Report) (source : String) : Error :=
  .parse (.atByte report.fault.kind report.fault.message source (report.offset source)
    (Fault.foundAt report.place))

/--
Reads the remaining expressions of a source within a bound on the steps, given the expressions read
so far, the last first.
-/
def readNodesWithin (options : Options) (source : String) :
    (bound : Nat) → (nodes : List Node) → (text : List Char) → Option (Except Error (List Node))
  | 0, _, _ => none
  | bound + 1, nodes, text =>
    match skipTrivia options.comments text with
    | [] => some (.ok nodes.reverse)
    | start => do
      match ← readNodeWithin options bound 0 start with
      | .error report => some (.error (report.toError source))
      | .ok (node, rest) =>
        match node.checkArities with
        | .error error => some (.error error)
        | .ok () => readNodesWithin options source bound (node :: nodes) rest

/--
Drops blanks and comments in turns as long as there is a comment behind the blanks, within a bound
on the turns. A comment leaves the line feed at its end.
-/
def skipTriviaWithin (comments : Bool) : (bound : Nat) → (text : List Char) → Option (List Char)
  | 0, _ => none
  | bound + 1, text =>
    match text.dropWhile Text.isBlank with
    | ';' :: comment =>
      if comments then skipTriviaWithin comments bound (comment.dropWhile (· != '\n'))
      else some (';' :: comment)
    | start => some start

variable {options : Options} {source : List Char} {depth : Nat} {opening text rest : List Char}
  {elements : List Node} {outcome : Outcome}

/-! ## Trivia -/

theorem suffix_skipTrivia (comments : Bool) (text : List Char) :
    skipTrivia comments text <:+ text :=
  (trivia_skipTrivia text).suffix

theorem skipTrivia_idem (comments : Bool) (text : List Char) :
    skipTrivia comments (skipTrivia comments text) = skipTrivia comments text :=
  skipTrivia_of_significant (significant_skipTrivia text)

/-- A comment without a line feed reaches up to the end of the text. -/
theorem skipTrivia_comment {comment : List Char} (inLine : '\n' ∉ comment) :
    skipTrivia true (';' :: comment) = [] := by
  have trivia : Trivia true (';' :: (comment ++ [])) [] := .comment rfl inLine (by simp) .none
  rw [List.append_nil] at trivia
  exact trivia.skipTrivia_eq.trans skipTrivia_nil

theorem skipTrivia_dropWhile (comments : Bool) (text : List Char) :
    skipTrivia comments (text.dropWhile Text.isBlank) = skipTrivia comments text := by
  induction text with
  | nil => rfl
  | cons character text ih =>
      rw [List.dropWhile_cons, skipTrivia_cons]
      split
      · exact ih
      · rename_i notBlank
        rw [skipTrivia_cons, if_neg notBlank]

/-- The loop over blanks and comments ends, since a comment takes at least its semicolon. -/
theorem skipTriviaWithin_eq (comments : Bool) {bound : Nat} (text : List Char)
    (enough : text.length < bound) :
    skipTriviaWithin comments bound text = some (skipTrivia comments text) := by
  induction bound generalizing text with
  | zero => exact absurd enough (Nat.not_lt_zero _)
  | succ bound ih =>
      have blanks_le := (List.dropWhile_suffix (l := text) Text.isBlank).length_le
      have notBlank : ∀ first ∈ (text.dropWhile Text.isBlank).head?,
          Text.isBlank first = false := by
        intro first head
        exact Text.eq_false_of_mem_head?_dropWhile head
      rw [skipTriviaWithin, ← skipTrivia_dropWhile]
      generalize text.dropWhile Text.isBlank = start at blanks_le notBlank
      split
      · rename_i comment
        have visible : ¬Text.isBlank ';' = true := by decide
        rw [skipTrivia_cons, if_neg visible]
        cases comments with
        | false => rfl
        | true =>
            have comment_le := (List.dropWhile_suffix (l := comment) (· != '\n')).length_le
            rw [List.length_cons] at blanks_le
            exact ih _ (by omega)
      · rename_i noComment
        rw [skipTrivia_of_significant]
        intro first head
        refine ⟨notBlank first head, ?_⟩
        rcases start with _ | ⟨initial, after⟩
        · simp at head
        · obtain rfl : initial = first := by simpa using head
          have noSemicolon : initial ≠ ';' := by
            rintro rfl
            exact noComment after rfl
          simp [noSemicolon]

/-! ## Every expression takes a part of the text -/

/-- What follows an expression is a proper suffix of the text, and a report is at a suffix of it. -/
def Advances (text : List Char) : Outcome → Prop
  | .ok (_, rest) => rest <:+ text ∧ rest.length < text.length
  | .error report => report.place <:+ text

theorem Advances.of_suffix {whole : List Char} (advances : Advances text outcome)
    (inside : text <:+ whole) : Advances whole outcome := by
  rcases outcome with report | ⟨node, rest⟩
  · exact advances.trans inside
  · rcases advances with ⟨suffix, shorter⟩
    exact ⟨suffix.trans inside, Nat.lt_of_lt_of_le shorter inside.length_le⟩

theorem advances_report (fault : Fault) (text : List Char) : Advances text (.error ⟨fault, text⟩) :=
  List.suffix_rfl

theorem advances_cons {first : Char} {after : List Char} (node : Node) (inside : rest <:+ after) :
    Advances (first :: after) (.ok (node, rest)) :=
  ⟨inside.trans (List.suffix_cons first after), Nat.lt_succ_of_le inside.length_le⟩

theorem suffix_of_enclosed? {mark : Char} {content : List Char}
    (found : enclosed? mark text = some (content, rest)) : rest <:+ text := by
  rw [(eq_append_of_enclosed? found).2]
  exact (List.suffix_cons mark rest).trans (List.suffix_append content _)

/-- What follows a token is a suffix of the text behind its first character. -/
theorem suffix_next (comments : Bool) (first : Char) (after : List Char) :
    (Token.next comments first after).2 <:+ after := by
  unfold Token.next
  split
  · exact List.suffix_rfl
  · exact List.suffix_rfl
  · split
    · rename_i found
      exact suffix_of_enclosed? found
    · exact List.nil_suffix
  · split
    · rename_i found
      exact ((suffix_of_enclosed? found).trans (List.suffix_cons _ _)).trans (List.suffix_cons _ _)
    · exact List.nil_suffix
  · exact List.dropWhile_suffix _

/-! ## Reading on with a stack -/

/-- Reads a source on from a state up to the end. -/
def readOn (options : Options) (source : List Char) (state : State) (text : List Char) :
    Except Error (List Node) :=
  resume options source state text >>= State.finish source

/-- Reads a source on behind an expression, or fails as it is reported. -/
def readOnBehind (options : Options) (source : List Char) (state : State) :
    Outcome → Except Error (List Node)
  | .ok (node, rest) => do
    let next ← state.add node
    readOn options source next rest
  | .error report => .error (report.fault.toError source report.place)

theorem readOn_nil (state : State) : readOn options source state [] = state.finish source := by
  rw [readOn, resume_nil]
  rfl

theorem readOn_cons {first : Char} {after : List Char}
    (significant : Significant options.comments (first :: after)) (state : State) :
    readOn options source state (first :: after) = (do
      let next ← state.step options.maxDepth source
        ⟨(Token.next options.comments first after).1, first :: after⟩
      readOn options source next (Token.next options.comments first after).2) := by
  rw [readOn, resume_cons significant, bind_assoc]
  rfl

theorem readOn_opening (state : State) (inner : List Char) :
    readOn options source state ('(' :: inner) =
      if state.stack.length < options.maxDepth then
        readOn options source { state with stack := ⟨'(' :: inner, []⟩ :: state.stack } inner
      else .error ((Fault.tooDeeplyNested options.maxDepth).toError source ('(' :: inner)) := by
  rw [readOn, resume_opening]
  split
  · rfl
  · rfl

/-- The closing parenthesis of a form that is open completes it, unless it has no elements. -/
theorem readOn_closing (frames : List Frame) (complete : List Node) (rest : List Char) :
    readOn options source ⟨⟨opening, elements⟩ :: frames, complete⟩ (')' :: rest) =
      readOnBehind options source ⟨frames, complete⟩
        (if elements.isEmpty then .error ⟨.emptyForm, opening⟩
        else .ok (Node.ofElements elements.reverse, rest)) := by
  rw [readOn, resume_closing, bind_assoc]
  simp only [State.close]
  split
  · rfl
  · rfl

theorem readOn_skipTrivia (state : State) (text : List Char) :
    readOn options source state (skipTrivia options.comments text) =
      readOn options source state text := by
  have trivia : Trivia options.comments text _ := trivia_skipTrivia text
  rw [readOn, ← trivia.resume_eq, readOn]

/--
The outcome of reading an expression: it advances in the text, and the reader with a stack, in every
state with as many open forms, reads on behind it. A closing parenthesis is left to the form that it
completes, and so it starts an expression only outside of all forms.
-/
structure Follows (options : Options) (depth : Nat) (text : List Char) (outcome : Outcome) :
    Prop where
  advances : Advances text outcome
  readOn_eq : Significant options.comments text → text ≠ [] →
    (text.head? = some ')' → depth = 0) →
      ∀ (source : List Char) (state : State), state.stack.length = depth →
        readOn options source state text = readOnBehind options source state outcome

/-- The outcome of reading a form: a report may be at its opening, too. -/
structure FollowsInside (options : Options) (depth : Nat) (opening : List Char)
    (elements : List Node) (text : List Char) (outcome : Outcome) : Prop where
  advances : Advances text outcome ∨ ∃ fault, outcome = .error ⟨fault, opening⟩
  readOn_eq : ∀ (source : List Char) (frames : List Frame) (complete : List Node),
    frames.length + 1 = depth →
      readOn options source ⟨⟨opening, elements⟩ :: frames, complete⟩ text =
        readOnBehind options source ⟨frames, complete⟩ outcome

/-- Behind its trivia a text goes on with an element, not with its end or a closing parenthesis. -/
structure GoesOn (options : Options) (text start : List Char) : Prop where
  skipped : skipTrivia options.comments text = start
  nonempty : start ≠ []
  notClosing : start.head? ≠ some ')'

namespace GoesOn

variable {start : List Char}

theorem suffix (goesOn : GoesOn options text start) : start <:+ text := by
  rw [← goesOn.skipped]
  exact suffix_skipTrivia _ text

theorem readOn_eq (goesOn : GoesOn options text start)
    (follows : Follows options depth start outcome) (source : List Char) (state : State)
    (open_eq : state.stack.length = depth) :
    readOn options source state text = readOnBehind options source state outcome := by
  have significant : Significant options.comments start := by
    rw [← goesOn.skipped]
    exact significant_skipTrivia text
  rw [← readOn_skipTrivia, goesOn.skipped]
  apply follows.readOn_eq significant goesOn.nonempty _ source state open_eq
  intro closing
  exact absurd closing goesOn.notClosing

end GoesOn

/-! ## One step -/

/-- A token that is no parenthesis is an expression or a report. -/
theorem exists_outcome_of_token (options : Options) {first : Char} {after : List Char}
    (significant : Significant options.comments (first :: after)) (notOpening : first ≠ '(')
    (notClosing : first ≠ ')') :
    ∃ outcome, Follows options depth (first :: after) outcome ∧
      ∀ readForm, readNodeBy options readForm depth (first :: after) = some outcome := by
  have ⟨notBlank, noComment⟩ := significant first rfl
  have taken := suffix_next options.comments first after
  have tokens := @next_cases options.comments first after notOpening notClosing
  simp only [readNodeBy, notBlank, noComment, Bool.or_self, Bool.false_eq_true, if_false]
  generalize next_eq : Token.next options.comments first after = next at taken tokens ⊢
  rcases next with ⟨token, rest⟩
  rcases tokens with ⟨node, denotes⟩ | ⟨fault, isFault⟩
  · refine ⟨.ok (node, rest), ⟨advances_cons node taken, ?_⟩, ?_⟩
    · intro _ _ _ source state _
      rw [readOn_cons significant, next_eq]
      cases denotes <;> rfl
    · intro readForm
      cases denotes <;> rfl
  · obtain rfl : token = .fault fault := isFault
    refine ⟨.error ⟨fault, first :: after⟩, ⟨advances_report fault _, ?_⟩, fun _ => rfl⟩
    intro _ _ _ source state _
    rw [readOn_cons significant, next_eq]
    rfl

/-- A form is opened by a parenthesis, and everything else has an outcome on its own. -/
theorem readNodeBy_cases (options : Options) (depth : Nat) (text : List Char) :
    (∃ outcome, Follows options depth text outcome ∧
      ∀ readForm, readNodeBy options readForm depth text = some outcome) ∨
    ∃ inner, text = '(' :: inner ∧ depth < options.maxDepth ∧
      ∀ readForm, readNodeBy options readForm depth text = readForm (depth + 1) text [] inner := by
  rcases text with _ | ⟨first, after⟩
  · exact .inl ⟨_, ⟨advances_report _ [], fun _ nonempty => absurd rfl nonempty⟩, fun _ => rfl⟩
  by_cases isTrivial : Text.isBlank first || (options.comments && first == ';')
  · -- Trivia is skipped before an expression is read, so no state reads on from here.
    refine .inl ⟨_, ⟨advances_report .unrecognized (first :: after), ?_⟩, ?_⟩
    · intro significant
      have ⟨notBlank, noComment⟩ := significant first rfl
      simp [notBlank, noComment] at isTrivial
    · intro readForm
      rw [readNodeBy, if_pos isTrivial]
  by_cases isOpening : first = '('
  · subst isOpening
    by_cases shallow : depth < options.maxDepth
    · refine .inr ⟨after, rfl, shallow, ?_⟩
      intro readForm
      rw [readNodeBy, if_neg isTrivial]
      exact if_pos shallow
    · refine .inl ⟨_, ⟨advances_report (.tooDeeplyNested options.maxDepth) _, ?_⟩, ?_⟩
      · rintro _ _ _ source state rfl
        rw [readOn_opening, if_neg shallow]
        rfl
      · intro readForm
        rw [readNodeBy, if_neg isTrivial]
        exact if_neg shallow
  by_cases isClosing : first = ')'
  · subst isClosing
    refine .inl ⟨_, ⟨advances_report .unmatchedClosing _, ?_⟩, ?_⟩
    · rintro significant _ outside source ⟨stack, complete⟩ rfl
      -- No form is open here, so that the parenthesis is a fault for the reader with a stack, too.
      obtain rfl := List.eq_nil_of_length_eq_zero (outside rfl)
      rw [readOn_cons significant]
      rfl
    · intro readForm
      rw [readNodeBy, if_neg isTrivial]
      rfl
  · left
    apply exists_outcome_of_token options _ isOpening isClosing
    intro initial head
    obtain rfl : first = initial := by simpa using head
    simpa using isTrivial

/-- A form ends, or its next element is read. -/
theorem readFormBy_cases (options : Options) (depth : Nat) (opening : List Char)
    (elements : List Node) (text : List Char) :
    (∃ outcome, FollowsInside options depth opening elements text outcome ∧
      ∀ readNode readForm,
        readFormBy options readNode readForm depth opening elements text = some outcome) ∨
    ∃ start, GoesOn options text start ∧ ∀ readNode readForm,
        readFormBy options readNode readForm depth opening elements text = (do
          match ← readNode depth start with
          | .error report => some (.error report)
          | .ok (element, rest) => readForm depth opening (element :: elements) rest) := by
  have skipped := suffix_skipTrivia options.comments text
  rcases start_eq : skipTrivia options.comments text with _ | ⟨first, after⟩
  · refine .inl ⟨.error ⟨.unfinished, opening⟩, ⟨.inr ⟨_, rfl⟩, ?_⟩, ?_⟩
    · intro source frames complete _
      rw [← readOn_skipTrivia, start_eq, readOn_nil]
      rfl
    · intro readNode readForm
      simp only [readFormBy, start_eq]
  rw [start_eq] at skipped
  by_cases isClosing : first = ')'
  · subst isClosing
    refine .inl ⟨if elements.isEmpty then .error ⟨.emptyForm, opening⟩
      else .ok (Node.ofElements elements.reverse, after), ⟨?_, ?_⟩, ?_⟩
    · split
      · exact .inr ⟨_, rfl⟩
      · exact .inl ((advances_cons _ List.suffix_rfl).of_suffix skipped)
    · intro source frames complete _
      rw [← readOn_skipTrivia, start_eq, readOn_closing]
    · intro readNode readForm
      simp only [readFormBy, start_eq]
      split <;> rfl
  · refine .inr ⟨first :: after, ⟨start_eq, List.cons_ne_nil _ _, by simpa using isClosing⟩, ?_⟩
    intro readNode readForm
    simp only [readFormBy, start_eq]
    split
    · rename_i ended
      cases ended
    · rename_i closed
      exact absurd (List.cons.inj closed).1 isClosing
    · rfl

/-! ## Every reading ends -/

namespace FollowsInside

/-- A form is read as what its opening parenthesis starts. -/
theorem of_opening {inner : List Char} (shallow : depth < options.maxDepth)
    (inside : FollowsInside options (depth + 1) ('(' :: inner) [] inner outcome) :
    Follows options depth ('(' :: inner) outcome where
  advances := by
    rcases inside.advances with advances | ⟨fault, rfl⟩
    · exact advances.of_suffix (List.suffix_cons _ _)
    · exact advances_report fault _
  readOn_eq := by
    rintro _ _ _ source ⟨stack, complete⟩ rfl
    rw [readOn_opening, if_pos shallow]
    exact inside.readOn_eq source stack complete rfl

variable {start : List Char}

/-- What is reported about an element is reported about the form. -/
theorem of_report {report : Report} (goesOn : GoesOn options text start)
    (follows : Follows options depth start (.error report)) :
    FollowsInside options depth opening elements text (.error report) where
  advances := .inl (follows.advances.of_suffix goesOn.suffix)
  readOn_eq _ _ _ open_eq := goesOn.readOn_eq follows _ _ open_eq

/-- A form is read on behind its next element. -/
theorem of_element {element : Node} (goesOn : GoesOn options text start)
    (follows : Follows options depth start (.ok (element, rest)))
    (more : FollowsInside options depth opening (element :: elements) rest outcome) :
    FollowsInside options depth opening elements text outcome where
  advances := by
    have inside := follows.advances.1.trans goesOn.suffix
    exact more.advances.imp_left fun advances => advances.of_suffix inside
  readOn_eq source frames complete open_eq :=
    (goesOn.readOn_eq follows source ⟨⟨opening, elements⟩ :: frames, complete⟩ open_eq).trans
      (more.readOn_eq source frames complete open_eq)

end FollowsInside

/-- What one step more than the needed ones reaches is reached within every larger bound. -/
theorem eq_within_of_succ {run : Nat → Option Outcome} {steps : Nat}
    (succ : ∀ bound, steps ≤ bound → run (bound + 1) = some outcome) :
    ∀ bound, steps < bound → run bound = some outcome
  | bound + 1, enough => succ bound (Nat.le_of_lt_succ enough)

-- Each character is met at most twice: by the form around an expression and by the expression.
mutual

/-- Reading an expression ends within every bound beyond twice the length of the text. -/
theorem exists_follows (options : Options) (depth : Nat) (text : List Char) :
    ∃ outcome, Follows options depth text outcome ∧
      ∀ bound, 2 * text.length < bound →
        readNodeWithin options bound depth text = some outcome := by
  rcases readNodeBy_cases options depth text with
    ⟨outcome, follows, read⟩ | ⟨inner, rfl, shallow, read⟩
  · refine ⟨outcome, follows, ?_⟩
    apply eq_within_of_succ
    intro bound _
    exact read _
  · rcases exists_followsInside options (depth + 1) ('(' :: inner) [] inner with
      ⟨outcome, inside, ended⟩
    refine ⟨outcome, inside.of_opening shallow, ?_⟩
    apply eq_within_of_succ
    intro bound enough
    rw [List.length_cons] at enough
    exact (read _).trans (ended bound (by omega))
termination_by 2 * text.length

/-- Reading a form ends, since each of its elements leaves less of the text for the next one. -/
theorem exists_followsInside (options : Options) (depth : Nat) (opening : List Char)
    (elements : List Node) (text : List Char) :
    ∃ outcome, FollowsInside options depth opening elements text outcome ∧
      ∀ bound, 2 * text.length + 1 < bound →
        readFormWithin options bound depth opening elements text = some outcome := by
  rcases readFormBy_cases options depth opening elements text with
    ⟨outcome, follows, read⟩ | ⟨start, goesOn, read⟩
  · refine ⟨outcome, follows, ?_⟩
    apply eq_within_of_succ
    intro bound _
    exact read _ _
  have start_le := goesOn.suffix.length_le
  rcases exists_follows options depth start with ⟨report | ⟨element, rest⟩, follows, ended⟩
  · refine ⟨.error report, .of_report goesOn follows, ?_⟩
    apply eq_within_of_succ
    intro bound enough
    rw [readFormWithin, read, ended bound (by omega)]
    rfl
  · have shorter := follows.advances.2
    rcases exists_followsInside options depth opening (element :: elements) rest with
      ⟨outcome, more, endedMore⟩
    refine ⟨outcome, .of_element goesOn follows more, ?_⟩
    apply eq_within_of_succ
    intro bound enough
    rw [readFormWithin, read, ended bound (by omega)]
    exact endedMore bound (by omega)
termination_by 2 * text.length + 1

end

/-! ## Offsets in bytes -/

/-- The characters before an offset are those whose bytes stand before it. -/
theorem charactersBefore_append (before rest : List Char) :
    ParseError.charactersBefore (String.ofList before).utf8ByteSize (before ++ rest) =
      before.length := by
  induction before with
  | nil =>
      cases rest <;> rfl
  | cons character before ih =>
      have size : (String.ofList (character :: before)).utf8ByteSize =
          character.utf8Size + (String.ofList before).utf8ByteSize := by
        rw [String.ofList_cons, String.utf8ByteSize_append, String.utf8ByteSize_singleton]
      have positive : 0 < character.utf8Size + (String.ofList before).utf8ByteSize :=
        Nat.lt_of_lt_of_le character.utf8Size_pos (Nat.le_add_right _ _)
      rw [size, List.cons_append, ParseError.charactersBefore, if_pos positive,
        Nat.add_sub_cancel_left, ih, List.length_cons, Nat.add_comm]

/-- If a reported place is a suffix of the source, its offset counts the bytes before it. -/
theorem Report.offset_eq {report : Report} {source : String} {before : List Char}
    (split : source.toList = before ++ report.place) :
    report.offset source = (String.ofList before).utf8ByteSize := by
  have whole : source = String.ofList (before ++ report.place) := by
    rw [← split, String.ofList_toList]
  rw [Report.offset, whole, String.ofList_append, String.utf8ByteSize_append, Nat.add_sub_cancel]

theorem Report.toError_eq {report : Report} {source : String}
    (inside : report.place <:+ source.toList) :
    report.toError source = report.fault.toError source.toList report.place := by
  rcases inside with ⟨before, split⟩
  have characters : source.toList.length - report.place.length = before.length := by
    rw [← split, List.length_append, Nat.add_sub_cancel]
  rw [Report.toError, ParseError.atByte, Report.offset_eq split.symm, Fault.toError, characters,
    ← split, charactersBefore_append]

/-! ## Programs -/

/-- An error of the text is the report on an expression that some rest of the source starts with. -/
def Reported (options : Options) (source : String) : Error → Prop
  | .parse error => ∃ start report, start <:+ source.toList ∧
      (∀ bound, 2 * start.length < bound →
        readNodeWithin options bound 0 start = some (.error report)) ∧
      report.place <:+ start ∧ Error.parse error = report.toError source
  | _ => True

/--
The loop over what is left of a source ends as the reader with a stack does, and its errors are
those that are reported.
-/
theorem readNodesWithin_eq {source : String} {bound : Nat} (nodes : List Node)
    (inside : text <:+ source.toList) (enough : 2 * text.length + 1 < bound) :
    readNodesWithin options source bound nodes text =
        some (readOn options source.toList ⟨[], nodes⟩ text) ∧
      Conforms (fun _ => True) (Reported options source)
        (readOn options source.toList ⟨[], nodes⟩ text) := by
  induction bound generalizing nodes text with
  | zero => exact absurd enough (Nat.not_lt_zero _)
  | succ bound ih =>
      have skipped := suffix_skipTrivia options.comments text
      have significant : Significant options.comments _ := significant_skipTrivia text
      rw [readNodesWithin, ← readOn_skipTrivia]
      generalize skipTrivia options.comments text = start at skipped significant
      have skipped_le := skipped.length_le
      split
      · rw [readOn_nil]
        exact ⟨rfl, trivial⟩
      rename_i nonempty
      rcases exists_follows options 0 start with ⟨outcome, follows, ended⟩
      rw [ended bound (by omega), follows.readOn_eq significant nonempty (fun _ => rfl) _ _ rfl]
      rcases outcome with report | ⟨node, rest⟩
      · have reported : report.place <:+ source.toList :=
          follows.advances.trans (skipped.trans inside)
        rw [readOnBehind, ← report.toError_eq reported]
        exact ⟨rfl, start, report, skipped.trans inside, ended, follows.advances, rfl⟩
      · have arities : Conforms (fun _ => True) (Reported options source) node.checkArities :=
          node.conforms_checkArities fun _ _ _ => trivial
        have left := follows.advances.1.trans (skipped.trans inside)
        have shorter := follows.advances.2
        simp only [Option.bind_eq_bind, Option.bind_some, readOnBehind, State.add]
        generalize node.checkArities = checked at arities ⊢
        rcases checked with error | ⟨⟩
        · exact ⟨rfl, arities⟩
        · exact ih (node :: nodes) left (by omega)

/--
Reading always makes progress. An expression is read from every text at every depth, or a report is
given, in a number of steps bounded by the length of the text; what follows the expression is a
proper suffix of the text, and the reported place is a suffix of it. Blanks and comments are skipped
up to a suffix of the text that starts with neither, also if a comment is not ended by a line feed.
So the loops over blanks and comments, over the elements of a form and over the expressions of a
source end, the last of them with what reading the source gives; and the offset of an error of the
text is the number of bytes before its place.
-/
theorem makes_progress (options : Options) :
    (∀ depth text, ∃ outcome, Advances text outcome ∧ ∀ bound, 2 * text.length < bound →
      readNodeWithin options bound depth text = some outcome) ∧
    (∀ text,
      (∀ bound, text.length < bound →
        skipTriviaWithin options.comments bound text =
          some (skipTrivia options.comments text)) ∧
      skipTrivia options.comments text <:+ text ∧
      Significant options.comments (skipTrivia options.comments text) ∧
      skipTrivia options.comments (skipTrivia options.comments text) =
        skipTrivia options.comments text) ∧
    (options.comments = true → ∀ comment, '\n' ∉ comment →
      skipTrivia options.comments (';' :: comment) = []) ∧
    (∀ depth opening elements text, ∃ outcome, ∀ bound, 2 * text.length + 1 < bound →
      readFormWithin options bound depth opening elements text = some outcome) ∧
    (∀ source bound, 2 * source.toList.length + 1 < bound →
      readNodesWithin options source bound [] source.toList = some (read options source)) ∧
    ∀ source error, read options source = .error (.parse error) →
      ∃ start report before, start <:+ source.toList ∧
        (∀ bound, 2 * start.length < bound →
          readNodeWithin options bound 0 start = some (.error report)) ∧
        Error.parse error = report.toError source ∧
        source.toList = before ++ report.place ∧
        report.offset source = (String.ofList before).utf8ByteSize := by
  refine ⟨?_, ?_, ?_, ?_, ?_, ?_⟩
  · intro depth text
    rcases exists_follows options depth text with ⟨outcome, follows, ended⟩
    exact ⟨outcome, follows.advances, ended⟩
  · intro text
    exact ⟨fun _ => skipTriviaWithin_eq _ text, suffix_skipTrivia _ text,
      significant_skipTrivia text, skipTrivia_idem _ text⟩
  · intro allowed comment inLine
    rw [allowed]
    exact skipTrivia_comment inLine
  · intro depth opening elements text
    rcases exists_followsInside options depth opening elements text with ⟨outcome, _, ended⟩
    exact ⟨outcome, ended⟩
  · intro source bound enough
    exact (readNodesWithin_eq [] List.suffix_rfl enough).1
  · intro source error failed
    have conforms : Conforms (fun _ => True) (Reported options source) (read options source) :=
      (readNodesWithin_eq [] List.suffix_rfl (Nat.lt_succ_self _)).2
    rw [failed] at conforms
    rcases conforms with ⟨start, report, inside, ended, place, error_eq⟩
    rcases place.trans inside with ⟨before, split⟩
    exact ⟨start, report, before, inside, ended, error_eq, split.symm,
      Report.offset_eq split.symm⟩

/-- The error of the text that reading ended with, if it did. -/
def parseError? : Except Error (List Node) → Option ParseError
  | .error (.parse error) => some error
  | _ => none

theorem eq_error_of_parseError? {result : Except Error (List Node)} {error : ParseError}
    (failed : parseError? result = some error) : result = .error (.parse error) := by
  unfold parseError? at failed
  split at failed
  · rw [Option.some.inj failed]
  · cases failed

/-- A word that is none behind a string of two-byte letters, and a comment up to the end. -/
theorem makes_progress_wide :
    let options : Options := ⟨true, 32⟩
    let source := "(f 'äö' #x) ; end"
    let error : ParseError :=
      ⟨.invalidSyntax, "Unrecognized token", some "(f 'äö' #x) ; end", some "#x)"⟩
    read options source = .error (.parse error) ∧
      readNodesWithin options source 36 [] source.toList = some (read options source) ∧
      skipTrivia true "; end".toList = [] ∧
      ∃ start report before, start <:+ source.toList ∧
        (∀ bound, 2 * start.length < bound →
          readNodeWithin options bound 0 start = some (.error report)) ∧
        Error.parse error = report.toError source ∧
        source.toList = before ++ report.place ∧
        report.offset source = (String.ofList before).utf8ByteSize := by
  intro options source error
  have failed : read options source = .error (.parse error) :=
    eq_error_of_parseError? (by decide +kernel)
  rcases makes_progress options with ⟨_, _, comment, _, program, located⟩
  exact ⟨failed, program source 36 (by decide), comment rfl " end".toList (by decide),
    located source error failed⟩

end Reader

end MeteredRules
