import MeteredRules.Proofs.Evaluation.Budget
import MeteredRules.Proofs.Reader.Spelling

/-!
# Programs one after the other

Two source texts on separate lines are read as the program of the first and then the program of the
second. No piece of the first text changes by what follows on the next line: a line feed ends words
and comments just as the end of the text does. From there on, reading the joined text and reading the
second text alone go through the same states, apart from the expressions that are complete already.
They fail in the same way too; only the piece of text that an error shows is taken from different
sources.

Evaluation of the joined program goes on where the first program has stopped.
-/

namespace MeteredRules

variable {α β γ δ : Type}

/-! ## Results that are alike -/

/-- An error without the piece of source text that it shows. -/
def Error.withoutContext : Error → Error
  | .parse error => .parse { error with context := none }
  | error => error

/-- Two results that are related values, or the same error up to the text that it shows. -/
inductive Alike (related : α → β → Prop) : Except Error α → Except Error β → Prop where
  | ok {left : α} {right : β} (values : related left right) : Alike related (.ok left) (.ok right)
  | error {left right : Error} (same : left.withoutContext = right.withoutContext) :
      Alike related (.error left) (.error right)

namespace Alike

variable {related : α → β → Prop}

theorem refl (result : Except Error α) : Alike Eq result result := by
  cases result with
  | ok value => exact .ok rfl
  | error error => exact .error rfl

theorem bind {final : γ → δ → Prop} {left : Except Error α} {right : Except Error β}
    {leftNext : α → Except Error γ} {rightNext : β → Except Error δ}
    (alike : Alike related left right)
    (rest : ∀ leftValue rightValue, related leftValue rightValue →
      Alike final (leftNext leftValue) (rightNext rightValue)) :
    Alike final (left >>= leftNext) (right >>= rightNext) := by
  cases alike with
  | ok values => exact rest _ _ values
  | error same => exact .error same

theorem foldlM {leftStep : α → γ → Except Error α} {rightStep : β → γ → Except Error β}
    (steps : ∀ left right item, related left right →
      Alike related (leftStep left item) (rightStep right item))
    (items : List γ) {left : α} {right : β} (start : related left right) :
    Alike related (items.foldlM leftStep left) (items.foldlM rightStep right) := by
  induction items generalizing left right with
  | nil => exact .ok start
  | cons item items ih =>
      simp only [List.foldlM_cons]
      apply bind (steps left right item start)
      intro nextLeft nextRight next
      exact ih next

end Alike

namespace Reader

/-! ## Reading on with complete expressions -/

/-- The same state, except that other expressions were complete before. -/
def State.after (before : List Node) (state : State) : State :=
  { state with complete := state.complete ++ before }

/-- An error at the same fault is the same in every source, up to the text that it shows. -/
theorem Fault.withoutContext_toError (fault : Fault) (source other text : List Char) :
    (fault.toError source text).withoutContext = (fault.toError other text).withoutContext := by
  simp only [toError, ParseError.atPosition, Error.withoutContext]

variable {before : List Node} {source other : List Char}

namespace State

theorem alike_add (state : State) (node : Node) :
    Alike (fun left right => left = right.after before) ((state.after before).add node)
      (state.add node) := by
  rcases state with ⟨stack, complete⟩
  cases stack with
  | nil =>
      simp only [after, add]
      apply Alike.bind (Alike.refl node.checkArities)
      intro _ _ _
      exact .ok rfl
  | cons frame frames => exact .ok rfl

theorem alike_close (state : State) (text : List Char) :
    Alike (fun left right => left = right.after before) ((state.after before).close source text)
      (state.close other text) := by
  rcases state with ⟨stack, complete⟩
  cases stack with
  | nil => exact .error (Fault.withoutContext_toError _ source other text)
  | cons frame frames =>
      by_cases empty : frame.elements.isEmpty = true
      · simp only [after, close, empty, if_true]
        exact .error (Fault.withoutContext_toError _ source other frame.source)
      · simp only [after, close, empty]
        exact alike_add ⟨frames, complete⟩ _

theorem alike_step (maxDepth : Nat) (state : State) (lexeme : Lexeme) :
    Alike (fun left right => left = right.after before)
      ((state.after before).step maxDepth source lexeme) (state.step maxDepth other lexeme) := by
  rcases lexeme with ⟨token, text⟩
  cases token with
  | opening =>
      by_cases shallow : state.stack.length < maxDepth
      · simp only [after, step, shallow, if_true]
        exact .ok rfl
      · simp only [after, step, shallow, if_false]
        exact .error (Fault.withoutContext_toError _ source other text)
  | closing => exact alike_close state text
  | atom value => exact alike_add state (.atom value)
  | symbol name => exact alike_add state (.symbol name)
  | fault fault => exact .error (Fault.withoutContext_toError fault source other text)

theorem alike_finish (state : State) :
    Alike (fun left right => left = before.reverse ++ right) ((state.after before).finish source)
      (state.finish other) := by
  rcases state with ⟨stack, complete⟩
  cases stack with
  | nil => exact .ok List.reverse_append
  | cons frame frames =>
      exact .error (Fault.withoutContext_toError _ source other frame.source)

end State

theorem alike_resume (options : Options) (state : State) (text : List Char) :
    Alike (fun left right => left = right.after before)
      (resume options source (state.after before) text) (resume options other state text) := by
  apply Alike.foldlM
  · rintro left right lexeme rfl
    exact right.alike_step options.maxDepth lexeme
  · rfl

/-! ## A line feed after a text -/

theorem isDelimiter_lineFeed {comments : Bool} : isDelimiter comments '\n' = true := by
  cases comments <;> decide

theorem Trivia.append_line {comments : Bool} {text rest : List Char}
    (trivia : Trivia comments text rest) (line : List Char) :
    Trivia comments (text ++ '\n' :: line) (rest ++ '\n' :: line) := by
  induction trivia with
  | none => exact .none
  | blank isBlank _ ih => exact .blank isBlank ih
  | @comment body text rest allowed inLine ended _ ih =>
      simp only [List.cons_append, List.append_assoc]
      apply Trivia.comment allowed inLine _ ih
      -- A comment that went on to the end of the text now goes on to the line feed.
      cases text with
      | nil => simp
      | cons next text => simpa using ended next rfl

theorem Single.append_line {comments : Bool} {text rest : List Char} {node : Node}
    (single : Single comments text node rest) (line : List Char) :
    Single comments (text ++ '\n' :: line) node (rest ++ '\n' :: line) := by
  cases single with
  | @string content rest noQuote =>
      simp only [List.cons_append, List.append_assoc]
      exact .string noQuote
  | @instant content rest moment noBrace isInstant =>
      simp only [List.cons_append, List.append_assoc]
      exact .instant noBrace isInstant
  | @word word rest node nonempty noHash undelimited ended means =>
      simp only [List.append_assoc]
      apply Single.word nonempty noHash undelimited _ means
      cases rest with
      | nil => exact bounded_cons isDelimiter_lineFeed
      | cons next rest => simpa using ended next rfl

/-- What was derived from a text is derived from it in front of another line. -/
theorem Sequence.append_line {options : Options} {depth : Nat} {text rest : List Char}
    {nodes : List Node} (derived : Sequence options depth text nodes rest) (line : List Char) :
    Sequence options depth (text ++ '\n' :: line) nodes (rest ++ '\n' :: line) := by
  induction derived with
  | done trivia => exact .done (trivia.append_line line)
  | single trivia item _ ih => exact .single (trivia.append_line line) (item.append_line line) ih
  | form trivia shallow _ formed _ ihContent ihMore =>
      exact .form (trivia.append_line line) shallow ihContent formed ihMore

/-- After a text that was read, the next line is read as if it stood alone. -/
theorem alike_read_line {options : Options} {first : String} {nodes : List Node}
    (accepted : read options first = .ok nodes) (second : String) :
    Alike (fun left right => left = nodes ++ right) (read options (first ++ "\n" ++ second))
      (read options second) := by
  have joined : (first ++ "\n" ++ second).toList = first.toList ++ '\n' :: second.toList := by
    simp
  have derived : Sequence options 0 (first ++ "\n" ++ second).toList nodes
      ('\n' :: second.toList) := by
    rw [joined]
    exact (sequence_of_read accepted).append_line second.toList
  have added : State.initial.addAll nodes = .ok (State.initial.after nodes.reverse) :=
    State.addAll_of_stack_nil.mpr ⟨derived.checkAllArities, by simp [State.after, State.initial]⟩
  have lineFeed : Trivia options.comments ('\n' :: second.toList) second.toList :=
    .blank (by decide) .none
  rw [read_eq_resume, read_eq_resume, derived.resume_eq .initial rfl, added, Error.ok_bind,
    lineFeed.resume_eq]
  apply Alike.bind (alike_resume options .initial second.toList)
  rintro left right rfl
  have finished := @State.alike_finish nodes.reverse (first ++ "\n" ++ second).toList
    second.toList right
  rwa [List.reverse_reverse] at finished

end Reader

/-! ## Evaluation -/

namespace Node

theorem evalProgram_append (scope : Scope) (last : Value) (first second : List Node) :
    evalProgram scope last (first ++ second) = (do
      let value ← evalProgram scope last first
      evalProgram scope value second) := by
  induction first generalizing last with
  | nil => simp only [List.nil_append, evalProgram, pure_bind]
  | cons node first ih => simp only [List.cons_append, evalProgram, ih, bind_assoc]

/-- The value to start with counts only if there are no expressions. -/
theorem evalProgram_of_ne_nil {nodes : List Node} (nonempty : nodes ≠ []) (scope : Scope)
    (last other : Value) : evalProgram scope last nodes = evalProgram scope other nodes := by
  cases nodes with
  | nil => exact absurd rfl nonempty
  | cons node nodes => simp only [evalProgram]

end Node

namespace Outcome

/-- Evaluates expressions with a meter that has counted operations already. -/
def ofNodesFrom (charged : UInt64) (scope : Scope) (limit : Option UInt64) (nodes : List Node)
    (clock : Clock) : Outcome :=
  let (result, machine) := (Node.evalProgram scope .nil nodes).run ⟨⟨charged, limit⟩, clock⟩
  ⟨result, machine.meter.count, machine.clock⟩

theorem ofNodes_append {second : List Node} (nonempty : second ≠ []) {scope : Scope}
    {limit : Option UInt64} {first : List Node} {clock : Clock} {value : Value}
    (succeeded : (ofNodes scope limit first clock).result = .ok value) :
    ofNodes scope limit (first ++ second) clock =
      ofNodesFrom (ofNodes scope limit first clock).charged scope limit second
        (ofNodes scope limit first clock).clock := by
  have kept := (Node.metered_evalProgram scope .nil first).limit_eq ⟨Meter.ofLimit limit, clock⟩
  simp only [ofNodes] at succeeded ⊢
  rcases ended : (Node.evalProgram scope .nil first).run ⟨Meter.ofLimit limit, clock⟩ with
    ⟨result, ⟨⟨charged, budget⟩, after⟩⟩
  simp only [ended] at succeeded kept ⊢
  obtain rfl : result = .ok value := succeeded
  obtain rfl : budget = limit := kept
  rw [Node.evalProgram_append, Evaluation.run_bind_ok ended,
    Node.evalProgram_of_ne_nil nonempty scope value .nil]
  rfl

end Outcome

/--
After a text that was read, a text on the next line is read to the program that it is read to alone,
and fails with the error that it fails with alone, up to the piece of text that the error shows. The
joined program is evaluated by evaluating the second program from the clock and the count that the
first one leaves.
-/
theorem Reader.read_append_line {options : Options} {first : String} {firstNodes : List Node}
    (accepted : read options first = .ok firstNodes) (second : String) :
    (∀ secondNodes, read options (first ++ "\n" ++ second) = .ok (firstNodes ++ secondNodes) ↔
      read options second = .ok secondNodes) ∧
    (∀ error, read options second = .error error →
      ∃ raised, read options (first ++ "\n" ++ second) = .error raised ∧
        raised.withoutContext = error.withoutContext) ∧
    ∀ (secondNodes : List Node) (scope : Scope) (limit : Option UInt64) (clock : Clock)
      (value : Value), secondNodes ≠ [] →
        (Outcome.ofNodes scope limit firstNodes clock).result = .ok value →
          Outcome.ofNodes scope limit (firstNodes ++ secondNodes) clock =
            Outcome.ofNodesFrom (Outcome.ofNodes scope limit firstNodes clock).charged scope limit
              secondNodes (Outcome.ofNodes scope limit firstNodes clock).clock := by
  have alike := alike_read_line accepted second
  refine ⟨?_, ?_, ?_⟩
  · intro secondNodes
    generalize read options (first ++ "\n" ++ second) = joined at alike ⊢
    generalize read options second = alone at alike ⊢
    cases alike with
    | ok values => simp [values]
    | error same => simp
  · intro error failed
    rw [failed] at alike
    generalize read options (first ++ "\n" ++ second) = joined at alike ⊢
    cases alike with
    | error same => exact ⟨_, rfl, same⟩
  · intro secondNodes scope limit clock value nonempty succeeded
    exact Outcome.ofNodes_append nonempty succeeded

/--
A comment at the end of the first text ends with its line: `z` on the next line is read, and a
closing parenthesis there is refused as it is alone.
-/
theorem Reader.read_append_line_comment :
    let options : Options := ⟨true, 32⟩
    let scope : Scope := ⟨fun _ _ => .ofResult (.ok .nil),
      (Environment.empty.define "x" (.int 1)).define "z" (.int 2)⟩
    read options "x ;y" = .ok [.symbol "x"] ∧ read options "z" = .ok [.symbol "z"] ∧
      read options "x ;y\nz" = .ok [.symbol "x", .symbol "z"] ∧
      (∃ error raised, read options ")" = .error error ∧
        read options "x ;y\n)" = .error raised ∧
        raised.withoutContext = error.withoutContext) ∧
      (Outcome.ofNodes scope (some 0) [.symbol "x", .symbol "z"] (.still .epoch)).result =
        .ok (.int 2) := by
  intro options scope
  have accepted : read options "x ;y" = .ok [.symbol "x"] := by
    apply Sequence.read_eq
    refine .single .none (@Single.word _ "x".toList _ _ (by decide) (by decide)
      (undelimited_of_all rfl) (bounded_cons isDelimiter_space) (word_of_denotes (.symbol _))) ?_
    exact .done (.blank (by decide) (@Trivia.comment _ "y".toList [] _ rfl (by decide) (by simp)
      .none))
  have alone : read options "z" = .ok [.symbol "z"] := read_eq_of_display rfl rfl
  have refused : read options ")" = .error (Fault.unmatchedClosing.toError [')'] [')']) := by
    have resumed := @resume_closing options [')'] .initial []
    simp only [read_eq_resume]
    exact congrArg (· >>= State.finish [')']) resumed
  refine ⟨accepted, alone, ?_, ?_, ?_⟩
  · exact ((read_append_line accepted "z").1 [.symbol "z"]).mpr alone
  · rcases (read_append_line accepted ")").2.1 _ refused with ⟨raised, failed, same⟩
    exact ⟨_, raised, refused, failed, same⟩
  · have continued := (read_append_line accepted "z").2.2 [.symbol "z"] scope (some 0)
      (.still .epoch) (.int 1) (by simp) rfl
    simp only [List.singleton_append] at continued
    rw [continued]
    rfl

end MeteredRules
