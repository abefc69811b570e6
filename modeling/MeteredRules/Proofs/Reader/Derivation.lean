import MeteredRules.Proofs.Conformance
import MeteredRules.Proofs.Node.Induction
import MeteredRules.Proofs.Reader.Scan

/-!
# Reading is deriving

A text is read to a program exactly if the grammar derives the program from it. Both directions
follow the tokens: reading on from a state adds the expressions of a derived sequence one after the
other, and whatever is read on without an error was such a sequence, up to the closing parenthesis
of the innermost open form or to the end.

The reader checks arities on complete expressions, the grammar on each form. So a sequence that was
read is derived under the condition that its arities are accepted, and the check discharges that
condition at the outermost level.
-/

namespace MeteredRules

/-! ## Forms and arities -/

namespace Node

theorem checkAllArities_cons {node : Node} {nodes : List Node} :
    checkAllArities (node :: nodes) = .ok () ↔
      node.checkArities = .ok () ∧ checkAllArities nodes = .ok () := by
  rw [checkAllArities, Error.bind_eq_ok_iff]
  constructor
  · rintro ⟨_, first, rest⟩
    exact ⟨first, rest⟩
  · rintro ⟨first, rest⟩
    exact ⟨(), first, rest⟩

theorem checkArities_special {operation : Operation} {arguments : List Node} :
    (Node.special operation arguments).checkArities = .ok () ↔
      operation.arity.accepts arguments.length = true ∧ checkAllArities arguments = .ok () := by
  rw [checkArities]
  split
  · rename_i accepted
    simp [accepted]
  · rename_i refused
    simp [refused]

variable {tolerated : Error → Prop}

theorem conforms_checkAllArities {nodes : List Node}
    (parts : ∀ node ∈ nodes, Conforms (fun _ => True) tolerated node.checkArities) :
    Conforms (fun _ => True) tolerated (checkAllArities nodes) := by
  induction nodes with
  | nil => trivial
  | cons node nodes ih =>
      simp only [List.forall_mem_cons] at parts
      simp only [checkAllArities]
      apply Conforms.bind parts.1
      intro _ _
      exact ih parts.2

/-- The check of arities fails with refused arities only. -/
theorem conforms_checkArities
    (arity : ∀ expected got expression, tolerated (.arity expected got expression)) (node : Node) :
    Conforms (fun _ => True) tolerated node.checkArities := by
  induction node using Node.induction with
  | atom value => trivial
  | symbol name => trivial
  | form elements parts =>
      simp only [checkArities]
      exact conforms_checkAllArities parts
  | special operation arguments parts =>
      simp only [checkArities]
      split
      · exact conforms_checkAllArities parts
      · exact arity _ _ _

end Node

theorem SpecialForm.ofName?_name (form : SpecialForm) : ofName? form.name = some form := by
  cases form <;> rfl

theorem SpecialForm.name_of_ofName? {name : String} {form : SpecialForm}
    (found : ofName? name = some form) : form.name = name := by
  simpa using List.find?_some found

namespace Reader

/-- The expression of a form depends on whether its head is the name of a special form. -/
theorem ofElements_cases (head : Node) (arguments : List Node) :
    (∃ form : SpecialForm, head = .symbol form.name ∧
      Node.ofElements (head :: arguments) = .special (.form form) arguments) ∨
    ((∀ form : SpecialForm, head ≠ .symbol form.name) ∧
      Node.ofElements (head :: arguments) = .form (head :: arguments)) := by
  cases head with
  | symbol name =>
      rw [Node.ofElements]
      rcases found : SpecialForm.ofName? name with _ | form
      · right
        refine ⟨?_, rfl⟩
        intro form equal
        cases equal
        simp [form.ofName?_name] at found
      · left
        exact ⟨form, by rw [SpecialForm.name_of_ofName? found], rfl⟩
  | _ =>
      right
      refine ⟨?_, rfl⟩
      intro form equal
      cases equal

theorem Formed.ofElements_eq {elements : List Node} {node : Node} (formed : Formed elements node) :
    Node.ofElements elements = node := by
  cases formed with
  | @special form arguments accepted => simp [Node.ofElements, form.ofName?_name]
  | @call head arguments notSpecial =>
      rcases ofElements_cases head arguments with ⟨form, isSpecial, _⟩ | ⟨_, equal⟩
      · exact absurd isSpecial (notSpecial form)
      · exact equal

/-- A form with a head is formed if its arities are accepted, and then those of its elements are. -/
theorem formed_ofElements {elements : List Node} (nonempty : elements ≠ [])
    (checked : (Node.ofElements elements).checkArities = .ok ()) :
    Formed elements (Node.ofElements elements) ∧ Node.checkAllArities elements = .ok () := by
  cases elements with
  | nil => exact absurd rfl nonempty
  | cons head arguments =>
      rcases ofElements_cases head arguments with ⟨form, rfl, equal⟩ | ⟨notSpecial, equal⟩
      · rw [equal, Node.checkArities_special] at checked
        rw [equal]
        exact ⟨.special checked.1,
          Node.checkAllArities_cons.mpr ⟨by rw [Node.checkArities], checked.2⟩⟩
      · rw [equal, Node.checkArities] at checked
        rw [equal]
        exact ⟨.call notSpecial, checked⟩

theorem Formed.checkArities {elements : List Node} {node : Node} (formed : Formed elements node)
    (checked : Node.checkAllArities elements = .ok ()) : node.checkArities = .ok () := by
  cases formed with
  | special accepted =>
      rw [Node.checkArities_special]
      exact ⟨accepted, (Node.checkAllArities_cons.mp checked).2⟩
  | call notSpecial =>
      rw [Node.checkArities]
      exact checked

theorem Formed.ne_nil {elements : List Node} {node : Node} (formed : Formed elements node) :
    elements ≠ [] := by
  cases formed <;> exact List.cons_ne_nil _ _

theorem Single.ne_nil {comments : Bool} {text rest : List Char} {node : Node}
    (single : Single comments text node rest) : text ≠ [] := by
  cases single with
  | string | instant => exact List.cons_ne_nil _ _
  | word nonempty => simp [nonempty]

theorem Single.checkArities {comments : Bool} {text rest : List Char} {node : Node}
    (single : Single comments text node rest) : node.checkArities = .ok () := by
  cases single with
  | string | instant => rw [Node.checkArities]
  | word _ _ _ _ means => cases means <;> rw [Node.checkArities]

theorem Sequence.checkAllArities {options : Options} {depth : Nat} {text rest : List Char}
    {nodes : List Node} (derived : Sequence options depth text nodes rest) :
    Node.checkAllArities nodes = .ok () := by
  induction derived with
  | done => rw [Node.checkAllArities]
  | single _ item _ ih => exact Node.checkAllArities_cons.mpr ⟨item.checkArities, ih⟩
  | form _ _ _ formed _ ihContent ihMore =>
      exact Node.checkAllArities_cons.mpr ⟨formed.checkArities ihContent, ihMore⟩

/-! ## Reading on from a state -/

/-- Reads a text on from a state. -/
def resume (options : Options) (source : List Char) (state : State) (text : List Char) :
    Except Error State :=
  (scan options.comments text).foldlM (State.step options.maxDepth source) state

/-- Adds expressions one after the other. -/
def State.addAll (state : State) (nodes : List Node) : Except Error State :=
  nodes.foldlM State.add state

theorem read_eq_resume (options : Options) (source : String) :
    read options source =
      resume options source.toList .initial source.toList >>= State.finish source.toList :=
  rfl

variable {options : Options} {source : List Char}

theorem Trivia.resume_eq {text rest : List Char} (trivia : Trivia options.comments text rest)
    (state : State) : resume options source state text = resume options source state rest := by
  rw [resume, trivia.scan_eq, resume]

theorem resume_nil (state : State) : resume options source state [] = .ok state := by
  rw [resume, scan_of_skipTrivia_nil skipTrivia_nil]
  rfl

theorem resume_cons {first : Char} {rest : List Char}
    (significant : Significant options.comments (first :: rest)) (state : State) :
    resume options source state (first :: rest) = (do
      let next ← state.step options.maxDepth source
        ⟨(Token.next options.comments first rest).1, first :: rest⟩
      resume options source next (Token.next options.comments first rest).2) := by
  rw [resume, scan_of_skipTrivia_cons (skipTrivia_of_significant significant), List.foldlM_cons]
  rfl

theorem Single.resume_eq {text rest : List Char} {node : Node}
    (single : Single options.comments text node rest) (state : State) :
    resume options source state text = (do
      let next ← state.add node
      resume options source next rest) := by
  cases text with
  | nil => exact absurd rfl single.ne_nil
  | cons first text =>
      rcases single.next with ⟨token, denotes, read⟩
      rw [resume_cons single.significant, read]
      cases denotes <;> rfl

theorem resume_opening (state : State) (inner : List Char) :
    resume options source state ('(' :: inner) =
      if state.stack.length < options.maxDepth then
        resume options source { state with stack := ⟨'(' :: inner, []⟩ :: state.stack } inner
      else .error ((Fault.tooDeeplyNested options.maxDepth).toError source ('(' :: inner)) := by
  have significant : Significant options.comments ('(' :: inner) := by
    intro first head
    obtain rfl : '(' = first := by simpa using head
    exact ⟨by decide, by simp⟩
  rw [resume_cons significant]
  simp only [Token.next, State.step]
  split
  · rfl
  · rfl

theorem resume_closing (state : State) (rest : List Char) :
    resume options source state (')' :: rest) = (do
      let next ← state.close source (')' :: rest)
      resume options source next rest) := by
  have significant : Significant options.comments (')' :: rest) := by
    intro first head
    obtain rfl : ')' = first := by simpa using head
    exact ⟨by decide, by simp⟩
  rw [resume_cons significant]
  rfl

/-! ## Adding expressions -/

namespace State

theorem addAll_cons (state : State) (node : Node) (nodes : List Node) :
    state.addAll (node :: nodes) = (do
      let next ← state.add node
      next.addAll nodes) := by
  rw [addAll, List.foldlM_cons]
  rfl

/-- Outside of all forms, an expression is added as soon as its arities are accepted. -/
theorem add_of_stack_nil {state next : State} {node : Node} (stack : state.stack = []) :
    state.add node = .ok next ↔
      node.checkArities = .ok () ∧ next = ⟨[], node :: state.complete⟩ := by
  rcases state with ⟨_, complete⟩
  obtain rfl := stack
  simp only [add]
  rw [Error.bind_eq_ok_iff]
  constructor
  · rintro ⟨_, checked, same⟩
    exact ⟨checked, (Except.ok.inj same).symm⟩
  · rintro ⟨checked, rfl⟩
    exact ⟨(), checked, rfl⟩

theorem add_of_stack_cons {state : State} {frame : Frame} {frames : List Frame}
    (stack : state.stack = frame :: frames) (node : Node) :
    state.add node =
      .ok { state with stack := { frame with elements := node :: frame.elements } :: frames } := by
  rw [add, stack]

theorem length_stack_add {state next : State} {node : Node} (added : state.add node = .ok next) :
    next.stack.length = state.stack.length := by
  rcases stack : state.stack with _ | ⟨frame, frames⟩
  · rw [((add_of_stack_nil stack).mp added).2]
  · rw [add_of_stack_cons stack] at added
    cases added
    rfl

theorem addAll_of_stack_cons {frame : Frame} {frames : List Frame} {complete : List Node}
    (nodes : List Node) :
    addAll ⟨frame :: frames, complete⟩ nodes =
      .ok ⟨{ frame with elements := nodes.reverse ++ frame.elements } :: frames, complete⟩ := by
  induction nodes generalizing frame with
  | nil => rfl
  | cons node nodes ih =>
      rw [addAll_cons, add_of_stack_cons rfl, Error.ok_bind, ih]
      simp

/-- Outside of all forms, expressions are added if all their arities are accepted. -/
theorem addAll_of_stack_nil {complete nodes : List Node} {next : State} :
    addAll ⟨[], complete⟩ nodes = .ok next ↔
      Node.checkAllArities nodes = .ok () ∧ next = ⟨[], nodes.reverse ++ complete⟩ := by
  induction nodes generalizing complete with
  | nil =>
      rw [Node.checkAllArities]
      simp [addAll, pure, Except.pure, eq_comm]
  | cons node nodes ih =>
      rw [addAll_cons, Error.bind_eq_ok_iff, Node.checkAllArities_cons]
      constructor
      · rintro ⟨middle, added, rest⟩
        rcases (add_of_stack_nil rfl).mp added with ⟨checked, rfl⟩
        rcases ih.mp rest with ⟨allChecked, rfl⟩
        exact ⟨⟨checked, allChecked⟩, by simp⟩
      · rintro ⟨⟨checked, allChecked⟩, rfl⟩
        exact ⟨_, (add_of_stack_nil rfl).mpr ⟨checked, rfl⟩, ih.mpr ⟨allChecked, by simp⟩⟩

/-- Closing a form adds the expression of its elements to what is around it. -/
theorem close_of_stack_cons {frame : Frame} {frames : List Frame} {complete : List Node}
    (nonempty : frame.elements ≠ []) (text : List Char) :
    close ⟨frame :: frames, complete⟩ source text =
      add ⟨frames, complete⟩ (Node.ofElements frame.elements.reverse) := by
  have filled : frame.elements.isEmpty = false := by simpa using nonempty
  simp [close, filled]

end State

/-! ## Both directions -/

/-- Reading a derived sequence adds its expressions one after the other. -/
theorem Sequence.resume_eq {depth : Nat} {text rest : List Char} {nodes : List Node}
    (derived : Sequence options depth text nodes rest) :
    ∀ state : State, state.stack.length = depth →
      resume options source state text = (do
        let next ← state.addAll nodes
        resume options source next rest) := by
  induction derived with
  | done trivia =>
      intro state _
      exact trivia.resume_eq state
  | @single depth text start middle rest node nodes trivia item _ ih =>
      intro state stack_length
      rw [trivia.resume_eq, item.resume_eq, State.addAll_cons]
      rcases added : state.add node with error | next
      · rfl
      · exact ih next ((State.length_stack_add added).trans stack_length)
  | @form depth text inner middle rest elements nodes node trivia shallow _ formed _
      ihContent ihMore =>
      rintro ⟨stack, complete⟩ stack_length
      dsimp only at stack_length
      have nonempty : elements.reverse ≠ [] := by simpa using formed.ne_nil
      rw [trivia.resume_eq, resume_opening, if_pos (by rwa [stack_length]),
        ihContent _ (by simp [stack_length]), State.addAll_of_stack_cons, Error.ok_bind,
        resume_closing, State.close_of_stack_cons (by simpa using nonempty)]
      simp only [List.append_nil, List.reverse_reverse]
      rw [formed.ofElements_eq, State.addAll_cons]
      rcases added : State.add ⟨stack, complete⟩ node with error | next
      · rfl
      · exact ihMore next ((State.length_stack_add added).trans stack_length)

/--
The beginning of a text that is read from a state up to a final one: complete expressions up to a
closing parenthesis or to the end. They are derived if the arities in them are accepted.
-/
structure Beginning (options : Options) (source : List Char) (state : State) (text : List Char)
    (final : State) where
  nodes : List Node
  rest : List Char
  next : State
  added : state.addAll nodes = .ok next
  resumed : resume options source next rest = .ok final
  ended : rest = [] ∨ ∃ after, rest = ')' :: after
  length_le : rest.length ≤ text.length
  derived : Node.checkAllArities nodes = .ok () →
    Sequence options state.stack.length text nodes rest

namespace Beginning

variable {state next final : State} {text start middle : List Char} {node : Node}

/-- A single item in front of the beginning of what follows it. -/
def single (trivia : Trivia options.comments text start)
    (item : Single options.comments start node middle) (shorter : middle.length ≤ text.length)
    (added : state.add node = .ok next) (more : Beginning options source next middle final) :
    Beginning options source state text final where
  nodes := node :: more.nodes
  rest := more.rest
  next := more.next
  added := by rw [State.addAll_cons, added, Error.ok_bind, more.added]
  resumed := more.resumed
  ended := more.ended
  length_le := Nat.le_trans more.length_le shorter
  derived checked := by
    have derived := more.derived (Node.checkAllArities_cons.mp checked).2
    rw [State.length_stack_add added] at derived
    exact .single trivia item derived

/-- A closed form in front of the beginning of what follows it. -/
def form {inner after : List Char} {elements : List Node}
    (trivia : Trivia options.comments text ('(' :: inner))
    (shallow : state.stack.length < options.maxDepth) (nonempty : elements ≠ [])
    (content : Node.checkAllArities elements = .ok () →
      Sequence options (state.stack.length + 1) inner elements (')' :: after))
    (shorter : after.length ≤ text.length)
    (added : state.add (Node.ofElements elements) = .ok next)
    (more : Beginning options source next after final) :
    Beginning options source state text final where
  nodes := Node.ofElements elements :: more.nodes
  rest := more.rest
  next := more.next
  added := by rw [State.addAll_cons, added, Error.ok_bind, more.added]
  resumed := more.resumed
  ended := more.ended
  length_le := Nat.le_trans more.length_le shorter
  derived checked := by
    have ⟨formChecked, moreChecked⟩ := Node.checkAllArities_cons.mp checked
    have ⟨formed, elementsChecked⟩ := formed_ofElements nonempty formChecked
    have derived := more.derived moreChecked
    rw [State.length_stack_add added] at derived
    exact .form trivia shallow (content elementsChecked) formed derived

/-- Nothing but trivia before the end or a closing parenthesis. -/
def stop {rest : List Char} (trivia : Trivia options.comments text rest)
    (resumed : resume options source state rest = .ok final)
    (ended : rest = [] ∨ ∃ after, rest = ')' :: after) (shorter : rest.length ≤ text.length) :
    Beginning options source state text final where
  nodes := []
  rest := rest
  next := state
  added := rfl
  resumed := resumed
  ended := ended
  length_le := shorter
  derived _ := .done trivia

end Beginning

/-- A form whose text is read up to a state without open forms has been closed. -/
theorem Beginning.exists_closed {opening inner : List Char} {frames : List Frame}
    {complete : List Node} {final : State} (closed : final.stack = [])
    (content : Beginning options source ⟨⟨opening, []⟩ :: frames, complete⟩ inner final) :
    ∃ after next, content.rest = ')' :: after ∧ content.nodes ≠ [] ∧
      State.add ⟨frames, complete⟩ (Node.ofElements content.nodes) = .ok next ∧
      resume options source next after = .ok final := by
  have added := content.added
  have resumed := content.resumed
  rw [State.addAll_of_stack_cons] at added
  rw [← Except.ok.inj added] at resumed
  rcases content.ended with atEnd | ⟨after, atClosing⟩
  · rw [atEnd, resume_nil] at resumed
    rw [← Except.ok.inj resumed] at closed
    simp at closed
  · rw [atClosing, resume_closing] at resumed
    have nonempty : content.nodes ≠ [] := by
      intro empty
      simp [empty, State.close] at resumed
    rw [State.close_of_stack_cons (by simpa using nonempty)] at resumed
    simp only [List.append_nil, List.reverse_reverse] at resumed
    rcases Error.bind_eq_ok_iff.mp resumed with ⟨next, formAdded, resumed⟩
    exact ⟨after, next, atClosing, nonempty, formAdded, resumed⟩

/-- Whatever is read up to a state without open forms has such a beginning. -/
theorem nonempty_beginning {text : List Char} {state final : State}
    (read : resume options source state text = .ok final) (closed : final.stack = []) :
    Nonempty (Beginning options source state text final) := by
  have trivia : Trivia options.comments text _ := trivia_skipTrivia text
  have significant : Significant options.comments _ := significant_skipTrivia text
  have skipped_le := length_skipTrivia_le options.comments text
  rw [trivia.resume_eq] at read
  generalize skipTrivia options.comments text = start at trivia significant skipped_le read
  rcases start with _ | ⟨first, after⟩
  · exact ⟨.stop trivia read (.inl rfl) skipped_le⟩
  have after_lt : after.length < text.length := skipped_le
  by_cases isOpening : first = '('
  · subst isOpening
    rw [resume_opening] at read
    split at read
    · rename_i shallow
      rcases nonempty_beginning read closed with ⟨content⟩
      rcases content.exists_closed closed with ⟨behind, next, rest_eq, nonempty, added, resumed⟩
      have shorter : behind.length < text.length := by
        have behind_le := content.length_le
        rw [rest_eq, List.length_cons] at behind_le
        omega
      rcases nonempty_beginning resumed closed with ⟨more⟩
      have derived := content.derived
      rw [rest_eq] at derived
      exact ⟨.form trivia shallow nonempty derived (Nat.le_of_lt shorter) added more⟩
    · simp at read
  by_cases isClosing : first = ')'
  · subst isClosing
    exact ⟨.stop trivia read (.inr ⟨after, rfl⟩) skipped_le⟩
  · rw [resume_cons significant] at read
    rcases Error.bind_eq_ok_iff.mp read with ⟨next, stepped, resumed⟩
    have shorter : (Token.next options.comments first after).2.length < text.length := by
      have taken_le := Token.length_next_le options.comments first after
      omega
    rcases nonempty_beginning resumed closed with ⟨more⟩
    rcases next_cases isOpening isClosing with ⟨node, denotes⟩ | ⟨fault, isFault⟩
    · have item : Single options.comments (first :: after) node
          (Token.next options.comments first after).2 :=
        single_of_next significant denotes rfl
      refine ⟨.single trivia item (Nat.le_of_lt shorter) ?_ more⟩
      generalize (Token.next options.comments first after).1 = token at denotes stepped
      cases denotes <;> exact stepped
    · rw [isFault] at stepped
      simp [State.step] at stepped
termination_by text.length

theorem State.finish_eq_ok_iff {state : State} {nodes : List Node} :
    state.finish source = .ok nodes ↔ state = ⟨[], nodes.reverse⟩ := by
  rcases state with ⟨stack, complete⟩
  cases stack with
  | nil => simp [finish, List.reverse_eq_iff]
  | cons frame frames => simp [finish]

/-- What is read is derived. -/
theorem sequence_of_read {source : String} {nodes : List Node}
    (accepted : read options source = .ok nodes) :
    Sequence options 0 source.toList nodes [] := by
  rw [read_eq_resume] at accepted
  rcases Error.bind_eq_ok_iff.mp accepted with ⟨final, resumed, finished⟩
  obtain rfl := State.finish_eq_ok_iff.mp finished
  rcases nonempty_beginning resumed rfl with ⟨beginning⟩
  rcases State.addAll_of_stack_nil.mp beginning.added with ⟨checked, next_eq⟩
  have derived := beginning.derived checked
  have rest := beginning.resumed
  rw [next_eq] at rest
  rcases beginning.ended with atEnd | ⟨after, atClosing⟩
  · rw [atEnd, resume_nil] at rest
    have same : beginning.nodes = nodes := by simpa using rest
    rwa [atEnd, same] at derived
  · rw [atClosing, resume_closing] at rest
    simp [State.close] at rest

/-- What is derived is read. -/
theorem Sequence.read_eq {source : String} {nodes : List Node}
    (derived : Sequence options 0 source.toList nodes []) : read options source = .ok nodes := by
  have added : State.initial.addAll nodes = .ok ⟨[], nodes.reverse⟩ :=
    State.addAll_of_stack_nil.mpr ⟨derived.checkAllArities, by simp⟩
  rw [read_eq_resume, derived.resume_eq .initial rfl, added, Error.ok_bind, resume_nil,
    Error.ok_bind]
  exact State.finish_eq_ok_iff.mpr rfl

/--
A source text is read to a program exactly if the grammar derives the program from the text: as a
sequence of expressions outside of all forms, with nothing after it.
-/
theorem read_eq_ok_iff (options : Options) (source : String) (nodes : List Node) :
    read options source = .ok nodes ↔ Sequence options 0 source.toList nodes [] :=
  ⟨sequence_of_read, Sequence.read_eq⟩

end Reader

end MeteredRules
