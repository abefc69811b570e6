import MeteredRules.Proofs.Reader.Spelling

/-!
# The depth limit

How deep forms may be nested is checked when a form is opened; how deep they are nested is seen when
the program is complete. The two agree: a text that is read under some limit is read to the same
program under every limit that is not less than the depth of this program, and under a smaller limit
it fails because of its depth. What stands before the form that is too deep was read without an
error, so that no other error can come first.
-/

namespace MeteredRules

namespace Node

mutual

/-- How deep the forms of an expression are nested, special forms included. -/
def depth : Node → Nat
  | .atom _ | .symbol _ => 0
  | .form elements => greatestDepth elements + 1
  | .special _ arguments => greatestDepth arguments + 1

/-- The greatest depth of a list of expressions. -/
def greatestDepth : List Node → Nat
  | [] => 0
  | node :: nodes => max node.depth (greatestDepth nodes)

end

end Node

namespace Reader

variable {options : Options} {source : List Char} {depth limit : Nat} {text rest : List Char}
  {nodes : List Node}

/-- The same options with another limit on the depth of forms. -/
def Options.limited (options : Options) (limit : Nat) : Options :=
  { options with maxDepth := limit }

theorem Single.depth_eq_zero {comments : Bool} {node : Node}
    (single : Single comments text node rest) : node.depth = 0 := by
  cases single with
  | string | instant => rfl
  | word _ _ _ _ means => cases means <;> rfl

theorem Formed.depth_eq {elements : List Node} {node : Node} (formed : Formed elements node) :
    node.depth = Node.greatestDepth elements + 1 := by
  cases formed with
  | special accepted => simp [Node.depth, Node.greatestDepth]
  | call notSpecial => simp [Node.depth]

/-- Forms are opened within the limit, so that they end up no deeper than it. -/
theorem Sequence.depth_le (derived : Sequence options depth text nodes rest)
    (nested : 0 < Node.greatestDepth nodes) :
    depth + Node.greatestDepth nodes ≤ options.maxDepth := by
  induction derived with
  | done => simp [Node.greatestDepth] at nested
  | single _ item _ ih =>
      simp only [Node.greatestDepth, item.depth_eq_zero, Nat.zero_max] at nested ⊢
      exact ih nested
  | form _ shallow _ formed _ ihContent ihMore =>
      simp only [Node.greatestDepth, formed.depth_eq]
      omega

/-- A limit that is not exceeded by what was derived does not matter. -/
theorem Sequence.limited (derived : Sequence options depth text nodes rest)
    (within : depth + Node.greatestDepth nodes ≤ limit) :
    Sequence (options.limited limit) depth text nodes rest := by
  induction derived with
  | done trivia => exact .done trivia
  | single trivia item _ ih =>
      simp only [Node.greatestDepth] at within
      exact .single trivia item (ih (by omega))
  | @form depth _ _ _ _ _ _ _ trivia _ _ formed _ ihContent ihMore =>
      simp only [Node.greatestDepth, formed.depth_eq] at within
      have shallow : depth < (options.limited limit).maxDepth := by
        simp only [Options.limited]
        omega
      exact .form trivia shallow (ihContent (by omega)) formed (ihMore (by omega))

/-- Adding an expression succeeds if its arities are accepted, wherever it stands. -/
theorem State.exists_add {node : Node} (checked : node.checkArities = .ok ()) (state : State) :
    ∃ next, state.add node = .ok next ∧ next.stack.length = state.stack.length := by
  rcases stack : state.stack with _ | ⟨frame, frames⟩
  · have added := (State.add_of_stack_nil stack).mpr ⟨checked, rfl⟩
    exact ⟨_, added, by simp⟩
  · exact ⟨_, State.add_of_stack_cons stack node, by simp⟩

/--
Under a limit that is exceeded by what was derived, reading fails at the first form that is opened
too deep.
-/
theorem Sequence.exists_tooDeeplyNested (derived : Sequence options depth text nodes rest) :
    ∀ state : State, state.stack.length = depth → depth ≤ limit →
      limit < depth + Node.greatestDepth nodes →
        ∃ fault, resume (options.limited limit) source state text =
          .error ((Fault.tooDeeplyNested limit).toError source fault) := by
  induction derived with
  | done =>
      intro state _ within exceeded
      simp only [Node.greatestDepth] at exceeded
      omega
  | single trivia item more ih =>
      intro state stack_length within exceeded
      simp only [Node.greatestDepth, item.depth_eq_zero, Nat.zero_max] at exceeded
      have skipped : Trivia (options.limited limit).comments _ _ := trivia
      have taken : Single (options.limited limit).comments _ _ _ := item
      rcases State.exists_add item.checkArities state with ⟨next, added, next_length⟩
      rw [skipped.resume_eq, taken.resume_eq, added, Error.ok_bind]
      exact ih next (next_length.trans stack_length) within exceeded
  | @form depth text inner middle rest elements nodes node trivia _ content formed more
      ihContent ihMore =>
      intro state stack_length within exceeded
      have skipped : Trivia (options.limited limit).comments text ('(' :: inner) := trivia
      rw [skipped.resume_eq]
      by_cases shallow : depth < limit
      · simp only [Node.greatestDepth, formed.depth_eq] at exceeded
        by_cases deep : limit < depth + 1 + Node.greatestDepth elements
        · -- The form may be opened, and reading fails inside of it.
          have opened : state.stack.length < (options.limited limit).maxDepth := by
            rwa [stack_length]
          rw [resume_opening, if_pos opened]
          exact ihContent _ (by simp [stack_length]) shallow deep
        · -- The form is read as before, and reading fails behind it.
          have content : Sequence (options.limited limit) (depth + 1) inner elements _ :=
            content.limited (by omega)
          have read : Sequence (options.limited limit) depth ('(' :: inner) [node] middle :=
            .form .none shallow content formed (.done .none)
          have checked : node.checkArities = .ok () := formed.checkArities content.checkAllArities
          rcases State.exists_add checked state with ⟨next, added, next_length⟩
          have addedAll : state.addAll [node] = .ok next := by
            rw [State.addAll_cons, added, Error.ok_bind]
            rfl
          rw [read.resume_eq state stack_length, addedAll, Error.ok_bind]
          exact ihMore next (next_length.trans stack_length) within (by omega)
      · have closed : ¬state.stack.length < (options.limited limit).maxDepth := by
          rwa [stack_length]
        rw [resume_opening, if_neg closed]
        exact ⟨_, rfl⟩

/-- A program that was read is no deeper than the limit. -/
theorem greatestDepth_le_of_read {source : String} (accepted : read options source = .ok nodes) :
    Node.greatestDepth nodes ≤ options.maxDepth := by
  rcases Nat.eq_zero_or_pos (Node.greatestDepth nodes) with flat | nested
  · omega
  · have bounded := (sequence_of_read accepted).depth_le nested
    omega

/-- Under every limit that the depth of the program keeps to, it is read in the same way. -/
theorem read_limited_of_le {source : String} (accepted : read options source = .ok nodes)
    (within : Node.greatestDepth nodes ≤ limit) :
    read (options.limited limit) source = .ok nodes :=
  ((sequence_of_read accepted).limited (by omega)).read_eq

/-- Under every smaller limit the text is refused because of its depth. -/
theorem read_limited_of_lt {source : String} (accepted : read options source = .ok nodes)
    (exceeded : limit < Node.greatestDepth nodes) :
    ∃ error, read (options.limited limit) source = .error (.parse error) ∧
      error.kind = .tooDeeplyNested := by
  have derived := sequence_of_read accepted
  have refused : ∃ fault, resume (options.limited limit) source.toList .initial source.toList =
      .error ((Fault.tooDeeplyNested limit).toError source.toList fault) :=
    derived.exists_tooDeeplyNested .initial rfl (Nat.zero_le limit) (by omega)
  rcases refused with ⟨fault, failed⟩
  rw [read_eq_resume, failed]
  exact ⟨_, rfl, rfl⟩

/--
The limit on the depth of forms is exact. A program that was read under some limit is no deeper than
this limit; under every other limit the same text is read to the same program if the limit is not
less than the depth of the program, and is refused as too deeply nested if it is.
-/
theorem read_limit_cases {comments : Bool} {maxDepth : Nat} {source : String} {nodes : List Node}
    (accepted : read ⟨comments, maxDepth⟩ source = .ok nodes) :
    Node.greatestDepth nodes ≤ maxDepth ∧
    ∀ limit,
      (Node.greatestDepth nodes ≤ limit → read ⟨comments, limit⟩ source = .ok nodes) ∧
      (limit < Node.greatestDepth nodes →
        ∃ error, read ⟨comments, limit⟩ source = .error (.parse error) ∧
          error.kind = .tooDeeplyNested) := by
  refine ⟨greatestDepth_le_of_read accepted, ?_⟩
  intro limit
  exact ⟨read_limited_of_le accepted, read_limited_of_lt accepted⟩

/-- The text `(x (y))` is read under a limit of two, and under no smaller one. -/
theorem read_limit_cases_two :
    let source := "(x (y))"
    let program := [Node.form [.symbol "x", .form [.symbol "y"]]]
    read ⟨false, 32⟩ source = .ok program ∧ Node.greatestDepth program = 2 ∧
      read ⟨false, 2⟩ source = .ok program ∧
      ∃ error, read ⟨false, 1⟩ source = .error (.parse error) ∧
        error.kind = .tooDeeplyNested := by
  intro source program
  have accepted : read ⟨false, 32⟩ source = .ok program := read_eq_of_display rfl rfl
  have exactly := (read_limit_cases accepted).2
  exact ⟨accepted, rfl, (exactly 2).1 (by decide), (exactly 1).2 (by decide)⟩

end Reader

end MeteredRules
