import MeteredRules.Proofs.Node.Induction
import MeteredRules.Proofs.Reader.RoundTrip

/-!
# Calls of names

The display of a call is read as this call: its head is a name that is no special form, and its
arguments are spelled by their displays. For expressions without literals, whether they are read
back from their displays is decided by looking at their names and at the shape of their forms.
-/

namespace MeteredRules.Reader

variable {options : Options} {depth : Nat}

/-- An expression that is spelled by its display is read from it. -/
theorem Spells.read_eq {node : Node} (spelled : Spells options 0 node.display.toList node) :
    read options node.display = .ok [node] := by
  apply Sequence.read_eq
  have derived := spelled bounded_nil (.done .none)
  rwa [List.append_nil] at derived

/-- A word that is no other token is spelled by itself. -/
theorem spells_name {name : String} (nonempty : name.toList ≠ [])
    (noHash : name.toList.head? ≠ some '#')
    (undelimited : Undelimited options.comments name.toList)
    (isName : Token.ofWord name.toList = .symbol name) :
    Spells options depth (Node.symbol name).display.toList (.symbol name) := by
  have means : Word name.toList (.symbol name) := by
    apply word_of_denotes
    rw [isName]
    exact .symbol name
  have single : Single options.comments (name.toList ++ []) (.symbol name) [] :=
    .word nonempty noHash undelimited bounded_nil means
  rw [List.append_nil] at single
  rw [Node.display]
  exact single.spells

theorem spells_call {name : String} {arguments : List Node}
    (unreserved : SpecialForm.ofName? name = none) (shallow : depth < options.maxDepth)
    (head : Spells options (depth + 1) (Node.symbol name).display.toList (.symbol name))
    (spelled : ∀ argument ∈ arguments,
      Spells options (depth + 1) argument.display.toList argument) :
    Spells options depth (Node.form (.symbol name :: arguments)).display.toList
      (.form (.symbol name :: arguments)) := by
  have formed : Formed (.symbol name :: arguments) (.form (.symbol name :: arguments)) := by
    apply Formed.call
    intro form isReserved
    obtain rfl := Node.symbol.inj isReserved
    simp [form.ofName?_name] at unreserved
  apply formed.spells_display shallow
  simp only [List.forall_mem_cons]
  exact ⟨head, spelled⟩

/-! ## Expressions without literals -/

/-- Whether a word is read as a name. -/
def isName (comments : Bool) (name : String) : Bool :=
  name.toList != [] && name.toList.head? != some '#' &&
    name.toList.all (fun character => !isDelimiter comments character) &&
      match Token.ofWord name.toList with
      | .symbol read => read == name
      | _ => false

theorem spells_of_isName {name : String} (named : isName options.comments name = true) :
    Spells options depth (Node.symbol name).display.toList (.symbol name) := by
  simp only [isName, Bool.and_eq_true, bne_iff_ne, ne_eq] at named
  rcases named with ⟨⟨⟨nonempty, noHash⟩, free⟩, isSymbol⟩
  apply spells_name nonempty noHash (undelimited_of_all free)
  split at isSymbol
  · rename_i read found
    simp only [beq_iff_eq] at isSymbol
    simp only [found, isSymbol]
  · simp at isSymbol

theorem isName_of_form (comments : Bool) (form : SpecialForm) :
    isName comments form.name = true := by
  cases comments <;> cases form <;> decide

/-- Whether an expression is the name of a special form, which must not stand alone at a head. -/
def isReserved : Node → Bool
  | .symbol name => (SpecialForm.ofName? name).isSome
  | _ => false

mutual

/-- Whether an expression without literals is spelled by its display. -/
def isSpelled (options : Options) (depth : Nat) : Node → Bool
  | .symbol name => isName options.comments name
  | .form (head :: arguments) =>
    decide (depth < options.maxDepth) && !isReserved head && isSpelled options (depth + 1) head &&
      areSpelled options (depth + 1) arguments
  | .special (.form form) arguments =>
    decide (depth < options.maxDepth) && form.arity.accepts arguments.length &&
      areSpelled options (depth + 1) arguments
  | _ => false

/-- Whether expressions without literals are spelled by their displays. -/
def areSpelled (options : Options) (depth : Nat) : List Node → Bool
  | [] => true
  | node :: nodes => isSpelled options depth node && areSpelled options depth nodes

end

theorem areSpelled_iff {nodes : List Node} :
    areSpelled options depth nodes = true ↔ ∀ node ∈ nodes, isSpelled options depth node = true := by
  induction nodes with
  | nil => simp [areSpelled]
  | cons node nodes ih => simp [areSpelled, ih]

theorem formed_of_not_isReserved {head : Node} (unreserved : isReserved head = false)
    (arguments : List Node) : Formed (head :: arguments) (.form (head :: arguments)) := by
  apply Formed.call
  rintro form rfl
  simp [isReserved, form.ofName?_name] at unreserved

theorem spells_of_isSpelled {node : Node} (spelled : isSpelled options depth node = true) :
    Spells options depth node.display.toList node := by
  induction node using Node.induction generalizing depth with
  | atom value => simp [isSpelled] at spelled
  | symbol name => exact spells_of_isName spelled
  | form elements parts =>
      cases elements with
      | nil => simp [isSpelled] at spelled
      | cons head arguments =>
          simp only [isSpelled, Bool.and_eq_true, decide_eq_true_eq, Bool.not_eq_true',
            areSpelled_iff] at spelled
          rcases spelled with ⟨⟨⟨shallow, unreserved⟩, headSpelled⟩, argumentsSpelled⟩
          simp only [List.forall_mem_cons] at parts
          apply (formed_of_not_isReserved unreserved arguments).spells_display shallow
          simp only [List.forall_mem_cons]
          refine ⟨parts.1 headSpelled, ?_⟩
          intro argument argumentMem
          exact parts.2 argument argumentMem (argumentsSpelled argument argumentMem)
  | special operation arguments parts =>
      cases operation with
      | form form =>
          simp only [isSpelled, Bool.and_eq_true, decide_eq_true_eq, areSpelled_iff] at spelled
          rcases spelled with ⟨⟨shallow, accepted⟩, argumentsSpelled⟩
          have formed : Formed (.symbol form.name :: arguments) (.special (.form form) arguments) :=
            .special accepted
          apply formed.spells_display shallow
          simp only [List.forall_mem_cons]
          refine ⟨spells_of_isName (isName_of_form options.comments form), ?_⟩
          intro argument argumentMem
          exact parts argument argumentMem (argumentsSpelled argument argumentMem)
      | function builtin => simp [isSpelled] at spelled

/-- An expression without literals is read from its display if its parts are spelled. -/
theorem read_eq_of_display {source : String} {node : Node} (shown : node.display = source)
    (spelled : isSpelled options 0 node = true) : read options source = .ok [node] := by
  subst shown
  exact (spells_of_isSpelled spelled).read_eq

end MeteredRules.Reader
