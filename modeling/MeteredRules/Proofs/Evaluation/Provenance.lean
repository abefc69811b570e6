import MeteredRules.Proofs.Evaluation.Conformance
import MeteredRules.Proofs.Reader.Spelling

/-!
# Where functions come from

A program cannot make functions. The functions in its value are built-in functions or occur in what
the environment binds to a name that the program uses: literals that were read hold none, names give
what they are bound to or a built-in function, and a call gives nothing that its arguments do not
hold. Host functions are trusted with the last point only.
-/

namespace MeteredRules

theorem Builtin.mem_all (function : Builtin) : function ∈ all := by
  rcases function with primitive | _
  · cases primitive <;> decide
  · decide

namespace Reader

theorem Word.callables_of_literal {word : List Char} {node : Node} (means : Word word node)
    {value : Value} (literal : value ∈ node.literals) : value.callables = [] := by
  cases means with
  | integer | float =>
      simp only [Node.literals, List.mem_singleton] at literal
      subst value
      rfl
  | keyword isKeyword =>
      simp only [Node.literals, List.mem_singleton] at literal
      subst value
      cases isKeyword <;> rfl
  | symbol => simp [Node.literals] at literal

/-- No literal of a derived program holds a function. -/
theorem Sequence.callables_of_literal {options : Options} {depth : Nat} {text rest : List Char}
    {nodes : List Node} (derived : Sequence options depth text nodes rest) {value : Value}
    (literal : value ∈ Node.allLiterals nodes) : value.callables = [] := by
  induction derived with
  | done => simp [Node.allLiterals] at literal
  | single _ item _ ih =>
      simp only [Node.allLiterals, List.mem_append] at literal
      rcases literal with inItem | inRest
      · cases item with
        | string | instant =>
            simp only [Node.literals, List.mem_singleton] at inItem
            subst value
            rfl
        | word _ _ _ _ means => exact means.callables_of_literal inItem
      · exact ih inRest
  | form _ _ _ formed _ ihContent ihMore =>
      simp only [Node.allLiterals, List.mem_append, ← formed.allLiterals_eq] at literal
      rcases literal with inForm | inRest
      · exact ihContent inForm
      · exact ihMore inRest

end Reader

/--
A function that a program may have: one of the built-in functions, or one that occurs in a value
bound to a name that the program uses.
-/
def Environment.Grants (environment : Environment) (nodes : List Node) (function : Callable) :
    Prop :=
  (∃ builtin ∈ Builtin.all, function = .builtin builtin) ∨
    ∃ use ∈ Node.allUses nodes, ∃ bound, environment.get? use.name = some bound ∧
      function ∈ bound.callables

/-- Host functions that give only functions out of their arguments. -/
def Host.HandsOn (host : Host) : Prop :=
  ∀ key arguments clock value, ((host key arguments).run clock).1 = .ok value →
    value.callables ⊆ Value.allCallables arguments

theorem Host.HandsOn.conforms_call {host : Host} (handsOn : host.HandsOn) (function : Callable)
    (arguments : List Value) :
    Action.Conforms (fun value => value.callables ⊆ Value.allCallables arguments) (fun _ => True)
      (function.call host arguments) := by
  apply Callable.conforms_call
  · exact fun _ _ => trivial
  · intro primitive arguments
    apply Action.Conforms.mono (primitive.obedient_call arguments)
    · exact fun _ held => held
    · exact fun _ _ => trivial
  · intro key arguments clock
    cases given : ((host key arguments).run clock).1 with
    | ok value => exact handsOn key arguments clock value given
    | error error => trivial
  · intro function items value held
    simp only [Value.allCallables, Value.callables, List.append_nil]
    exact List.subset_append_of_subset_right _ held

theorem Environment.grants_of_lookup {host : Host} {environment : Environment} {nodes : List Node}
    {use : Use} (used : use ∈ Node.allUses nodes) :
    Conforms (fun value => ∀ function ∈ value.callables, environment.Grants nodes function)
      (fun _ => True) ((Scope.mk host environment).lookup use) := by
  have gives := (Scope.mk host environment).gives_lookup use
  generalize (Scope.mk host environment).lookup use = result at gives ⊢
  cases gives with
  | @bound value isBound =>
      intro function functionMem
      exact .inr ⟨use, used, value, isBound, functionMem⟩
  | @builtin builtin isBuiltin =>
      intro function functionMem
      simp only [Value.callables, List.mem_singleton] at functionMem
      exact .inl ⟨builtin, builtin.mem_all, functionMem⟩
  | reserved | unbound => trivial

/--
Every function in the value of a program that was read is a built-in function or occurs in what the
environment binds to a name of the program, provided that host functions give only functions out of
their arguments.
-/
theorem Outcome.grants_of_mem_callables {options : Reader.Options} {source : String}
    {nodes : List Node} (accepted : Reader.read options source = .ok nodes) {host : Host}
    (handsOn : host.HandsOn) {environment : Environment} {limit : Option UInt64} {clock : Clock}
    {value : Value} (succeeded : (ofNodes ⟨host, environment⟩ limit nodes clock).result = .ok value)
    {function : Callable} (occurs : function ∈ value.callables) :
    environment.Grants nodes function := by
  have inert : ∀ {value : Value}, value.callables = [] →
      ∀ function ∈ value.callables, environment.Grants nodes function := by
    intro value empty function functionMem
    simp [empty] at functionMem
  have keeps : (Scope.mk host environment).Keeps limit
      (fun value => ∀ function ∈ value.callables, environment.Grants nodes function)
      (fun _ => True) := by
    constructor
    · exact fun _ _ => trivial
    · exact fun _ _ => trivial
    · exact fun _ _ _ => trivial
    · exact inert rfl
    · exact inert rfl
    · intro function arguments granted
      apply (handsOn.conforms_call function arguments).mono
      · intro value held function functionMem
        rcases Value.mem_allCallables.mp (held functionMem) with ⟨argument, argumentMem, inArgument⟩
        exact granted argument argumentMem function inArgument
      · exact fun _ _ => trivial
  have conforms := conforms_ofNodes keeps
    (fun literal literalMem =>
      inert ((Reader.sequence_of_read accepted).callables_of_literal literalMem))
    (fun use used => Environment.grants_of_lookup used) clock
  rw [succeeded] at conforms
  exact conforms function occurs

/-- The program `(last fs)` takes a host function out of an array that the environment holds. -/
theorem Outcome.grants_of_mem_callables_last :
    let nodes := [Node.form [.symbol "last", .symbol "fs"]]
    let environment := Environment.empty.define "fs" (.array [.nil, .callable (.host "f" "f")])
    let host : Host := fun _ _ => .ofResult (.ok .nil)
    Reader.read .standard "(last fs)" = .ok nodes ∧ host.HandsOn ∧
      (ofNodes ⟨host, environment⟩ none nodes (.still .epoch)).result =
        .ok (.callable (.host "f" "f")) ∧
      environment.Grants nodes (.host "f" "f") := by
  intro nodes environment host
  have spelled : Reader.Spells .standard 0
      (Node.form [.symbol "last", .symbol "fs"]).display.toList
      (.form [.symbol "last", .symbol "fs"]) := by
    apply Reader.spells_call rfl (by decide)
    · exact Reader.spells_name (by decide) (by decide) (Reader.undelimited_of_all rfl) rfl
    · simp only [List.forall_mem_singleton]
      exact Reader.spells_name (by decide) (by decide) (Reader.undelimited_of_all rfl) rfl
  have accepted : Reader.read .standard "(last fs)" = .ok nodes := spelled.read_eq
  have handsOn : host.HandsOn := by
    intro key arguments clock value given
    obtain rfl : Value.nil = value := Except.ok.inj given
    exact List.nil_subset _
  have succeeded : (ofNodes ⟨host, environment⟩ none nodes (.still .epoch)).result =
      .ok (.callable (.host "f" "f")) := rfl
  refine ⟨accepted, handsOn, succeeded, ?_⟩
  exact grants_of_mem_callables accepted handsOn succeeded (by simp [Value.callables])

end MeteredRules
