import MeteredRules.Proofs.Evaluation.Cost

/-!
# Where errors come from

The kind of an error tells the phase it comes from. Reading fails with an error of reading or with
an arity that is refused, and with nothing else. Evaluation never fails with an error of reading; it
exceeds only a budget that was given, and misses only a name of the program that neither the
environment nor a built-in operation gives a meaning to. Host functions are trusted not to report
errors of these three kinds.
-/

namespace MeteredRules

/-! ## Reading -/

/-- The errors of reading: about the text, or about the arity of a special form in it. -/
def Error.isOfReading : Error → Bool
  | .parse _ | .arity _ _ _ => true
  | .argument _ _ | .budget _ | .unbound _ | .evaluation _ _ => false

namespace Reader

theorem State.conforms_add (state : State) (node : Node) :
    Conforms (fun _ => True) (fun error => error.isOfReading) (state.add node) := by
  simp only [add]
  split
  · apply Conforms.bind (Node.conforms_checkArities (fun _ _ _ => rfl) node)
    intro _ _
    trivial
  · trivial

theorem State.conforms_step (maxDepth : Nat) (source : List Char) (state : State)
    (lexeme : Lexeme) :
    Conforms (fun _ => True) (fun error => error.isOfReading)
      (state.step maxDepth source lexeme) := by
  simp only [step]
  split
  · split
    · trivial
    · exact rfl
  · simp only [close]
    split
    · exact rfl
    · split
      · exact rfl
      · exact conforms_add _ _
  · exact state.conforms_add _
  · exact state.conforms_add _
  · exact rfl

theorem State.conforms_finish (source : List Char) (state : State) :
    Conforms (fun _ => True) (fun error => error.isOfReading) (state.finish source) := by
  simp only [finish]
  split
  · trivial
  · exact rfl

theorem conforms_read (options : Options) (source : String) :
    Conforms (fun _ => True) (fun error => error.isOfReading) (read options source) := by
  have stepped : Conforms (fun _ => True) (fun error => error.isOfReading)
      ((scan options.comments source.toList).foldlM
        (State.step options.maxDepth source.toList) .initial) := by
    apply Conforms.foldlM
    · intro state lexeme _ _
      exact state.conforms_step options.maxDepth source.toList lexeme
    · trivial
  apply Conforms.bind stepped
  intro state _
  exact state.conforms_finish source.toList

end Reader

/-! ## Evaluation -/

/--
The errors that the evaluation of a program can end with: those of calls, the given budget, and the
names of the program that mean nothing.
-/
def Error.IsOfProgram (environment : Environment) (limit : Option UInt64) (nodes : List Node) :
    Error → Prop
  | .argument _ _ | .arity _ _ _ | .evaluation _ _ => True
  | .parse _ => False
  | .budget exceeded => limit = some exceeded
  | .unbound name =>
    (∃ use ∈ Node.allUses nodes, use.name = name) ∧ environment.get? name = none ∧
      Builtin.ofName? name = none ∧ SpecialForm.ofName? name = none

theorem Error.isOfProgram_of_isOfCall {environment : Environment} {limit : Option UInt64}
    {nodes : List Node} {error : Error} (ofCall : error.isOfCall) :
    error.IsOfProgram environment limit nodes := by
  cases error with
  | argument | arity | evaluation => trivial
  | parse | budget | unbound => simp [isOfCall] at ofCall

theorem Scope.conforms_lookup_isOfProgram {scope : Scope} {limit : Option UInt64}
    {nodes : List Node} {use : Use} (used : use ∈ Node.allUses nodes) :
    Conforms (fun _ => True) (Error.IsOfProgram scope.environment limit nodes)
      (scope.lookup use) := by
  have gives := scope.gives_lookup use
  generalize scope.lookup use = result at gives ⊢
  cases gives with
  | bound | builtin | reserved => trivial
  | unbound notBound noBuiltin noForm =>
      exact ⟨⟨use, used, rfl⟩, notBound, noBuiltin, noForm⟩

/-- The result of a program ends with none but these errors if no host function reports another. -/
theorem Outcome.conforms_isOfProgram {scope : Scope}
    (reported : ∀ key arguments,
      Action.Conforms (fun _ => True) (fun error => error.isOfCall) (scope.host key arguments))
    (limit : Option UInt64) (nodes : List Node) (clock : Clock) :
    Conforms (fun _ => True) (Error.IsOfProgram scope.environment limit nodes)
      (ofNodes scope limit nodes clock).result := by
  have keeps : scope.Keeps limit (fun _ => True)
      (Error.IsOfProgram scope.environment limit nodes) := by
    constructor
    · exact fun most given => given
    · exact fun _ ofCall => Error.isOfProgram_of_isOfCall ofCall
    · intro node error ofProgram
      cases error with
      | argument | evaluation => trivial
      | _ => exact ofProgram
    · trivial
    · trivial
    · intro function arguments _
      apply Callable.conforms_call_of_host
      · exact fun _ ofCall => Error.isOfProgram_of_isOfCall ofCall
      · intro key arguments
        apply (reported key arguments).mono
        · exact fun _ _ => trivial
        · exact fun _ ofCall => Error.isOfProgram_of_isOfCall ofCall
  apply conforms_ofNodes keeps
  · exact fun _ _ => trivial
  · exact fun use used => Scope.conforms_lookup_isOfProgram used

/--
An error of reading comes from reading and from nowhere else; an exceeded budget is the one that was
given; and a name that is missing occurs in the program, is not bound, and is no built-in function
and no special form. This asks of host functions that they fail only with errors of calls.
-/
theorem evaluate_error_origin {host : Host}
    (reported : ∀ key arguments clock error,
      ((host key arguments).run clock).1 = .error error → error.isOfCall)
    (source : String) (environment : Environment) (limit : Option UInt64) (clock : Clock) :
    (∀ error, (evaluate host source environment limit clock).result = .error (.parse error) ↔
      Reader.read .standard source = .error (.parse error)) ∧
    (∀ exceeded,
      (evaluate host source environment limit clock).result = .error (.budget exceeded) →
        limit = some exceeded) ∧
    ∀ name, (evaluate host source environment limit clock).result = .error (.unbound name) →
      ∃ nodes, Reader.read .standard source = .ok nodes ∧
        (∃ use ∈ Node.allUses nodes, use.name = name) ∧ environment.get? name = none ∧
        Builtin.ofName? name = none ∧ SpecialForm.ofName? name = none := by
  cases accepted : Reader.read .standard source with
  | error refused =>
      have ofReading := Reader.conforms_read .standard source
      have ended : (evaluate host source environment limit clock).result = .error refused := by
        simp only [evaluate, accepted, Outcome.ofError]
      simp only [accepted] at ofReading
      simp only [ended]
      refine ⟨?_, ?_, ?_⟩
      · intro error
        simp only [Except.error.injEq]
      · intro exceeded same
        obtain rfl := Except.error.inj same
        simp [Conforms, Error.isOfReading] at ofReading
      · intro name same
        obtain rfl := Except.error.inj same
        simp [Conforms, Error.isOfReading] at ofReading
  | ok nodes =>
      have conforms : Conforms (fun _ => True) (Error.IsOfProgram environment limit nodes)
          (evaluate host source environment limit clock).result := by
        simp only [evaluate_of_read accepted]
        apply Outcome.conforms_isOfProgram
        intro key arguments clock
        cases given : ((host key arguments).run clock).1 with
        | ok value => trivial
        | error error => exact reported key arguments clock error given
      refine ⟨?_, ?_, ?_⟩
      · intro error
        constructor
        · intro failed
          simp only [failed] at conforms
          exact conforms.elim
        · intro refused
          cases refused
      · intro exceeded failed
        simp only [failed] at conforms
        exact conforms
      · intro name failed
        simp only [failed] at conforms
        exact ⟨nodes, rfl, conforms⟩

/-- The text `(f y)` fails because of `y`, although the function `f` refuses all its arguments. -/
theorem evaluate_error_origin_operand :
    let host : Host := fun _ _ => .ofResult (.error (.refuse .divisionByZero))
    let environment := Environment.empty.define "f" (.callable (.host "f" "f"))
    let outcome := evaluate host "(f y)" environment (some 1) (.still .epoch)
    (∀ key arguments clock error,
      ((host key arguments).run clock).1 = .error error → error.isOfCall) ∧
      outcome.result = .error (.unbound "y") ∧
      (∀ error, Reader.read .standard "(f y)" ≠ .error (.parse error)) ∧
      environment.get? "y" = none := by
  intro host environment outcome
  have reported : ∀ key arguments clock error,
      ((host key arguments).run clock).1 = .error error → error.isOfCall := by
    intro key arguments clock error given
    obtain rfl := Except.error.inj given
    rfl
  have accepted : Reader.read .standard "(f y)" = .ok [.form [.symbol "f", .symbol "y"]] :=
    Reader.read_eq_of_display rfl rfl
  have failed : outcome.result = .error (.unbound "y") := by
    simp only [outcome, evaluate_of_read accepted]
    rfl
  rcases evaluate_error_origin reported "(f y)" environment (some 1) (.still .epoch) with
    ⟨fromReading, _, fromLookup⟩
  refine ⟨reported, failed, ?_, ?_⟩
  · intro error refused
    have same := (fromReading error).mpr refused
    simp only [outcome] at failed
    simp [failed] at same
  · rcases fromLookup "y" failed with ⟨nodes, _, _, notBound, _⟩
    exact notBound

end MeteredRules
