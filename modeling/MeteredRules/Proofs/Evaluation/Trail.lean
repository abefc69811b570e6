import MeteredRules.Proofs.Evaluation.Run
import MeteredRules.Proofs.Node.Induction

/-!
# The trail of an error

An error about arguments or about a computation names the forms that it has left. The evaluator of
this file marks no errors: it is told which forms were entered, and an error is raised together with
the forms that are being evaluated at that point. Evaluation agrees with it. The marks that an error
collects on its way out are these forms, from the innermost to the outermost, each once.
-/

namespace MeteredRules

variable {α β : Type}

/-! ## Evaluation without marks -/

/-- An unmarked error, with the forms that were being evaluated, the innermost first. -/
structure Raised where
  error : Error
  chain : List Node

/-- A computation whose errors tell the forms that were being evaluated. -/
abbrev Tracing := ExceptT Raised (StateM Machine)

/-- A computation in the middle of forms that were entered. -/
def Tracing.under (entered : List Node) (computation : Evaluation α) : Tracing α :=
  ExceptT.adapt (fun error => ⟨error, entered⟩) computation

namespace Node

mutual

/-- The value of an expression inside of forms that were entered. -/
def trace (scope : Scope) (entered : List Node) : Node → Tracing Value
  | .atom value => pure value
  | .symbol name => .under entered (.ofResult (scope.resolve name))
  | .form elements => do
    let inside := .form elements :: entered
    Tracing.under inside Evaluation.charge
    match elements with
    | [] => .under inside (.ofResult (.error (.refuse .emptyForm)))
    | head :: arguments => do
      let callee ← match head with
        | .symbol name => .under inside (.ofResult (scope.resolveHead name))
        | _ => head.trace scope inside
      let values ← traceAll scope inside arguments
      .under inside (scope.call callee values)
  | .special operation arguments => do
    let inside := .special operation arguments :: entered
    Tracing.under inside Evaluation.charge
    match operation, arguments with
    | .form .and, arguments => traceAnd scope inside (.boolean true) arguments
    | .form .or, arguments => traceOr scope inside .nil arguments
    | .form .ite, [condition, consequent, alternative] => do
      if (← condition.trace scope inside).isTruthy then consequent.trace scope inside
      else alternative.trace scope inside
    | .form .ite, arguments => .under inside (.ofResult (.error (.arity 3 arguments.length none)))
    | .form .cond, arguments =>
      if arguments.length % 2 = 0 then traceCond scope inside arguments
      else .under inside (.ofResult (.error (.arity (arguments.length + 1) arguments.length none)))
    | .function function, _ =>
      .under inside (.ofResult (.error (.fail (.notSpecialForm (.function function)))))
termination_by structural node => node

/-- The values of the arguments of a form, from left to right. -/
def traceAll (scope : Scope) (entered : List Node) : List Node → Tracing (List Value)
  | [] => pure []
  | node :: nodes => do
    let value ← node.trace scope entered
    let values ← traceAll scope entered nodes
    return value :: values
termination_by structural nodes => nodes

/-- The first false value of the operands, or the last value. -/
def traceAnd (scope : Scope) (entered : List Node) (last : Value) : List Node → Tracing Value
  | [] => pure last
  | node :: nodes => do
    let value ← node.trace scope entered
    if value.isTruthy then traceAnd scope entered value nodes else return value
termination_by structural nodes => nodes

/-- The first true value of the operands, or the last value. -/
def traceOr (scope : Scope) (entered : List Node) (last : Value) : List Node → Tracing Value
  | [] => pure last
  | node :: nodes => do
    let value ← node.trace scope entered
    if value.isTruthy then return value else traceOr scope entered value nodes
termination_by structural nodes => nodes

/-- The value after the first test that is true, or `nil`. -/
def traceCond (scope : Scope) (entered : List Node) : List Node → Tracing Value
  | test :: consequent :: rest => do
    if (← test.trace scope entered).isTruthy then consequent.trace scope entered
    else traceCond scope entered rest
  | _ => pure .nil
termination_by structural nodes => nodes

end

/-- Evaluates expressions in order, outside of all forms. -/
def traceProgram (scope : Scope) (last : Value) : List Node → Tracing Value
  | [] => pure last
  | node :: nodes => do
    let value ← node.trace scope []
    traceProgram scope value nodes

/-- The value of the head of a form. -/
def traceHead (scope : Scope) (entered : List Node) : Node → Tracing Value
  | .symbol name => .under entered (.ofResult (scope.resolveHead name))
  | head => head.trace scope entered

/-- What a special form does with its arguments. -/
def traceSpecial (scope : Scope) (entered : List Node) : Operation → List Node → Tracing Value
  | .form .and, arguments => traceAnd scope entered (.boolean true) arguments
  | .form .or, arguments => traceOr scope entered .nil arguments
  | .form .ite, [condition, consequent, alternative] => do
      if (← condition.trace scope entered).isTruthy then consequent.trace scope entered
      else alternative.trace scope entered
  | .form .ite, arguments => .under entered (.ofResult (.error (.arity 3 arguments.length none)))
  | .form .cond, arguments =>
      if arguments.length % 2 = 0 then traceCond scope entered arguments
      else .under entered (.ofResult (.error (.arity (arguments.length + 1) arguments.length none)))
  | .function function, _ =>
      .under entered (.ofResult (.error (.fail (.notSpecialForm (.function function)))))

theorem trace_form_nil (scope : Scope) (entered : List Node) :
    (form []).trace scope entered = (do
      Tracing.under (form [] :: entered) Evaluation.charge
      .under (form [] :: entered) (.ofResult (.error (.refuse .emptyForm)))) := by
  rw [trace]

theorem trace_form_cons (scope : Scope) (entered : List Node) (head : Node)
    (arguments : List Node) :
    (form (head :: arguments)).trace scope entered = (do
      let inside := form (head :: arguments) :: entered
      Tracing.under inside Evaluation.charge
      let callee ← head.traceHead scope inside
      let values ← traceAll scope inside arguments
      .under inside (scope.call callee values)) := by
  rw [trace]
  cases head <;> rfl

theorem trace_special (scope : Scope) (entered : List Node) (operation : Operation)
    (arguments : List Node) :
    (special operation arguments).trace scope entered = (do
      let inside := special operation arguments :: entered
      Tracing.under inside Evaluation.charge
      traceSpecial scope inside operation arguments) := by
  rw [trace.eq_def]
  rfl

end Node

/-! ## Trails -/

/-- What stands directly in a form; literals and names are no forms. -/
def Node.parts? : Node → Option (List Node)
  | .atom _ | .symbol _ => none
  | .form elements => some elements
  | .special _ arguments => some arguments

/--
Forms each of which stands directly in the next one; the last of them is one of the given
expressions.
-/
inductive Node.Trail : List Node → List Node → Prop where
  | outside {roots : List Node} : Trail roots []
  | inside {roots parts chain : List Node} {node : Node} (root : node ∈ roots)
      (isForm : node.parts? = some parts) (inner : Trail parts chain) :
      Trail roots (chain ++ [node])

open Node (Trail)

theorem Node.Trail.mono {roots more chain : List Node} (trail : Trail roots chain)
    (included : roots ⊆ more) : Trail more chain := by
  cases trail with
  | outside => exact .outside
  | inside root isForm inner => exact .inside (included root) isForm inner

/-- The line of a message that names a form. -/
def Node.contextLine (node : Node) : String :=
  "\n  Context: while evaluating: " ++ node.display

namespace Error

/-- An error that has left forms, the first of them first. -/
def leaving (chain : List Node) (error : Error) : Error :=
  chain.foldl (fun error node => error.within node) error

theorem leaving_concat (chain : List Node) (node : Node) (error : Error) :
    error.leaving (chain ++ [node]) = (error.leaving chain).within node := by
  simp only [leaving, List.foldl_append, List.foldl_cons, List.foldl_nil]

theorem leaving_argument (cause : Refusal) (trail chain : List Node) :
    (argument cause trail).leaving chain = .argument cause (trail ++ chain) := by
  induction chain generalizing trail with
  | nil => simp [leaving]
  | cons node chain ih =>
      have marked := ih (trail ++ [node])
      simpa [leaving, within] using marked

theorem leaving_evaluation (cause : Failure) (trail chain : List Node) :
    (evaluation cause trail).leaving chain = .evaluation cause (trail ++ chain) := by
  induction chain generalizing trail with
  | nil => simp [leaving]
  | cons node chain ih =>
      have marked := ih (trail ++ [node])
      simpa [leaving, within] using marked

/-- An error that keeps no trail is not changed by the forms that it leaves. -/
theorem leaving_of_within_eq {error : Error} (unmarked : ∀ node, error.within node = error)
    (chain : List Node) : error.leaving chain = error := by
  induction chain with
  | nil => rfl
  | cons node chain ih =>
      simp only [leaving, List.foldl_cons, unmarked node]
      exact ih

theorem trailText_cons (node : Node) (chain : List Node) :
    trailText (node :: chain) = node.contextLine ++ trailText chain :=
  rfl

theorem trailText_eq_join (chain : List Node) :
    trailText chain = String.join (chain.map Node.contextLine) := by
  induction chain with
  | nil => rfl
  | cons node chain ih => simp only [trailText_cons, List.map_cons, String.join_cons, ih]

theorem trailText_append (trail chain : List Node) :
    trailText (trail ++ chain) = trailText trail ++ String.join (chain.map Node.contextLine) := by
  simp only [trailText_eq_join, List.map_append, String.join_append]

theorem render_argument (cause : Refusal) (trail : List Node) :
    (argument cause trail).render = "ArgumentError: " ++ cause.render ++ trailText trail :=
  rfl

theorem render_evaluation (cause : Failure) (trail : List Node) :
    (evaluation cause trail).render = "EvaluationError: " ++ cause.render ++ trailText trail :=
  rfl

end Error

/-! ## Evaluation follows the evaluation without marks -/

namespace Evaluation

/--
How an evaluation ends, given how the one without marks does: with the same value, or with the same
error after it has left the forms that were entered since.
-/
inductive Ends (roots entered : List Node) :
    Except Raised α × Machine → Except Error α × Machine → Prop where
  | value {value : α} {left : Machine} : Ends roots entered (.ok value, left) (.ok value, left)
  | error {error : Error} {chain : List Node} {left : Machine} (trail : Trail roots chain) :
      Ends roots entered (.error ⟨error, chain ++ entered⟩, left)
        (.error (error.leaving chain), left)

/-- From every machine, an evaluation ends as the one without marks does. -/
def Follows (roots entered : List Node) (tracing : Tracing α) (computation : Evaluation α) :
    Prop :=
  ∀ machine, Ends roots entered (tracing.run machine) (computation.run machine)

theorem follows_pure {roots entered : List Node} (value : α) :
    Follows roots entered (pure value) (pure value) :=
  fun _ => .value

theorem follows_under {roots entered : List Node} (computation : Evaluation α) :
    Follows roots entered (.under entered computation) computation := by
  intro machine
  change Ends roots entered ((computation.run machine).1.mapError _, (computation.run machine).2) _
  rcases computation.run machine with ⟨error | value, left⟩
  · exact .error .outside
  · exact .value

namespace Follows

variable {roots entered : List Node}

theorem mono {more : List Node} {tracing : Tracing α} {computation : Evaluation α}
    (follows : Follows roots entered tracing computation) (included : roots ⊆ more) :
    Follows more entered tracing computation := by
  intro machine
  have ends := follows machine
  generalize tracing.run machine = reference at ends ⊢
  generalize computation.run machine = ended at ends ⊢
  cases ends with
  | value => exact .value
  | error trail => exact .error (trail.mono included)

theorem bind {tracing : Tracing α} {computation : Evaluation α} {traced : α → Tracing β}
    {next : α → Evaluation β} (first : Follows roots entered tracing computation)
    (rest : ∀ value, Follows roots entered (traced value) (next value)) :
    Follows roots entered (tracing >>= traced) (computation >>= next) := by
  intro machine
  have ends := first machine
  simp only [Error.run_bind]
  generalize tracing.run machine = reference at ends ⊢
  generalize computation.run machine = ended at ends ⊢
  cases ends with
  | value => exact rest _ _
  | error trail => exact .error trail

/-- The error of a budget keeps no trail, so that it may be charged inside or outside of a form. -/
theorem charge {node : Node} {parts : List Node} (isForm : node.parts? = some parts) :
    Follows [node] entered (.under (node :: entered) Evaluation.charge) Evaluation.charge := by
  intro machine
  change Ends [node] entered (machine.meter.advance.check.mapError _, _)
    (machine.meter.advance.check, _)
  have trail : Trail [node] ([] ++ [node]) := .inside List.mem_cons_self isForm .outside
  simp only [Meter.check]
  split
  · split
    · exact .error trail
    · exact .value
  · exact .value

/-- The marks of a form extend the trails of its parts by the form. -/
theorem within {node : Node} {parts : List Node} (isForm : node.parts? = some parts)
    {tracing : Tracing α} {computation : Evaluation α}
    (follows : Follows parts (node :: entered) tracing computation) :
    Follows [node] entered tracing (Evaluation.within node computation) := by
  intro machine
  have ends := follows machine
  rw [run_within]
  generalize tracing.run machine = reference at ends ⊢
  generalize computation.run machine = ended at ends ⊢
  cases ends with
  | value => exact .value
  | @error error chain left trail =>
      rw [List.append_cons]
      change Ends [node] entered _ (.error ((error.leaving chain).within node), left)
      rw [← Error.leaving_concat]
      exact .error (.inside List.mem_cons_self isForm trail)

theorem enter {node : Node} {parts : List Node} (isForm : node.parts? = some parts)
    {tracing : Tracing α} {computation : Evaluation α}
    (follows : Follows parts (node :: entered) tracing computation) :
    Follows [node] entered
      (do
        Tracing.under (node :: entered) Evaluation.charge
        tracing)
      (do
        Evaluation.charge
        Evaluation.within node computation) :=
  bind (charge isForm) fun _ => within isForm follows

end Follows

end Evaluation

open Evaluation (Follows follows_pure follows_under)

namespace Node

variable {scope : Scope} {entered : List Node}

theorem follows_traceAll {nodes : List Node}
    (parts : ∀ node ∈ nodes, Follows [node] entered (node.trace scope entered) (node.eval scope)) :
    Follows nodes entered (traceAll scope entered nodes) (evalAll scope nodes) := by
  induction nodes with
  | nil => exact follows_pure []
  | cons node nodes ih =>
      simp only [List.forall_mem_cons] at parts
      simp only [traceAll, evalAll]
      apply Follows.bind (parts.1.mono (by simp))
      intro value
      apply Follows.bind ((ih parts.2).mono (by simp))
      intro values
      exact follows_pure _

theorem follows_traceAnd {nodes : List Node}
    (parts : ∀ node ∈ nodes, Follows [node] entered (node.trace scope entered) (node.eval scope))
    (last : Value) :
    Follows nodes entered (traceAnd scope entered last nodes) (evalAnd scope last nodes) := by
  induction nodes generalizing last with
  | nil => exact follows_pure last
  | cons node nodes ih =>
      simp only [List.forall_mem_cons] at parts
      simp only [traceAnd, evalAnd]
      apply Follows.bind (parts.1.mono (by simp))
      intro value
      split
      · exact (ih parts.2 value).mono (by simp)
      · exact follows_pure value

theorem follows_traceOr {nodes : List Node}
    (parts : ∀ node ∈ nodes, Follows [node] entered (node.trace scope entered) (node.eval scope))
    (last : Value) :
    Follows nodes entered (traceOr scope entered last nodes) (evalOr scope last nodes) := by
  induction nodes generalizing last with
  | nil => exact follows_pure last
  | cons node nodes ih =>
      simp only [List.forall_mem_cons] at parts
      simp only [traceOr, evalOr]
      apply Follows.bind (parts.1.mono (by simp))
      intro value
      split
      · exact follows_pure value
      · exact (ih parts.2 value).mono (by simp)

theorem follows_traceCond :
    ∀ {nodes : List Node},
      (∀ node ∈ nodes, Follows [node] entered (node.trace scope entered) (node.eval scope)) →
        Follows nodes entered (traceCond scope entered nodes) (evalCond scope nodes)
  | [], _ => follows_pure Value.nil
  | [_], _ => follows_pure Value.nil
  | test :: consequent :: rest, parts => by
      simp only [List.forall_mem_cons] at parts
      simp only [traceCond, evalCond]
      apply Follows.bind (parts.1.mono (by simp))
      intro value
      split
      · exact parts.2.1.mono (by simp)
      · exact (follows_traceCond parts.2.2).mono (by simp)

theorem follows_traceSpecial (operation : Operation) {arguments : List Node}
    (parts : ∀ argument ∈ arguments,
      Follows [argument] entered (argument.trace scope entered) (argument.eval scope)) :
    Follows arguments entered (traceSpecial scope entered operation arguments)
      (evalSpecial scope operation arguments) := by
  fun_cases evalSpecial scope operation arguments with
  | case1 => exact follows_traceAnd parts _
  | case2 => exact follows_traceOr parts _
  | case3 condition consequent alternative =>
      simp only [List.forall_mem_cons] at parts
      simp only [traceSpecial]
      apply Follows.bind (parts.1.mono (by simp))
      intro value
      split
      · exact parts.2.1.mono (by simp)
      · exact parts.2.2.1.mono (by simp)
  | case4 _ notThree =>
      simp only [traceSpecial]
      exact follows_under _
  | case5 _ paired =>
      simp only [traceSpecial, paired, if_true]
      exact follows_traceCond parts
  | case6 _ unpaired =>
      simp only [traceSpecial, unpaired, if_false]
      exact follows_under _
  | case7 function => exact follows_under _

theorem follows_traceHead {head : Node}
    (part : Follows [head] entered (head.trace scope entered) (head.eval scope)) :
    Follows [head] entered (head.traceHead scope entered) (head.evalHead scope) := by
  cases head with
  | symbol name => exact follows_under _
  | _ => exact part

theorem follows_trace (scope : Scope) (entered : List Node) (node : Node) :
    Follows [node] entered (node.trace scope entered) (node.eval scope) := by
  induction node using Node.induction generalizing entered with
  | atom value =>
      simp only [trace, eval]
      exact follows_pure value
  | symbol name =>
      simp only [trace, eval]
      exact follows_under _
  | form elements parts =>
      cases elements with
      | nil =>
          simp only [trace_form_nil, eval_form_nil]
          exact Follows.enter rfl (follows_under _)
      | cons head arguments =>
          simp only [List.forall_mem_cons] at parts
          simp only [trace_form_cons, eval_form_cons]
          apply Follows.enter rfl
          apply Follows.bind ((follows_traceHead (parts.1 _)).mono (by simp))
          intro callee
          apply Follows.bind ((follows_traceAll fun argument argumentMem =>
            parts.2 argument argumentMem _).mono (by simp))
          intro values
          exact follows_under _
  | special operation arguments parts =>
      simp only [trace_special, eval_special]
      apply Follows.enter rfl
      exact follows_traceSpecial operation fun argument argumentMem => parts argument argumentMem _

theorem follows_traceProgram (scope : Scope) (last : Value) (nodes : List Node) :
    Follows nodes [] (traceProgram scope last nodes) (evalProgram scope last nodes) := by
  induction nodes generalizing last with
  | nil => exact follows_pure last
  | cons node nodes ih =>
      simp only [traceProgram, evalProgram]
      apply Follows.bind ((follows_trace scope [] node).mono (by simp))
      intro value
      exact (ih value).mono (by simp)

end Node

/--
Evaluation charges and reads the clock as the evaluation without marks does, and gives the same
value. Where that one raises an error in a chain of forms, the chain leads from the innermost form
to an expression of the program, and evaluation fails with this error: with a line for each form of
the chain after its text, in the order of the chain, if it is about arguments or about a
computation, and unchanged otherwise.
-/
theorem Outcome.ofNodes_trace (scope : Scope) (limit : Option UInt64) (nodes : List Node)
    (clock : Clock) :
    let outcome := ofNodes scope limit nodes clock
    let reference := (Node.traceProgram scope .nil nodes).run ⟨Meter.ofLimit limit, clock⟩
    outcome.charged = reference.2.meter.count ∧ outcome.clock = reference.2.clock ∧
    (∀ value, reference.1 = .ok value → outcome.result = .ok value) ∧
    ∀ raised, reference.1 = .error raised →
      Trail nodes raised.chain ∧
      (∀ cause trail, raised.error = .argument cause trail →
        ∃ error, outcome.result = .error error ∧
          error = .argument cause (trail ++ raised.chain) ∧
          error.render = raised.error.render ++ String.join (raised.chain.map Node.contextLine)) ∧
      (∀ cause trail, raised.error = .evaluation cause trail →
        ∃ error, outcome.result = .error error ∧
          error = .evaluation cause (trail ++ raised.chain) ∧
          error.render = raised.error.render ++ String.join (raised.chain.map Node.contextLine)) ∧
      ((∀ cause trail, raised.error ≠ .argument cause trail) →
        (∀ cause trail, raised.error ≠ .evaluation cause trail) →
          outcome.result = .error raised.error) := by
  intro outcome reference
  have ends := Node.follows_traceProgram scope .nil nodes ⟨Meter.ofLimit limit, clock⟩
  simp only [outcome, ofNodes]
  change Evaluation.Ends nodes [] reference _ at ends
  generalize reference = traced at ends ⊢
  generalize (Node.evalProgram scope .nil nodes).run ⟨Meter.ofLimit limit, clock⟩ = ended at ends ⊢
  cases ends with
  | value => simp
  | @error error chain left trail =>
      refine ⟨rfl, rfl, by simp, ?_⟩
      intro raised same
      obtain rfl : ⟨error, chain ++ []⟩ = raised := Except.error.inj same
      simp only [List.append_nil]
      refine ⟨trail, ?_, ?_, ?_⟩
      · rintro cause marks rfl
        refine ⟨_, rfl, Error.leaving_argument cause marks chain, ?_⟩
        simp only [Error.leaving_argument, Error.render_argument, Error.trailText_append,
          String.append_assoc]
      · rintro cause marks rfl
        refine ⟨_, rfl, Error.leaving_evaluation cause marks chain, ?_⟩
        simp only [Error.leaving_evaluation, Error.render_evaluation, Error.trailText_append,
          String.append_assoc]
      · intro noArgument noEvaluation
        apply congrArg Except.error
        apply Error.leaving_of_within_eq
        intro node
        cases error with
        | argument cause marks => exact absurd rfl (noArgument cause marks)
        | evaluation cause marks => exact absurd rfl (noEvaluation cause marks)
        | _ => rfl

/-- The empty array that `first` refuses leaves two forms, and both are named. -/
theorem Outcome.ofNodes_trace_first :
    let scope : Scope := ⟨fun _ _ => .ofResult (.ok .nil), .empty⟩
    let inner := Node.form [.symbol "first", .form [.symbol "array"]]
    let outer := Node.form [.symbol "str", .atom .nil, inner]
    let machine : Machine := ⟨Meter.ofLimit (some 3), .still .epoch⟩
    let raised : Raised := ⟨.refuse (.emptyArray .first), [inner, outer]⟩
    ((Node.traceProgram scope .nil [outer]).run machine).1 = .error raised ∧
      Trail [outer] raised.chain ∧
      ∃ error, (ofNodes scope (some 3) [outer] (.still .epoch)).result = .error error ∧
        error.render = "ArgumentError: first of empty array" ++
          "\n  Context: while evaluating: (first (array))" ++
          "\n  Context: while evaluating: (str nil (first (array)))" := by
  intro scope inner outer machine raised
  have failed : ((Node.traceProgram scope .nil [outer]).run machine).1 = .error raised := rfl
  rcases (ofNodes_trace scope (some 3) [outer] (.still .epoch)).2.2.2 raised failed with
    ⟨trail, argument, _, _⟩
  rcases argument (.emptyArray .first) [] rfl with ⟨error, result, _, text⟩
  exact ⟨failed, trail, error, result, text⟩

end MeteredRules
