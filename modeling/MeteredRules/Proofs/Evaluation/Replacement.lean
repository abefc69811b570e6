import MeteredRules.Proofs.Evaluation.Decision
import MeteredRules.Proofs.Evaluation.Quotation

/-!
# Expressions in place of each other

A `cond` does what a chain of `if`s does, and a call does what `apply` does with the same function
and an array of the same arguments. Without a budget they give the same values, leave the same
clocks and fail together; what differs is the number of operations.

The errors have left different forms on their way out, and `apply` refuses what is no function in
its own words. Errors that keep a trail are therefore compared by their variant, and all others are
the same. The proofs go by what each part of an expression costs.
-/

namespace MeteredRules

variable {α : Type}

open Evaluation (Costs)

/-! ## Results that resemble each other -/

/-- Results that are the same, or that are errors of one variant and keep a trail. -/
inductive Resembles : Except Error α → Except Error α → Prop where
  | same (result : Except Error α) : Resembles result result
  | argument {cause other : Refusal} {trail otherTrail : List Node} :
      Resembles (.error (.argument cause trail)) (.error (.argument other otherTrail))
  | evaluation {cause other : Failure} {trail otherTrail : List Node} :
      Resembles (.error (.evaluation cause trail)) (.error (.evaluation other otherTrail))

namespace Resembles

variable {left right : Except Error α}

theorem symm (resembles : Resembles left right) : Resembles right left := by
  cases resembles with
  | same => exact .same _
  | argument => exact .argument
  | evaluation => exact .evaluation

theorem within_left (resembles : Resembles left right) (node : Node) :
    Resembles (left.mapError (Error.within node)) right := by
  cases resembles with
  | same =>
      rcases left with error | value
      · cases error with
        | argument cause trail => exact .argument
        | evaluation cause trail => exact .evaluation
        | _ => exact .same _
      · exact .same _
  | argument => exact .argument
  | evaluation => exact .evaluation

theorem within (resembles : Resembles left right) (node other : Node) :
    Resembles (left.mapError (Error.within node)) (right.mapError (Error.within other)) :=
  ((resembles.within_left node).symm.within_left other).symm

end Resembles

namespace Outcome

/-- An evaluation that ended with an error of a variant. -/
def FailsWith (outcome : Outcome) (variant : Error.Variant) : Prop :=
  ∃ error, outcome.result = .error error ∧ error.variant = variant

/-- Outcomes that differ in nothing but the operations charged and in the wording of errors. -/
structure Agrees (left right : Outcome) : Prop where
  clock : left.clock = right.clock
  value : ∀ value, left.result = .ok value ↔ right.result = .ok value
  variant : ∀ variant, left.FailsWith variant ↔ right.FailsWith variant
  /-- Errors about a number of arguments or an unknown name are the same. -/
  error : ∀ error, error.variant = .arity ∨ error.variant = .unbound →
    (left.result = .error error ↔ right.result = .error error)

theorem agrees_of_resembles {left right : Outcome} (clock : left.clock = right.clock)
    (resembles : Resembles left.result right.result) : left.Agrees right := by
  rcases left with ⟨leftResult, leftCharged, leftClock⟩
  rcases right with ⟨rightResult, rightCharged, rightClock⟩
  dsimp only at clock resembles
  cases resembles with
  | same => exact ⟨clock, fun _ => Iff.rfl, fun _ => Iff.rfl, fun _ _ => Iff.rfl⟩
  | argument | evaluation =>
      refine ⟨clock, by simp, by simp [FailsWith, Error.variant], ?_⟩
      intro error unmarked
      cases error <;> simp [Error.variant] at unmarked ⊢

/-- The outcome of one expression without a budget, after a number of operations. -/
def ofNode (scope : Scope) (count : UInt64) (node : Node) (clock : Clock) : Outcome :=
  let (result, machine) := (node.eval scope).run ⟨⟨count, none⟩, clock⟩
  ⟨result, machine.meter.count, machine.clock⟩

variable {scope : Scope} {first second : Node} {clock after : Clock}
  {result other : Except Error Value} {cost extra : Nat}

theorem exists_ofNode_eq (costs : Costs (first.eval scope) clock result cost after)
    (count : UInt64) :
    ∃ spent : UInt64, spent.toNat = min (count.toNat + cost) (UInt64.size - 1) ∧
      ofNode scope count first clock = ⟨result, spent, after⟩ := by
  rcases costs count with ⟨spent, spent_eq, ended⟩
  refine ⟨spent, spent_eq, ?_⟩
  simp only [ofNode, ended]

/-- Expressions that end alike agree, and their outcomes show the difference of their costs. -/
theorem agrees_ofNode (costs : Costs (first.eval scope) clock result cost after)
    (more : Costs (second.eval scope) clock other (cost + extra) after)
    (resembles : Resembles result other) (count : UInt64) :
    (ofNode scope count first clock).Agrees (ofNode scope count second clock) ∧
      (ofNode scope count first clock).result = result ∧
      (ofNode scope count second clock).charged.toNat =
        min ((ofNode scope count first clock).charged.toNat + extra) (UInt64.size - 1) := by
  rcases exists_ofNode_eq costs count with ⟨spent, spent_eq, first_eq⟩
  rcases exists_ofNode_eq more count with ⟨total, total_eq, second_eq⟩
  rw [first_eq, second_eq]
  refine ⟨agrees_of_resembles rfl resembles, rfl, ?_⟩
  dsimp only
  omega

end Outcome

/-! ## Chains of conditionals -/

namespace Node

/-- A chain of `if`s with the given tests and consequents, and with `nil` at its end. -/
def chain : List (Node × Node) → Node
  | [] => .atom .nil
  | clause :: clauses => .special (.form .ite) [clause.1, clause.2, chain clauses]

/-- The tests that a `cond` with some clauses evaluates, from the first to the one that decides. -/
inductive Tests (scope : Scope) : List (Node × Node) → Clock → List Node → Prop where
  | nil {clock : Clock} : Tests scope [] clock []
  | truthy {clause : Node × Node} {clauses : List (Node × Node)} {clock after : Clock}
      {truth : Value} {cost : Nat}
      (costs : Costs (clause.1.eval scope) clock (.ok truth) cost after)
      (truthy : truth.isTruthy = true) : Tests scope (clause :: clauses) clock [clause.1]
  | falsey {clause : Node × Node} {clauses : List (Node × Node)} {clock after : Clock}
      {falsity : Value} {cost : Nat} {tested : List Node}
      (costs : Costs (clause.1.eval scope) clock (.ok falsity) cost after)
      (falsey : falsity.isTruthy = false) (rest : Tests scope clauses after tested) :
      Tests scope (clause :: clauses) clock (clause.1 :: tested)

variable {scope : Scope} {clause : Node × Node} {clauses : List (Node × Node)}
  {clock middle after : Clock} {result : Except Error Value} {cost more : Nat}

theorem Tests.unique {tested others : List Node} (tests : Tests scope clauses clock tested)
    (also : Tests scope clauses clock others) : tested = others := by
  induction tests generalizing others with
  | nil =>
      cases also
      rfl
  | truthy costs truthy =>
      cases also with
      | truthy _ _ => rfl
      | falsey otherCosts falsey _ =>
          cases (costs.unique otherCosts).1
          rw [truthy] at falsey
          cases falsey
  | falsey costs falsey _ ih =>
      cases also with
      | truthy otherCosts truthy =>
          cases (costs.unique otherCosts).1
          rw [truthy] at falsey
          cases falsey
      | falsey otherCosts _ rest =>
          rcases costs.unique otherCosts with ⟨_, rfl⟩
          rw [ih rest]

theorem costs_of_truthy {test consequent alternative : Evaluation Value} {truth : Value}
    (truthy : truth.isTruthy = true) (tested : Costs test clock (.ok truth) cost middle)
    (taken : Costs consequent middle result more after) :
    Costs (do if (← test).isTruthy then consequent else alternative) clock result (cost + more)
      after := by
  apply tested.bind
  rw [if_pos truthy]
  exact taken

theorem costs_of_falsey {test consequent alternative : Evaluation Value} {falsity : Value}
    (falsey : falsity.isTruthy = false) (tested : Costs test clock (.ok falsity) cost middle)
    (taken : Costs alternative middle result more after) :
    Costs (do if (← test).isTruthy then consequent else alternative) clock result (cost + more)
      after := by
  apply tested.bind
  rw [if_neg (by simp [falsey])]
  exact taken

/-- A link of a chain costs one operation more than its test and the branch that it takes. -/
theorem costs_chain_cons
    (costs : Costs (do
      if (← clause.1.eval scope).isTruthy then clause.2.eval scope
      else (chain clauses).eval scope) clock result cost after) :
    Costs ((chain (clause :: clauses)).eval scope) clock
      (result.mapError (Error.within (chain (clause :: clauses)))) (1 + cost) after := by
  simp only [chain, eval_special, evalSpecial]
  exact costs.enter _

theorem costs_cond (costs : Costs (evalCond scope (ofClauses clauses)) clock result cost after) :
    Costs ((special (.form .cond) (ofClauses clauses)).eval scope) clock
      (result.mapError (Error.within (special (.form .cond) (ofClauses clauses)))) (1 + cost)
      after := by
  have paired : (ofClauses clauses).length % 2 = 0 := by
    rw [length_ofClauses]
    omega
  simp only [eval_special, evalSpecial, paired, if_true]
  exact costs.enter _

/-- A chain ends as the clauses do, and charges one operation for each test. -/
theorem costs_chain (scope : Scope) (clauses : List (Node × Node)) (clock : Clock) :
    ∃ result other cost tested after,
      Costs (evalCond scope (ofClauses clauses)) clock result cost after ∧
      Costs ((chain clauses).eval scope) clock other (cost + tested.length) after ∧
      Resembles result other ∧ (clauses ≠ [] → tested ≠ []) ∧
      ∀ value, result = .ok value → Tests scope clauses clock tested := by
  induction clauses generalizing clock with
  | nil =>
      refine ⟨_, _, 0, [], clock, Costs.pure _ clock, Costs.pure _ clock, .same _, ?_, ?_⟩
      · exact fun nonempty => absurd rfl nonempty
      · exact fun _ _ => .nil
  | cons clause clauses ih =>
      simp only [ofClauses_cons, evalCond]
      rcases (steady_eval scope clause.1).exists_costs clock with
        ⟨error | value, cost, middle, test⟩
      · refine ⟨.error error, .error (error.within (chain (clause :: clauses))), cost, [clause.1],
          middle, test.bind_error, ?_, ?_, by simp, by simp⟩
        · rw [Nat.add_comm]
          exact costs_chain_cons test.bind_error
        · exact ((Resembles.same _).within_left _).symm
      · cases decided : value.isTruthy with
        | true =>
            rcases (steady_eval scope clause.2).exists_costs middle with
              ⟨result, more, after, taken⟩
            refine ⟨result, result.mapError (Error.within (chain (clause :: clauses))), cost + more,
              [clause.1], after, costs_of_truthy decided test taken, ?_, ?_, by simp, ?_⟩
            · rw [Nat.add_comm]
              exact costs_chain_cons (costs_of_truthy decided test taken)
            · exact ((Resembles.same result).within_left _).symm
            · exact fun _ _ => .truthy test decided
        | false =>
            rcases ih middle with
              ⟨result, other, more, tested, after, whole, chained, resembles, _, tests⟩
            refine ⟨result, other.mapError (Error.within (chain (clause :: clauses))), cost + more,
              clause.1 :: tested, after, costs_of_falsey decided test whole, ?_, ?_, by simp, ?_⟩
            · -- One link more, and with it one operation and one test.
              have linked := costs_chain_cons (costs_of_falsey decided test chained)
              have cost_eq : 1 + (cost + (more + tested.length)) =
                  cost + more + (clause.1 :: tested).length := by
                rw [List.length_cons]
                omega
              rwa [cost_eq] at linked
            · exact (resembles.symm.within_left _).symm
            · exact fun given same => .falsey test decided (tests given same)

end Node

/--
A `cond` with at least one clause is a chain of `if`s. Both give the same value and leave the same
clock, and they fail together, with errors of the same variant. Where they give a value, the chain
charges one operation more for each test that was evaluated after the first.
-/
theorem Outcome.agrees_chain (scope : Scope) (clause : Node × Node)
    (clauses : List (Node × Node)) (count : UInt64) (clock : Clock) :
    let whole := ofNode scope count (.special (.form .cond) (Node.ofClauses (clause :: clauses)))
      clock
    let chained := ofNode scope count (Node.chain (clause :: clauses)) clock
    whole.Agrees chained ∧
      ∀ value, whole.result = .ok value →
        (∃ tested, Node.Tests scope (clause :: clauses) clock tested) ∧
          ∀ tested, Node.Tests scope (clause :: clauses) clock tested →
            chained.charged.toNat =
              min (whole.charged.toNat + (tested.length - 1)) (UInt64.size - 1) := by
  intro whole chained
  rcases Node.costs_chain scope (clause :: clauses) clock with
    ⟨result, other, cost, tested, after, costs, linked, resembles, nonempty, tests⟩
  -- The chain enters a form for each test, the `cond` a single one for all of them.
  have cost_eq : cost + tested.length = 1 + cost + (tested.length - 1) := by
    have positive := List.length_pos_of_ne_nil (nonempty (by simp))
    omega
  rw [cost_eq] at linked
  rcases agrees_ofNode (Node.costs_cond costs) linked (resembles.within_left _) count with
    ⟨agrees, result_eq, charged⟩
  refine ⟨agrees, ?_⟩
  intro value given
  rw [result_eq] at given
  cases result with
  | error error => cases given
  | ok gave =>
      refine ⟨⟨tested, tests gave rfl⟩, ?_⟩
      intro others also
      rw [← (tests gave rfl).unique also]
      exact charged

/--
The second test decides. The consequent of the first would fail and is left out by both, and the
chain charges one operation more.
-/
theorem Outcome.agrees_chain_second :
    let scope : Scope := ⟨fun _ _ => .ofResult (.ok .nil), .empty⟩
    let failing := Node.form [.symbol "first", .form [.symbol "array"]]
    let clauses := [(.form [.symbol "not", .atom (.boolean true)], failing),
      (.form [.symbol "not", .atom .nil], .atom (.int 7)), (failing, failing)]
    let whole := ofNode scope 0 (.special (.form .cond) (Node.ofClauses clauses)) (.still .epoch)
    let chained := ofNode scope 0 (Node.chain clauses) (.still .epoch)
    whole.result = .ok (.int 7) ∧ whole.charged = 3 ∧ chained.result = .ok (.int 7) ∧
      chained.charged = 4 ∧
      ∃ tested, Node.Tests scope clauses (.still .epoch) tested ∧ tested.length = 2 := by
  intro scope failing clauses whole chained
  have given : whole.result = .ok (.int 7) ∧ whole.charged = 3 ∧ chained.charged = 4 := by
    dsimp only [whole, chained, clauses, failing]
    exact ⟨rfl, rfl, rfl⟩
  rcases given with ⟨result, spent, chainSpent⟩
  rcases agrees_chain scope _ clauses.tail 0 (.still .epoch) with ⟨agrees, counts⟩
  rcases counts _ result with ⟨⟨tested, tests⟩, charges⟩
  have charged := charges tested tests
  refine ⟨result, spent, (agrees.value _).mp result, chainSpent, tested, tests, ?_⟩
  change chained.charged.toNat = min (whole.charged.toNat + _) _ at charged
  rw [spent, chainSpent] at charged
  change 4 = min (3 + _) 18446744073709551615 at charged
  omega

/-! ## Calls through `apply` -/

namespace Scope

variable {scope : Scope} {name : String}

/-- A name that is unbound or bound to a function means the same at the head of a form. -/
theorem resolve_eq_resolveHead (unreserved : SpecialForm.ofName? name = none)
    (functional : ∀ value, scope.environment.get? name = some value →
      ∃ function, value = .callable function) :
    scope.resolve name = scope.resolveHead name := by
  cases bound : scope.environment.get? name with
  | none =>
      cases builtin : Builtin.ofName? name with
      | none => simp only [resolveHead, bound, builtin]
      | some function => simp only [resolve, resolveHead, unreserved, bound, builtin]
  | some value =>
      rcases functional value bound with ⟨function, rfl⟩
      simp only [resolve, resolveHead, unreserved, bound]

/-- What is no function is refused by a call and by `apply`, in different words. -/
theorem exists_costs_call (scope : Scope) (callee : Value) (items : List Value) (clock : Clock) :
    ∃ result other cost after,
      Costs (scope.call callee items) clock result cost after ∧
      Costs (scope.call (.callable (.builtin .apply)) [callee, .array items]) clock other cost
        after ∧
      Resembles result other := by
  by_cases functional : ∃ function, callee = .callable function
  · rcases functional with ⟨function, rfl⟩
    have same : scope.call (.callable (.builtin .apply)) [.callable function, .array items] =
        scope.call (.callable function) items := by
      simp only [call, Callable.call, Callable.callWith]
    rw [same]
    exact ⟨_, _, 0, _, Costs.ofAction _ clock, Costs.ofAction _ clock, .same _⟩
  · have refused : scope.call callee items = .ofResult (.error (.refuse (.notCallable callee))) ∧
        scope.call (.callable (.builtin .apply)) [callee, .array items] =
          .ofAction (.ofResult (.error (.refuse (.notApplicable callee)))) := by
      cases callee with
      | callable function => exact absurd ⟨function, rfl⟩ functional
      | _ => exact ⟨rfl, rfl⟩
    rw [refused.1, refused.2]
    exact ⟨_, _, 0, clock, Costs.ofResult _ clock, Costs.ofAction _ clock, .argument⟩

end Scope

namespace Node

/-- The call of the value of an expression with the values of others. -/
def call (head : Node) (arguments : List Node) : Node :=
  .form (head :: arguments)

/-- The same call through `apply`, with the arguments in an array. -/
def applied (head : Node) (arguments : List Node) : Node :=
  .form [.symbol "apply", head, .form (.symbol "array" :: arguments)]

/--
An expression that means the same at the head of a form and elsewhere: it is no name, or a name that
is not reserved and is unbound or bound to a function.
-/
def IsUniform (scope : Scope) (head : Node) : Prop :=
  ∀ name, head = .symbol name → SpecialForm.ofName? name = none ∧
    ∀ value, scope.environment.get? name = some value → ∃ function, value = .callable function

variable {scope : Scope} {head : Node}

theorem IsUniform.evalHead_eq (uniform : head.IsUniform scope) :
    head.evalHead scope = head.eval scope := by
  cases head with
  | symbol name =>
      rcases uniform name rfl with ⟨unreserved, functional⟩
      simp only [evalHead, eval, Scope.resolve_eq_resolveHead unreserved functional]
  | _ => rfl

theorem IsUniform.eval_call (uniform : head.IsUniform scope) (arguments : List Node) :
    (head.call arguments).eval scope = (do
      Evaluation.charge
      Evaluation.within (head.call arguments) do
        let callee ← head.eval scope
        let values ← evalAll scope arguments
        scope.call callee values) := by
  rw [call, eval_form_cons, uniform.evalHead_eq]

theorem evalHead_builtin {name : String} (function : Builtin)
    (found : Builtin.ofName? name = some function)
    (unshadowed : ∀ bound, scope.environment.get? name ≠ some (.callable bound)) :
    (symbol name).evalHead scope = pure (.callable (.builtin function)) := by
  simp only [evalHead, Scope.resolveHead_of_builtin found unshadowed]
  rfl

theorem eval_array
    (unshadowed : ∀ function, scope.environment.get? "array" ≠ some (.callable function))
    (arguments : List Node) :
    (form (.symbol "array" :: arguments)).eval scope = (do
      Evaluation.charge
      Evaluation.within (.form (.symbol "array" :: arguments)) do
        let values ← evalAll scope arguments
        return .array values) := by
  have called : ∀ values, scope.call (.callable (.builtin (.primitive .array))) values =
      pure (.array values) := by
    intro values
    simp only [Scope.call, Callable.call_array]
    rfl
  simp only [eval_form_cons, evalHead_builtin (.primitive .array) (by decide) unshadowed,
    pure_bind, called]

theorem eval_applied
    (unshadowed : ∀ function, scope.environment.get? "apply" ≠ some (.callable function))
    (head : Node) (arguments : List Node) :
    (head.applied arguments).eval scope = (do
      Evaluation.charge
      Evaluation.within (head.applied arguments) do
        let function ← head.eval scope
        let items ← (form (.symbol "array" :: arguments)).eval scope
        scope.call (.callable (.builtin .apply)) [function, items]) := by
  rw [applied, eval_form_cons, evalHead_builtin .apply (by decide) unshadowed]
  simp only [evalAll, bind_assoc, pure_bind]

theorem steady_evalAll (scope : Scope) (nodes : List Node) :
    Evaluation.Steady (fun values => ∀ value ∈ values, True) (evalAll scope nodes) :=
  evalAll_upholds scope.upholds_steady.toCompositional fun node _ => steady_eval scope node

variable {arguments : List Node} {clock after : Clock} {cost : Nat}

theorem costs_array
    (unshadowed : ∀ function, scope.environment.get? "array" ≠ some (.callable function))
    {values : List Value} (costs : Costs (evalAll scope arguments) clock (.ok values) cost after) :
    Costs ((form (.symbol "array" :: arguments)).eval scope) clock (.ok (.array values)) (1 + cost)
      after := by
  have collected : Costs (do
      let values ← evalAll scope arguments
      return Value.array values) clock (.ok (.array values)) (cost + 0) after :=
    costs.bind (Costs.pure _ after)
  rw [eval_array unshadowed]
  exact collected.enter _

theorem costs_array_error
    (unshadowed : ∀ function, scope.environment.get? "array" ≠ some (.callable function))
    {error : Error} (costs : Costs (evalAll scope arguments) clock (.error error) cost after) :
    Costs ((form (.symbol "array" :: arguments)).eval scope) clock
      (.error (error.within (.form (.symbol "array" :: arguments)))) (1 + cost) after := by
  rw [eval_array unshadowed]
  exact costs.bind_error.enter _

/-- Behind the function, `apply` evaluates one form more than a call does. -/
theorem exists_costs_parts
    (unshadowed : ∀ function, scope.environment.get? "array" ≠ some (.callable function))
    (head : Node) (arguments : List Node) (clock : Clock) :
    ∃ result other cost extra after,
      Costs (do
        let callee ← head.eval scope
        let values ← evalAll scope arguments
        scope.call callee values) clock result cost after ∧
      Costs (do
        let function ← head.eval scope
        let items ← (form (.symbol "array" :: arguments)).eval scope
        scope.call (.callable (.builtin .apply)) [function, items]) clock other (cost + extra)
        after ∧
      Resembles result other ∧ ∀ value, result = .ok value → extra = 1 := by
  rcases (steady_eval scope head).exists_costs clock with ⟨error | callee, cost, middle, first⟩
  · exact ⟨.error error, .error error, cost, 0, middle, first.bind_error, first.bind_error, .same _,
      nofun⟩
  · rcases (steady_evalAll scope arguments).exists_costs middle with
      ⟨error | values, more, next, rest⟩
    · refine ⟨.error error, .error (error.within (.form (.symbol "array" :: arguments))),
        cost + more, 1, next, first.bind rest.bind_error, ?_, ?_, nofun⟩
      · have arranged : cost + more + 1 = cost + (1 + more) := by omega
        rw [arranged]
        exact first.bind (costs_array_error unshadowed rest).bind_error
      · exact ((Resembles.same _).within_left _).symm
    · rcases scope.exists_costs_call callee values next with
        ⟨result, other, last, after, direct, through, resembles⟩
      refine ⟨result, other, cost + (more + last), 1, after, first.bind (rest.bind direct), ?_,
        resembles, fun _ _ => rfl⟩
      have arranged : cost + (more + last) + 1 = cost + (1 + more + last) := by omega
      rw [arranged]
      exact first.bind ((costs_array unshadowed rest).bind through)

end Node

/--
A call through `apply` agrees with the call itself, if `apply` and `array` are not shadowed by
functions and the head of the call means the same elsewhere. Both give the same value and leave the
same clock, and they fail together, with errors of the same variant; an error about a number of
arguments or an unknown name is the same. Where they give a value, `apply` charges one operation
more.
-/
theorem Outcome.agrees_applied {scope : Scope} {head : Node} (uniform : head.IsUniform scope)
    (applyUnshadowed : ∀ function, scope.environment.get? "apply" ≠ some (.callable function))
    (arrayUnshadowed : ∀ function, scope.environment.get? "array" ≠ some (.callable function))
    (arguments : List Node) (count : UInt64) (clock : Clock) :
    let direct := ofNode scope count (head.call arguments) clock
    let through := ofNode scope count (head.applied arguments) clock
    direct.Agrees through ∧
      ∀ value, direct.result = .ok value →
        through.charged.toNat = min (direct.charged.toNat + 1) (UInt64.size - 1) := by
  intro direct through
  rcases Node.exists_costs_parts arrayUnshadowed head arguments clock with
    ⟨result, other, cost, extra, after, parts, appliedParts, resembles, extra_eq⟩
  have costs := parts.enter (head.call arguments)
  rw [← uniform.eval_call] at costs
  have more := appliedParts.enter (head.applied arguments)
  rw [← Node.eval_applied applyUnshadowed, ← Nat.add_assoc] at more
  rcases agrees_ofNode costs more (resembles.within _ _) count with ⟨agrees, result_eq, charged⟩
  refine ⟨agrees, ?_⟩
  intro value given
  rw [result_eq] at given
  cases result with
  | error error => cases given
  | ok gave =>
      rw [extra_eq gave rfl] at charged
      exact charged

/--
A function of the host that reads the clock. The name of `array` is bound to a number, which stands
for it in the arguments but not at the head of a form.
-/
theorem Outcome.agrees_applied_host :
    let collect : Host := fun _ arguments => do
      let _ ← Action.readClock
      return .array arguments
    let scope : Scope :=
      ⟨collect, (Environment.empty.define "array" (.int 5)).register "collect" "collect"⟩
    let arguments := [.atom (.int 3), .symbol "array"]
    let through := ofNode scope 0 (Node.applied (.symbol "collect") arguments) (.still .epoch)
    through.result = .ok (.array [.int 3, .int 5]) ∧ through.charged.toNat = 2 ∧
      through.clock.taken = 1 := by
  intro collect scope arguments through
  have uniform : (Node.symbol "collect").IsUniform scope := by
    intro name named
    cases named
    refine ⟨by decide, ?_⟩
    intro value bound
    exact ⟨.host "collect" "collect", (Option.some.inj bound).symm⟩
  have applyUnshadowed : ∀ function, scope.environment.get? "apply" ≠ some (.callable function) :=
    nofun
  have arrayUnshadowed : ∀ function, scope.environment.get? "array" ≠ some (.callable function) :=
    nofun
  let direct := ofNode scope 0 (Node.call (.symbol "collect") arguments) (.still .epoch)
  have given : direct.result = .ok (.array [.int 3, .int 5]) ∧ direct.charged = 1 ∧
      direct.clock.taken = 1 := by
    dsimp only [direct, arguments]
    exact ⟨rfl, rfl, rfl⟩
  rcases given with ⟨result, spent, taken⟩
  rcases agrees_applied uniform applyUnshadowed arrayUnshadowed arguments 0 (.still .epoch) with
    ⟨agrees, charges⟩
  have charged := charges _ result
  refine ⟨(agrees.value _).mp result, ?_, ?_⟩
  · change through.charged.toNat = min (direct.charged.toNat + 1) _ at charged
    rw [charged, spent]
    rfl
  · have clock : direct.clock = through.clock := agrees.clock
    rw [← clock]
    exact taken

end MeteredRules
