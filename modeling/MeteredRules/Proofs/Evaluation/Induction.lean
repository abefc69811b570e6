import MeteredRules.Proofs.Builtin.Answer
import MeteredRules.Proofs.Node.Use
import MeteredRules.Proofs.Reader.RoundTrip

/-!
# One induction for all evaluations

Much of what is said about evaluation has the same shape: it holds of literals, of lookups and of
calls, marking errors and charging operations do no harm to it, and a sequence has it if its parts
do. This file does the induction over expressions once for all properties of this shape. The
property is a parameter, and so is a condition on values that is carried along: a call may rely on
the condition for its arguments and for the function that is called.
-/

namespace MeteredRules

/--
A property of computations that a sequence has if its parts have it. It comes with a condition on
the values that a computation gives, and the rest of a sequence may rely on this condition.
-/
structure Compositional (holds : (α : Type) → (α → Prop) → Evaluation α → Prop) : Prop where
  pure : ∀ {α : Type} {good : α → Prop} {value : α}, good value → holds α good (pure value)
  charge : holds Unit (fun _ => True) Evaluation.charge
  within : ∀ {α : Type} {good : α → Prop} {computation : Evaluation α} (node : Node),
    holds α good computation → holds α good (Evaluation.within node computation)
  bind : ∀ {α β : Type} {good : α → Prop} {final : β → Prop} {computation : Evaluation α}
    {next : α → Evaluation β}, holds α good computation →
      (∀ value, good value → holds β final (next value)) → holds β final (computation >>= next)

/--
A compositional property that evaluation in a scope has by itself, apart from the literals and names
of the program.
-/
structure Scope.Upholds (scope : Scope) (holds : (α : Type) → (α → Prop) → Evaluation α → Prop)
    (good : Value → Prop) : Prop extends Compositional holds where
  truth : good (.boolean true)
  nil : good .nil
  refusal : ∀ error : Error, error.isOfCall → holds Value good (.ofResult (.error error))
  call : ∀ (function : Callable) arguments, good (.callable function) →
    (∀ argument ∈ arguments, good argument) →
      holds Value good (.ofAction (function.call scope.host arguments))

variable {holds : (α : Type) → (α → Prop) → Evaluation α → Prop} {scope : Scope}
  {good : Value → Prop}

theorem Scope.Upholds.call_value (upholds : scope.Upholds holds good) {callee : Value}
    (calleeGood : good callee) {arguments : List Value} (each : ∀ argument ∈ arguments, good argument) :
    holds Value good (scope.call callee arguments) := by
  cases callee with
  | callable function => exact upholds.call function arguments calleeGood each
  | _ => exact upholds.refusal _ rfl

namespace Node

theorem mem_allLiterals {value : Value} {nodes : List Node} :
    value ∈ allLiterals nodes ↔ ∃ node ∈ nodes, value ∈ node.literals := by
  induction nodes with
  | nil => simp [allLiterals]
  | cons node nodes ih => simp [allLiterals, ih]

/-! ## Lists of expressions -/

theorem evalAll_upholds (composes : Compositional holds) {nodes : List Node}
    (parts : ∀ node ∈ nodes, holds Value good (node.eval scope)) :
    holds (List Value) (fun values => ∀ value ∈ values, good value) (evalAll scope nodes) := by
  induction nodes with
  | nil =>
      simp only [evalAll]
      exact composes.pure (by simp)
  | cons node nodes ih =>
      simp only [List.forall_mem_cons] at parts
      simp only [evalAll]
      apply composes.bind parts.1
      intro value valueGood
      apply composes.bind (ih parts.2)
      intro values valuesGood
      apply composes.pure
      simp only [List.forall_mem_cons]
      exact ⟨valueGood, valuesGood⟩

theorem evalAnd_upholds (composes : Compositional holds) {nodes : List Node}
    (parts : ∀ node ∈ nodes, holds Value good (node.eval scope)) {last : Value}
    (lastGood : good last) : holds Value good (evalAnd scope last nodes) := by
  induction nodes generalizing last with
  | nil =>
      simp only [evalAnd]
      exact composes.pure lastGood
  | cons node nodes ih =>
      simp only [List.forall_mem_cons] at parts
      simp only [evalAnd]
      apply composes.bind parts.1
      intro value valueGood
      split
      · exact ih parts.2 valueGood
      · exact composes.pure valueGood

theorem evalOr_upholds (composes : Compositional holds) {nodes : List Node}
    (parts : ∀ node ∈ nodes, holds Value good (node.eval scope)) {last : Value}
    (lastGood : good last) : holds Value good (evalOr scope last nodes) := by
  induction nodes generalizing last with
  | nil =>
      simp only [evalOr]
      exact composes.pure lastGood
  | cons node nodes ih =>
      simp only [List.forall_mem_cons] at parts
      simp only [evalOr]
      apply composes.bind parts.1
      intro value valueGood
      split
      · exact composes.pure valueGood
      · exact ih parts.2 valueGood

/-- Tests and consequents come in pairs; an odd last expression is never reached. -/
theorem evalCond_upholds (composes : Compositional holds) (nil : good .nil) :
    ∀ {nodes : List Node}, (∀ node ∈ nodes, holds Value good (node.eval scope)) →
      holds Value good (evalCond scope nodes)
  | [], _ => by
      simp only [evalCond]
      exact composes.pure nil
  | [_], _ => by
      simp only [evalCond]
      exact composes.pure nil
  | test :: consequent :: rest, parts => by
      simp only [List.forall_mem_cons] at parts
      simp only [evalCond]
      apply composes.bind parts.1
      intro value _
      split
      · exact parts.2.1
      · exact evalCond_upholds composes nil parts.2.2

/-! ## Expressions and programs -/

theorem evalSpecial_upholds (upholds : scope.Upholds holds good) (operation : Operation)
    {arguments : List Node} (parts : ∀ argument ∈ arguments, holds Value good (argument.eval scope)) :
    holds Value good (evalSpecial scope operation arguments) := by
  apply evalSpecial_cases
  case and => exact evalAnd_upholds upholds.toCompositional parts upholds.truth
  case or => exact evalOr_upholds upholds.toCompositional parts upholds.nil
  case ite =>
    intro condition consequent alternative equal
    simp only [equal, List.forall_mem_cons] at parts
    apply upholds.bind parts.1
    intro value _
    split
    · exact parts.2.1
    · exact parts.2.2.1
  case cond => exact evalCond_upholds upholds.toCompositional upholds.nil parts
  case arity =>
    intro expected
    exact upholds.refusal _ rfl
  case function =>
    intro builtin
    exact upholds.refusal _ rfl

theorem evalHead_upholds {head : Node}
    (lookups : ∀ use ∈ head.headUses, holds Value good (.ofResult (scope.lookup use)))
    (part : (∀ use ∈ head.uses, holds Value good (.ofResult (scope.lookup use))) →
      holds Value good (head.eval scope)) :
    holds Value good (head.evalHead scope) := by
  cases head with
  | symbol name => exact lookups (.head name) (by simp [headUses])
  | _ => exact part lookups

/-- An expression has every property that its literals, its names and all calls uphold. -/
theorem eval_upholds (upholds : scope.Upholds holds good) (node : Node)
    (literals : ∀ value ∈ node.literals, good value)
    (lookups : ∀ use ∈ node.uses, holds Value good (.ofResult (scope.lookup use))) :
    holds Value good (node.eval scope) := by
  induction node using Node.induction with
  | atom value =>
      simp only [eval]
      exact upholds.pure (literals value (by simp [Node.literals]))
  | symbol name =>
      simp only [eval]
      exact lookups (.operand name) (by simp [uses])
  | form elements parts =>
      cases elements with
      | nil =>
          simp only [eval_form_nil]
          apply upholds.bind upholds.charge
          intro _ _
          apply upholds.within
          exact upholds.refusal _ rfl
      | cons head arguments =>
          simp only [List.forall_mem_cons] at parts
          simp only [Node.literals, allLiterals, List.forall_mem_append] at literals
          simp only [uses_form_cons, List.forall_mem_append] at lookups
          have argumentsHold : ∀ argument ∈ arguments, holds Value good (argument.eval scope) := by
            intro argument argumentMem
            apply parts.2 argument argumentMem
            · intro value valueMem
              exact literals.2 value (mem_allLiterals.mpr ⟨argument, argumentMem, valueMem⟩)
            · intro use useMem
              exact lookups.2 use (mem_allUses.mpr ⟨argument, argumentMem, useMem⟩)
          simp only [eval_form_cons]
          apply upholds.bind upholds.charge
          intro _ _
          apply upholds.within
          apply upholds.bind (evalHead_upholds lookups.1 (parts.1 literals.1))
          intro callee calleeGood
          apply upholds.bind (evalAll_upholds upholds.toCompositional argumentsHold)
          intro values valuesGood
          exact upholds.call_value calleeGood valuesGood
  | special operation arguments parts =>
      simp only [Node.literals] at literals
      simp only [uses] at lookups
      simp only [eval_special]
      apply upholds.bind upholds.charge
      intro _ _
      apply upholds.within
      apply evalSpecial_upholds upholds
      intro argument argumentMem
      apply parts argument argumentMem
      · intro value valueMem
        exact literals value (mem_allLiterals.mpr ⟨argument, argumentMem, valueMem⟩)
      · intro use useMem
        exact lookups use (mem_allUses.mpr ⟨argument, argumentMem, useMem⟩)

theorem evalProgram_upholds (upholds : scope.Upholds holds good) {nodes : List Node}
    (literals : ∀ value ∈ allLiterals nodes, good value)
    (lookups : ∀ use ∈ allUses nodes, holds Value good (.ofResult (scope.lookup use)))
    {last : Value} (lastGood : good last) :
    holds Value good (evalProgram scope last nodes) := by
  induction nodes generalizing last with
  | nil => exact upholds.pure lastGood
  | cons node nodes ih =>
      simp only [allLiterals, List.forall_mem_append] at literals
      simp only [allUses, List.forall_mem_append] at lookups
      simp only [evalProgram]
      apply upholds.bind (eval_upholds upholds node literals.1 lookups.1)
      intro value valueGood
      exact ih literals.2 lookups.2 valueGood

end Node

end MeteredRules
