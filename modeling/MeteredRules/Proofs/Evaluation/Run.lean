import MeteredRules.Evaluation
import MeteredRules.Proofs.Error

/-!
# Running evaluations

What each building block of an evaluation does with a machine. An evaluation ends with a result and
a machine in any case; a sequence stops at the first error and keeps the machine that it left.

The evaluation of a form is restated through two named parts, the value of its head and the rule of
a special form, so that each of them can be reasoned about on its own.
-/

namespace MeteredRules

namespace Evaluation

variable {α β : Type}

@[simp]
theorem run_pure (value : α) (machine : Machine) :
    (pure value : Evaluation α).run machine = (.ok value, machine) :=
  rfl

@[simp]
theorem run_ofResult (result : Except Error α) (machine : Machine) :
    (ofResult result).run machine = (result, machine) :=
  rfl

@[simp]
theorem run_charge (machine : Machine) :
    charge.run machine =
      (machine.meter.advance.check, { machine with meter := machine.meter.advance }) :=
  rfl

@[simp]
theorem run_ofAction (action : Action α) (machine : Machine) :
    (ofAction action).run machine =
      ((action.run machine.clock).1, { machine with clock := (action.run machine.clock).2 }) :=
  rfl

theorem run_bind_ok {computation : Evaluation α} {machine left : Machine} {value : α}
    (first : computation.run machine = (.ok value, left)) (next : α → Evaluation β) :
    (computation >>= next).run machine = (next value).run left := by
  rw [Error.run_bind, first]

theorem run_bind_error {computation : Evaluation α} {machine left : Machine} {error : Error}
    (first : computation.run machine = (.error error, left)) (next : α → Evaluation β) :
    (computation >>= next).run machine = (.error error, left) := by
  rw [Error.run_bind, first]

theorem run_within (node : Node) (computation : Evaluation α) (machine : Machine) :
    (within node computation).run machine =
      ((computation.run machine).1.mapError (Error.within node), (computation.run machine).2) :=
  rfl

end Evaluation

namespace Node

/-- The value of the head of a form, where a name is looked up among the functions first. -/
def evalHead (scope : Scope) : Node → Evaluation Value
  | .symbol name => .ofResult (scope.resolveHead name)
  | head => head.eval scope

/-- What a special form does with its arguments once it is charged. -/
def evalSpecial (scope : Scope) : Operation → List Node → Evaluation Value
  | .form .and, arguments => evalAnd scope (.boolean true) arguments
  | .form .or, arguments => evalOr scope .nil arguments
  | .form .ite, [condition, consequent, alternative] => do
      if (← condition.eval scope).isTruthy then consequent.eval scope
      else alternative.eval scope
  | .form .ite, arguments => .ofResult (.error (.arity 3 arguments.length none))
  | .form .cond, arguments =>
      if arguments.length % 2 = 0 then evalCond scope arguments
      else .ofResult (.error (.arity (arguments.length + 1) arguments.length none))
  | .function function, _ => .ofResult (.error (.fail (.notSpecialForm (.function function))))

/--
What holds of each rule of a special form, and of the two ways to refuse one, holds of whatever a
special form does with its arguments.
-/
@[elab_as_elim]
theorem evalSpecial_cases {scope : Scope} {arguments : List Node}
    {motive : Evaluation Value → Prop}
    (and : motive (evalAnd scope (.boolean true) arguments))
    (or : motive (evalOr scope .nil arguments))
    (ite : ∀ condition consequent alternative, arguments = [condition, consequent, alternative] →
      motive (do
        if (← condition.eval scope).isTruthy then consequent.eval scope
        else alternative.eval scope))
    (cond : motive (evalCond scope arguments))
    (arity : ∀ expected, motive (.ofResult (.error (.arity expected arguments.length none))))
    (function : ∀ builtin,
      motive (.ofResult (.error (.fail (.notSpecialForm (.function builtin))))))
    (operation : Operation) : motive (evalSpecial scope operation arguments) := by
  fun_cases evalSpecial scope operation arguments with
  | case1 => exact and
  | case2 => exact or
  | case3 condition consequent alternative => exact ite condition consequent alternative rfl
  | case4 => exact arity 3
  | case5 => exact cond
  | case6 => exact arity _
  | case7 builtin => exact function builtin

theorem eval_form_nil (scope : Scope) :
    (form []).eval scope = (do
      Evaluation.charge
      Evaluation.within (.form []) (.ofResult (.error (.refuse .emptyForm)))) := by
  rw [eval]

theorem eval_form_cons (scope : Scope) (head : Node) (arguments : List Node) :
    (form (head :: arguments)).eval scope = (do
      Evaluation.charge
      Evaluation.within (.form (head :: arguments)) do
        let callee ← head.evalHead scope
        let values ← evalAll scope arguments
        scope.call callee values) := by
  rw [eval]
  cases head <;> rfl

theorem eval_special (scope : Scope) (operation : Operation) (arguments : List Node) :
    (special operation arguments).eval scope = (do
      Evaluation.charge
      Evaluation.within (.special operation arguments)
        (evalSpecial scope operation arguments)) := by
  rw [eval.eq_def]
  rfl

end Node

end MeteredRules
