import MeteredRules.Callable
import MeteredRules.Environment
import MeteredRules.Meter

/-!
# Evaluation

The value of an expression, by recursion over the expression. A literal is its own value and a name
is looked up; every form is charged to the meter before anything in it is evaluated. Errors are
marked with the forms that they leave. The meter and the clock are kept when an evaluation fails.
-/

namespace MeteredRules

/-- What changes during an evaluation. -/
structure Machine where
  meter : Meter
  clock : Clock

/-- A computation that may fail, is charged to the meter and may read the clock. -/
abbrev Evaluation := ExceptT Error (StateM Machine)

/-- What stays the same during an evaluation: the functions of the host and the bindings. -/
structure Scope where
  host : Host
  environment : Environment

namespace Evaluation

/-- An evaluation that changes nothing. -/
def ofResult {α : Type} (result : Except Error α) : Evaluation α :=
  ExceptT.mk (pure result)

/-- Charges one operation. -/
def charge : Evaluation Unit :=
  ExceptT.mk fun machine =>
    let meter := machine.meter.advance
    (meter.check, { machine with meter })

/-- Performs an action on the clock. -/
def ofAction {α : Type} (action : Action α) : Evaluation α :=
  ExceptT.mk fun machine =>
    let (result, clock) := action.run machine.clock
    (result, { machine with clock })

/-- Marks the errors of a computation with the expression that they leave. -/
def within {α : Type} (node : Node) (computation : Evaluation α) : Evaluation α :=
  ExceptT.adapt (Error.within node) computation

end Evaluation

namespace Scope

/--
The value of a name: its binding, or else the built-in function of that name. The names of special
forms have no value.
-/
def resolve (scope : Scope) (name : String) : Except Error Value :=
  match SpecialForm.ofName? name with
  | some form => .error (.refuse (.reservedName form))
  | none =>
    match scope.environment.get? name with
    | some value => .ok value
    | none =>
      match Builtin.ofName? name with
      | some function => .ok (.callable (.builtin function))
      | none => .error (.unbound name)

/--
The value of a name at the head of a form. There a built-in function gives way only to a binding
that is a function.
-/
def resolveHead (scope : Scope) (name : String) : Except Error Value :=
  match scope.environment.get? name with
  | some (.callable function) => .ok (.callable function)
  | bound =>
    match Builtin.ofName? name with
    | some function => .ok (.callable (.builtin function))
    | none =>
      match bound with
      | some value => .ok value
      | none => scope.resolve name

/-- Calls the value of the head of a form. -/
def call (scope : Scope) (callee : Value) (arguments : List Value) : Evaluation Value :=
  match callee with
  | .callable function => .ofAction (function.call scope.host arguments)
  | other => .ofResult (.error (.refuse (.notCallable other)))

end Scope

namespace Node

mutual

/-- The value of an expression. -/
def eval (scope : Scope) : Node → Evaluation Value
  | .atom value => pure value
  | .symbol name => .ofResult (scope.resolve name)
  | .form elements => do
    Evaluation.charge
    Evaluation.within (.form elements) <|
      match elements with
      | [] => .ofResult (.error (.refuse .emptyForm))
      | head :: arguments => do
        let callee ← match head with
          | .symbol name => .ofResult (scope.resolveHead name)
          | _ => head.eval scope
        let values ← evalAll scope arguments
        scope.call callee values
  | .special operation arguments => do
    Evaluation.charge
    Evaluation.within (.special operation arguments) <|
      match operation, arguments with
      | .form .and, arguments => evalAnd scope (.boolean true) arguments
      | .form .or, arguments => evalOr scope .nil arguments
      | .form .ite, [condition, consequent, alternative] => do
        if (← condition.eval scope).isTruthy then consequent.eval scope
        else alternative.eval scope
      | .form .ite, arguments => .ofResult (.error (.arity 3 arguments.length none))
      | .form .cond, arguments =>
        if arguments.length % 2 = 0 then evalCond scope arguments
        else .ofResult (.error (.arity (arguments.length + 1) arguments.length none))
      | .function function, _ =>
        .ofResult (.error (.fail (.notSpecialForm (.function function))))

/-- The values of the arguments of a form, from left to right. -/
def evalAll (scope : Scope) : List Node → Evaluation (List Value)
  | [] => pure []
  | node :: nodes => do
    let value ← node.eval scope
    let values ← evalAll scope nodes
    return value :: values

/-- The first false value of the operands, or the last value; `last` stands for no operands. -/
def evalAnd (scope : Scope) (last : Value) : List Node → Evaluation Value
  | [] => pure last
  | node :: nodes => do
    let value ← node.eval scope
    if value.isTruthy then evalAnd scope value nodes else return value

/-- The first true value of the operands, or the last value; `last` stands for no operands. -/
def evalOr (scope : Scope) (last : Value) : List Node → Evaluation Value
  | [] => pure last
  | node :: nodes => do
    let value ← node.eval scope
    if value.isTruthy then return value else evalOr scope value nodes

/-- The value after the first test that is true, or `nil`. -/
def evalCond (scope : Scope) : List Node → Evaluation Value
  | test :: consequent :: rest => do
    if (← test.eval scope).isTruthy then consequent.eval scope else evalCond scope rest
  | _ => pure .nil

end

/-- Evaluates expressions in order; the result is the last value, or a given one if there is none. -/
def evalProgram (scope : Scope) (last : Value) : List Node → Evaluation Value
  | [] => pure last
  | node :: nodes => do
    let value ← node.eval scope
    evalProgram scope value nodes

end Node

/-- How an evaluation ended: its result, the operations charged and the clock that it left. -/
structure Outcome where
  result : Except Error Value
  charged : UInt64
  clock : Clock

namespace Outcome

/-- The outcome of an evaluation that was not started. -/
def ofError (error : Error) (clock : Clock) : Outcome :=
  ⟨.error error, 0, clock⟩

/-- Evaluates expressions with a fresh meter. -/
def ofNodes (scope : Scope) (limit : Option UInt64) (nodes : List Node) (clock : Clock) : Outcome :=
  let (result, machine) := (Node.evalProgram scope .nil nodes).run ⟨Meter.ofLimit limit, clock⟩
  ⟨result, machine.meter.count, machine.clock⟩

end Outcome

end MeteredRules
