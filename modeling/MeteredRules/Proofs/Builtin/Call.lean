import MeteredRules.Callable

/-!
# Calls of primitives

A call of a primitive with a number of arguments that it accepts is its body on these arguments. A
parameter for any value takes an argument as it is, so that a body over such parameters computes on
the arguments themselves.
-/

namespace MeteredRules

theorem Action.ofResult_inj {left right : Except Error Value}
    (same : Action.ofResult left = Action.ofResult right) : left = right :=
  congrArg (fun action : Action Value => (action.run (.still .epoch)).1) same

theorem ElementKind.view_value (items : List Value) : ElementKind.value.view items = .ok items :=
  view_eq_ok_iff.mpr ⟨rfl, rfl⟩

namespace Function

theorem variadicAfter_value (body : Value → List Value → Action Value) (first : Value)
    (rest : List Value) : variadicAfter .value .value body (first :: rest) = body first rest := by
  simp only [variadicAfter, ElementKind.view_value]
  rfl

theorem binary_value (body : Value → Value → Action Value) (left right : Value) :
    binary .value .value body [left, right] = body left right :=
  rfl

theorem unary_elements (body : List Value → Action Value) (items : List Value) :
    unary (.array .value) body [.array items] = body items := by
  simp only [unary, Parameter.array, ElementKind.view_value]
  rfl

theorem checked_of_accepts {arity : Arity} {arguments : List Value}
    (accepted : arity.accepts arguments.length = true) (body : Function) :
    checked arity body arguments = body arguments := by
  have check_eq : arity.check arguments.length = .ok () := if_pos accepted
  rw [checked, check_eq]
  rfl

theorem checked_of_refused {arity : Arity} {arguments : List Value}
    (refused : arity.accepts arguments.length = false) (body : Function) :
    checked arity body arguments =
      .ofResult (.error (.arity (arity.expected arguments.length) arguments.length none)) := by
  have check_eq : arity.check arguments.length =
      .error (.arity (arity.expected arguments.length) arguments.length none) :=
    if_neg (by simp [refused])
  rw [checked, check_eq]
  rfl

end Function

namespace Callable

theorem call_primitive (host : Host) {primitive : Primitive} {arguments : List Value}
    (accepted : primitive.arity.accepts arguments.length = true) :
    (Callable.builtin (.primitive primitive)).call host arguments = primitive.body arguments := by
  rw [call, callWith, Primitive.call, Function.checked_of_accepts accepted]

theorem call_host (host : Host) (id key : String) : (Callable.host id key).call host = host key := by
  funext arguments
  rw [call, callWith]

/-- The built-in function `array` gives its arguments as an array. -/
theorem call_array (host : Host) (arguments : List Value) :
    (Callable.builtin (.primitive .array)).call host arguments = pure (.array arguments) := by
  rw [call_primitive host rfl]
  simp only [Primitive.body, Function.variadic, ElementKind.view_value]
  rfl

end Callable

end MeteredRules
