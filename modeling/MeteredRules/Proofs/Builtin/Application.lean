import MeteredRules.Proofs.Builtin.Call
import MeteredRules.Proofs.Value.Parts

/-!
# Calls inside calls

A call of `apply` makes another call, with the elements of an array that is one of its arguments,
and the function that it calls may be `apply` again. No operation is charged for that, so that it is
the nesting of the arguments that ends such a chain: the arguments of each call are nested less deep
than those of the call around it.

A call with a bound on the length of the chain is the same as the call itself as long as the bound
is greater than the number of nested calls. So any bound beyond the depth of the arguments will do.
-/

namespace MeteredRules.Callable

/-- What `apply` does, given how it performs the call that it makes. -/
def applying (perform : Callable → Function) : Function :=
  .checked Builtin.apply.arity <| .binary .value (.array .value) fun
    | .callable called, arguments => perform called arguments
    | other, _ => .ofResult (.error (.refuse (.notApplicable other)))

/-- A call within a bound on the calls inside one another; at the bound it is given up. -/
def callWithin (host : Host) (givenUp : Action Value) : (bound : Nat) → Callable → Function
  | 0, _ => fun _ => givenUp
  | bound + 1, .builtin .apply => applying (callWithin host givenUp bound)
  | _ + 1, .builtin (.primitive primitive) => primitive.call
  | _ + 1, .host _ key => host key

/-- The calls inside a call whose arguments are taken as one array. -/
def nestedIn : (arguments : Value) → Callable → List (Callable × List Value)
  | .array [function, arguments], .builtin .apply =>
    match arguments with
    | .array items =>
      match function with
      | .callable called => (called, items) :: nestedIn arguments called
      | _ => []
    | _ => []
  | _, _ => []

/-- The calls that a call makes through `apply`, each inside the one before it. -/
def nested (function : Callable) (arguments : List Value) : List (Callable × List Value) :=
  nestedIn (.array arguments) function

variable {function : Callable} {arguments : List Value}

theorem nested_of_ne_apply (notApply : function ≠ .builtin .apply) :
    function.nested arguments = [] := by
  rw [nested, nestedIn]
  rintro callee items - rfl
  exact notApply rfl

theorem applying_elements (perform : Callable → Function) (called : Callable) (items : List Value) :
    applying perform [.callable called, .array items] = perform called items := by
  rw [applying, Function.checked_of_accepts rfl]
  simp only [Function.binary, Parameter.array, ElementKind.view_value]
  rfl

/-- A call of `apply` makes one call with the elements of an array, or it fails. -/
theorem apply_cases (host : Host) (arguments : List Value) :
    (∃ called items, arguments = [.callable called, .array items] ∧
      (Callable.builtin .apply).nested arguments = (called, items) :: called.nested items ∧
      (Callable.builtin .apply).call host arguments = called.call host items) ∨
    ((Callable.builtin .apply).nested arguments = [] ∧
      ∀ perform, applying perform arguments = (Callable.builtin .apply).call host arguments) := by
  match arguments with
  | [function, .array items] =>
      cases function with
      | callable called => exact .inl ⟨called, items, rfl, rfl, rfl⟩
      | _ =>
          refine .inr ⟨rfl, ?_⟩
          intro perform
          rw [applying, Function.checked_of_accepts rfl]
          simp only [Function.binary, Parameter.array, ElementKind.view_value]
          rfl
  | [] | [_] | _ :: _ :: _ :: _ => exact .inr ⟨rfl, fun _ => rfl⟩
  | [_, .number _] | [_, .string _] | [_, .boolean _] | [_, .nil] | [_, .instant _]
  | [_, .callable _] => exact .inr ⟨rfl, fun _ => rfl⟩

/-- The bound is reached exactly if there are as many calls inside one another. -/
theorem callWithin_eq (host : Host) (givenUp : Action Value) (bound : Nat) (function : Callable)
    (arguments : List Value) :
    callWithin host givenUp bound function arguments =
      if (function.nested arguments).length < bound then function.call host arguments
      else givenUp := by
  induction bound generalizing function arguments with
  | zero => rfl
  | succ bound ih =>
      cases function with
      | host id key =>
          rw [nested_of_ne_apply (by simp), List.length_nil, if_pos bound.succ_pos, callWithin,
            call_host]
      | builtin builtin =>
          cases builtin with
          | primitive primitive =>
              rw [nested_of_ne_apply (by simp), List.length_nil, if_pos bound.succ_pos, callWithin,
                call, callWith]
          | apply =>
              rw [callWithin]
              rcases apply_cases host arguments with
                ⟨called, items, rfl, nested_eq, call_eq⟩ | ⟨nested_eq, applying_eq⟩
              · rw [applying_elements, ih, nested_eq, call_eq]
                simp only [List.length_cons, Nat.add_lt_add_iff_right]
              · rw [applying_eq, nested_eq]
                rfl

/-- The arguments of each call inside another are nested less deep. -/
theorem length_nested_le (function : Callable) (arguments : List Value) :
    (function.nested arguments).length ≤ Value.greatestDepth arguments := by
  by_cases isApply : function = .builtin .apply
  · subst isApply
    rcases apply_cases (fun _ _ => .ofResult (.ok .nil)) arguments with
      ⟨called, items, rfl, nested_eq, _⟩ | ⟨nested_eq, _⟩
    · have deeper :
          Value.greatestDepth items < Value.greatestDepth [.callable called, .array items] := by
        simp [Value.greatestDepth, Value.depth]
      have inner := length_nested_le called items
      rw [nested_eq]
      exact Nat.le_trans (Nat.succ_le_succ inner) deeper
    · rw [nested_eq]
      exact Nat.zero_le _
  · rw [nested_of_ne_apply isApply]
    exact Nat.zero_le _
termination_by Value.greatestDepth arguments

/--
Every call ends, with at most as many calls of `apply` inside one another as the arrays among its
arguments are nested, and with none if no argument is an array. A bound on the calls inside one
another is reached exactly if there are as many, so that every bound beyond the nesting of the
arguments gives the call its result, whatever would be done at the bound.
-/
theorem call_ends (host : Host) (function : Callable) (arguments : List Value) :
    (function.nested arguments).length ≤ Value.greatestDepth arguments ∧
    ((∀ argument ∈ arguments, ∀ items, argument ≠ .array items) →
      function.nested arguments = []) ∧
    ∀ givenUp bound,
      (callWithin host givenUp bound function arguments =
        if (function.nested arguments).length < bound then function.call host arguments
        else givenUp) ∧
      (Value.greatestDepth arguments + 1 ≤ bound →
        callWithin host givenUp bound function arguments = function.call host arguments) := by
  have shallow := length_nested_le function arguments
  refine ⟨shallow, ?_, ?_⟩
  · intro noArray
    rw [Value.greatestDepth_eq_zero noArray, Nat.le_zero, List.length_eq_zero_iff] at shallow
    exact shallow
  · intro givenUp bound
    have within := callWithin_eq host givenUp bound function arguments
    refine ⟨within, ?_⟩
    intro enough
    rw [within, if_pos (Nat.lt_of_le_of_lt shallow enough)]

/-- A call of `apply` that calls `apply`, which calls a sum, and one without an array. -/
theorem call_ends_sum :
    let host : Host := fun _ _ => .ofResult (.ok .nil)
    let apply : Callable := .builtin .apply
    let operands : List Value := [.callable (.builtin (.primitive .add)), .array [.int 1, .int 2]]
    let arguments : List Value := [.callable apply, .array operands]
    Value.greatestDepth arguments + 1 ≤ 3 ∧
      (∀ givenUp, callWithin host givenUp 3 apply arguments = apply.call host arguments) ∧
      (∀ givenUp, callWithin host givenUp 2 apply arguments = givenUp) ∧
      (∀ argument ∈ [Value.callable apply, .nil], ∀ items, argument ≠ .array items) ∧
      apply.nested [.callable apply, .nil] = [] := by
  intro host apply operands arguments
  have noArray : ∀ argument ∈ [Value.callable apply, .nil], ∀ items, argument ≠ .array items := by
    simp
  have enough : Value.greatestDepth arguments + 1 ≤ 3 := by decide
  refine ⟨enough, ?_, ?_, noArray, (call_ends host apply _).2.1 noArray⟩
  · intro givenUp
    exact ((call_ends host apply arguments).2.2 givenUp 3).2 enough
  · intro givenUp
    exact ((call_ends host apply arguments).2.2 givenUp 2).1

end MeteredRules.Callable
