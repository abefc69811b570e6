import MeteredRules.Proofs.Builtin.Answer

/-!
# The order of checks

A call of a built-in function checks the number of its arguments first, then their types from left
to right, and computes only with arguments that passed. What the arguments are does not matter
where their number is refused, and what the computation would come to does not matter where an
argument has the wrong type.

The functions of arithmetic take their arguments in three ways: all of them as a rest, a first one
and a rest, or two. In each of them the leftmost argument that is no number decides the answer.
-/

namespace MeteredRules

namespace Value

/-- Whether a value is a number of either kind. -/
def isNumber : Value → Bool
  | .number _ => true
  | _ => false

/-- The leftmost value of a list that is no number. -/
def leftmostOther? (values : List Value) : Option Value :=
  values.find? fun value => !value.isNumber

theorem isNumber_iff {value : Value} :
    value.isNumber = true ↔ ∃ amount, value = .number amount := by
  cases value with
  | number amount => simp [isNumber]
  | _ => simp [isNumber]

theorem leftmostOther?_of_other {value : Value} (other : value.isNumber = false)
    (values : List Value) : leftmostOther? (value :: values) = some value := by
  simp [leftmostOther?, other]

end Value

namespace Parameter

theorem number_of_other {value : Value} (other : value.isNumber = false) :
    number value = mismatch .number value := by
  cases value with
  | number amount => cases other
  | _ => rfl

end Parameter

/-- A list of arguments is refused for the leftmost of them that is no number. -/
theorem ElementKind.view_number_of_leftmostOther? {arguments : List Value} {refused : Value}
    (leftmost : Value.leftmostOther? arguments = some refused) :
    number.view arguments = Parameter.mismatch .number refused := by
  apply view_eq_error_iff.mpr
  apply refuseOther_eq_error_iff.mpr
  exact ⟨refused, leftmost, rfl⟩

namespace Function

variable {refused : Value}

/-- A parameter for a number refuses its argument, or else what follows it decides. -/
theorem ofResult_number_bind {argument : Value} {rest : List Value}
    (leftmost : Value.leftmostOther? (argument :: rest) = some refused)
    {next : Number → Action Value}
    (later : Value.leftmostOther? rest = some refused →
      ∀ amount, next amount = .ofResult (Parameter.mismatch .number refused)) :
    (Action.ofResult (Parameter.number argument) >>= next) =
      .ofResult (Parameter.mismatch .number refused) := by
  cases isNumber : argument.isNumber with
  | true =>
      rcases Value.isNumber_iff.mp isNumber with ⟨amount, rfl⟩
      exact later leftmost amount
  | false =>
      rw [Value.leftmostOther?_of_other isNumber] at leftmost
      cases leftmost
      rw [Parameter.number_of_other isNumber]
      rfl

/-- A function that refuses the leftmost of its arguments that is no number, if there is one. -/
def TakesNumbers (arity : Arity) (function : Function) : Prop :=
  ∀ arguments, arity.accepts arguments.length = true →
    ∀ refused, Value.leftmostOther? arguments = some refused →
      function arguments = .ofResult (Parameter.mismatch .number refused)

theorem takesNumbers_variadic (body : List Number → Action Value) :
    TakesNumbers .any (variadic .number body) := by
  intro arguments _ refused leftmost
  rw [variadic, ElementKind.view_number_of_leftmostOther? leftmost]
  rfl

theorem takesNumbers_variadicAfter (body : Number → List Number → Action Value) {least : Nat} :
    TakesNumbers (.atLeast (least + 1)) (variadicAfter .number .number body) := by
  intro arguments accepted refused leftmost
  cases arguments with
  | nil => simp [Arity.accepts] at accepted
  | cons argument rest =>
      apply ofResult_number_bind leftmost
      intro leftmostOfRest amount
      rw [ElementKind.view_number_of_leftmostOther? leftmostOfRest]
      rfl

theorem takesNumbers_binary (body : Number → Number → Action Value) :
    TakesNumbers (.exact 2) (binary .number .number body) := by
  intro arguments accepted refused leftmost
  rcases List.length_eq_two.mp (by simpa [Arity.accepts] using accepted) with ⟨left, right, rfl⟩
  apply ofResult_number_bind leftmost
  intro leftmostOfRest amount
  apply ofResult_number_bind leftmostOfRest
  intro none
  cases none

end Function

/-! ## Calls -/

namespace Primitive

/-- The functions of arithmetic. -/
def arithmetic : List Primitive :=
  [.add, .subtract, .multiply, .divide, .modulo]

theorem takesNumbers_body {primitive : Primitive} (isArithmetic : primitive ∈ arithmetic) :
    Function.TakesNumbers primitive.arity primitive.body := by
  simp only [arithmetic, List.mem_cons, List.not_mem_nil, or_false] at isArithmetic
  rcases isArithmetic with rfl | rfl | rfl | rfl | rfl
  · exact Function.takesNumbers_variadic _
  · exact Function.takesNumbers_variadicAfter _
  · exact Function.takesNumbers_variadicAfter _
  · exact Function.takesNumbers_variadicAfter _
  · exact Function.takesNumbers_binary _

end Primitive

namespace Callable

variable {function : Builtin} {arguments : List Value}

/-- A refused number of arguments is reported, whatever the arguments are. -/
theorem call_builtin_of_refused (host : Host)
    (refused : function.arity.accepts arguments.length = false) :
    (Callable.builtin function).call host arguments =
      .ofResult (.error
        (.arity (function.arity.expected arguments.length) arguments.length none)) := by
  cases function with
  | primitive primitive =>
      rw [call, callWith, Primitive.call]
      exact Function.checked_of_refused refused primitive.body
  | apply =>
      have notTwo : arguments.length ≠ 2 := by
        simpa [Builtin.arity, Arity.accepts] using refused
      rcases arguments with _ | ⟨first, _ | ⟨second, _ | ⟨third, rest⟩⟩⟩
      · rfl
      · rfl
      · exact absurd rfl notTwo
      · rfl

end Callable

/--
A call of a built-in function checks the number of its arguments first, their types second, and then
computes. A number that its arity refuses is reported, whatever the arguments are. With an accepted
number every function but `apply` gives a value, refuses an argument or fails in its computation, so
that the number is not reported by a later check. The functions of arithmetic refuse the leftmost
argument that is no number, also behind numbers with which the computation would fail.
-/
theorem Callable.checks_operands (host : Host) (function : Builtin) (arguments : List Value) :
    let action := (Callable.builtin function).call host arguments
    (function.arity.accepts arguments.length = false →
      action = .ofResult (.error
        (.arity (function.arity.expected arguments.length) arguments.length none))) ∧
    (function.arity.accepts arguments.length = true →
      (function ≠ .apply → ∀ clock,
        (∃ value, (action.run clock).1 = .ok value) ∨
        (∃ cause trail, (action.run clock).1 = .error (.argument cause trail)) ∨
        ∃ cause trail, (action.run clock).1 = .error (.evaluation cause trail)) ∧
      ∀ primitive ∈ Primitive.arithmetic, function = .primitive primitive →
        ∀ refused, Value.leftmostOther? arguments = some refused →
          action = .ofResult (.error (.refuse (.mismatch .number refused)))) := by
  intro action
  refine ⟨call_builtin_of_refused host, ?_⟩
  intro accepted
  refine ⟨?_, ?_⟩
  · intro notApply clock
    cases function with
    | apply => exact absurd rfl notApply
    | primitive primitive =>
        have answers := primitive.obedient_body arguments accepted clock
        rw [← call_primitive host accepted] at answers
        rcases ended : (action.run clock).1 with error | value
        · rw [ended] at answers
          cases error with
          | argument cause trail => exact .inr (.inl ⟨cause, trail, rfl⟩)
          | evaluation cause trail => exact .inr (.inr ⟨cause, trail, rfl⟩)
          | parse | arity | budget | unbound => cases answers
        · exact .inl ⟨value, rfl⟩
  · rintro primitive isArithmetic rfl refused leftmost
    have called : action = primitive.body arguments := call_primitive host accepted
    rw [called]
    exact Primitive.takesNumbers_body isArithmetic arguments accepted refused leftmost

/--
A string behind a division by zero is refused as an operand, and the present instant takes no
argument, whatever it is. An array in place of numbers is no matter of how many arguments there are.
-/
theorem Callable.checks_operands_division :
    let host : Host := fun _ _ => .ofResult (.ok .nil)
    let call := fun primitive => (Callable.builtin (.primitive primitive)).call host
    let operands : List Value := [.int 1, .int 0, .string "x", .nil]
    Primitive.divide.arity.accepts operands.length = true ∧
      Value.leftmostOther? operands = some (.string "x") ∧
      call .divide operands = .ofResult (.error (.refuse (.mismatch .number (.string "x")))) ∧
      Primitive.now.arity.accepts operands.length = false ∧
      call .now operands = .ofResult (.error (.arity 0 4 none)) ∧
      Primitive.max.arity.accepts [Value.array operands].length = true ∧
      ∀ clock,
        (∃ value, ((call .max [.array operands]).run clock).1 = .ok value) ∨
        (∃ cause trail, ((call .max [.array operands]).run clock).1 =
          .error (.argument cause trail)) ∨
        ∃ cause trail, ((call .max [.array operands]).run clock).1 =
          .error (.evaluation cause trail) := by
  intro host call operands
  have divided := checks_operands host (.primitive .divide) operands
  have presented := checks_operands host (.primitive .now) operands
  have compared := checks_operands host (.primitive .max) [.array operands]
  refine ⟨rfl, rfl, ?_, rfl, presented.1 rfl, rfl, (compared.2 rfl).1 (by simp)⟩
  exact (divided.2 rfl).2 .divide (by simp [Primitive.arithmetic]) rfl _ rfl

end MeteredRules
