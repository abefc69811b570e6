import MeteredRules.Proofs.Evaluation.Provenance

/-!
# Evaluation without the clock

Three primitives read the clock. A program that names none of them, in an environment without
functions, cannot get at them in another way either: every function that comes up during its
evaluation, be it as a literal head, out of an array or through `apply`, is a built-in function that
the program has named. All calls are then calls of functions that leave the clock alone, and the
evaluation ends in the same way whatever the clock shows.
-/

namespace MeteredRules

variable {α β : Type}

/-! ## Functions that leave the clock alone -/

namespace Action

/-- An action that neither reads the clock nor depends on it. -/
def Timeless (action : Action α) : Prop :=
  ∃ result, action = ofResult result

theorem timeless_ofResult (result : Except Error α) : Timeless (ofResult result) :=
  ⟨result, rfl⟩

theorem timeless_pure (value : α) : Timeless (pure value : Action α) :=
  ⟨.ok value, rfl⟩

theorem Timeless.bind {first : Action α} {next : α → Action β} (timeless : first.Timeless)
    (rest : ∀ value, (next value).Timeless) : (first >>= next).Timeless := by
  rcases timeless with ⟨error | value, rfl⟩
  · exact timeless_ofResult (.error error)
  · exact rest value

end Action

namespace Function

/-- A function that leaves the clock alone, whatever its arguments are. -/
def Timeless (function : Function) : Prop :=
  ∀ arguments, (function arguments).Timeless

theorem timeless_unary {parameter : Parameter α} {body : α → Action Value}
    (timeless : ∀ converted, (body converted).Timeless) : Timeless (unary parameter body) := by
  intro arguments
  match arguments with
  | [argument] => exact (Action.timeless_ofResult _).bind timeless
  | [] => exact Action.timeless_ofResult _
  | _ :: _ :: _ => exact Action.timeless_ofResult _

theorem timeless_binary {first : Parameter α} {second : Parameter β}
    {body : α → β → Action Value} (timeless : ∀ left right, (body left right).Timeless) :
    Timeless (binary first second body) := by
  intro arguments
  match arguments with
  | [left, right] =>
      apply (Action.timeless_ofResult _).bind
      intro convertedLeft
      exact (Action.timeless_ofResult _).bind (timeless convertedLeft)
  | [] => exact Action.timeless_ofResult _
  | [_] => exact Action.timeless_ofResult _
  | _ :: _ :: _ :: _ => exact Action.timeless_ofResult _

theorem timeless_variadic {kind : ElementKind α} {body : List α → Action Value}
    (timeless : ∀ elements, (body elements).Timeless) : Timeless (variadic kind body) :=
  fun _ => (Action.timeless_ofResult _).bind timeless

theorem timeless_variadicAfter {first : Parameter α} {kind : ElementKind β}
    {body : α → List β → Action Value} (timeless : ∀ leading rest, (body leading rest).Timeless) :
    Timeless (variadicAfter first kind body) := by
  intro arguments
  cases arguments with
  | nil => exact Action.timeless_ofResult _
  | cons argument rest =>
      apply (Action.timeless_ofResult _).bind
      intro converted
      exact (Action.timeless_ofResult _).bind (timeless converted)

theorem timeless_checked (arity : Arity) {body : Function} (timeless : Timeless body) :
    Timeless (checked arity body) :=
  fun arguments => (Action.timeless_ofResult _).bind fun _ => timeless arguments

end Function

namespace Primitive

/-- The primitives that read the clock. -/
def readsClock : Primitive → Bool
  | .now | .ago | .fromNow => true
  | _ => false

theorem timeless_give (result : Except Error α) (asValue : α → Value) :
    (give result asValue).Timeless :=
  Action.timeless_ofResult _

theorem timeless_nonempty (function : Primitive) (body : Value → List Value → Value) :
    Function.Timeless (nonempty function body) := by
  apply Function.timeless_unary
  intro values
  cases values with
  | nil => exact Action.timeless_ofResult _
  | cons head tail => exact Action.timeless_pure _

theorem timeless_body {primitive : Primitive} (clockless : primitive.readsClock = false) :
    Function.Timeless primitive.body := by
  cases primitive with
  | add => exact Function.timeless_variadic fun _ => timeless_give _ _
  | array | str => exact Function.timeless_variadic fun _ => Action.timeless_pure _
  | subtract | multiply | divide | greater | less | greaterOrEqual | lessOrEqual | equal =>
      exact Function.timeless_variadicAfter fun _ _ => timeless_give _ _
  | modulo | notEqual => exact Function.timeless_binary fun _ _ => timeless_give _ _
  | member => exact Function.timeless_binary fun _ _ => Action.timeless_pure _
  | not | isNil | identity | upcase | downcase | strip =>
      exact Function.timeless_unary fun _ => Action.timeless_pure _
  | length | int | float | time | floor | ceil | round | days | hours | minutes | seconds =>
      exact Function.timeless_unary fun _ => timeless_give _ _
  | first | last | rest => exact timeless_nonempty _ _
  | max | min => exact Function.timeless_unary fun _ => Action.timeless_ofResult _
  | now | ago | fromNow => simp [readsClock] at clockless

theorem timeless_call {primitive : Primitive} (clockless : primitive.readsClock = false) :
    Function.Timeless primitive.call :=
  Function.timeless_checked primitive.arity (timeless_body clockless)

end Primitive

/-! ## Calls -/

/-- The functions that are known to leave the clock alone if their arguments hold only such. -/
def Callable.isClockless : Callable → Bool
  | .builtin (.primitive primitive) => !primitive.readsClock
  | .builtin .apply => true
  | .host _ _ => false

/-- A value in which only functions occur that leave the clock alone. -/
def Value.IsClockless (value : Value) : Prop :=
  ∀ function ∈ value.callables, function.isClockless = true

theorem Value.IsClockless.item {items : List Value} (clockless : (Value.array items).IsClockless)
    {item : Value} (itemMem : item ∈ items) : item.IsClockless := by
  intro function functionMem
  apply clockless function
  simp only [callables]
  exact callables_subset_of_mem itemMem functionMem

theorem Value.isClockless_of_callables_eq_nil {value : Value} (inert : value.callables = []) :
    value.IsClockless := by
  intro function functionMem
  simp [inert] at functionMem

theorem Primitive.conforms_call_isClockless (primitive : Primitive) {arguments : List Value}
    (each : (Value.array arguments).IsClockless) :
    Action.Conforms Value.IsClockless (fun _ => True) (primitive.call arguments) := by
  apply Action.Conforms.mono (primitive.obedient_call arguments)
  · intro value held function functionMem
    apply each function
    simp only [Value.callables]
    exact held functionMem
  · exact fun _ _ => trivial

/-- A call among functions that leave the clock alone leaves it alone and gives no other function. -/
theorem Callable.timeless_call (host : Host) {function : Callable}
    (clockless : function.isClockless = true) {arguments : List Value}
    (each : ∀ argument ∈ arguments, argument.IsClockless) :
    (function.call host arguments).Timeless ∧
      Action.Conforms Value.IsClockless (fun _ => True) (function.call host arguments) := by
  -- As in `callWith`, the recursion is on the arguments as one array.
  have packed_timeless : ∀ (packed : Value) (function : Callable), packed.IsClockless →
      function.isClockless = true → (function.callWith host packed).Timeless ∧
        Action.Conforms Value.IsClockless (fun _ => True) (function.callWith host packed) := by
    intro packed function
    fun_induction callWith host packed function with
    | case1 items called ih =>
        intro packedClockless _
        apply ih
        · exact packedClockless.item (by simp)
        · have calledClockless : (Value.callable called).IsClockless :=
            packedClockless.item (by simp)
          exact calledClockless called (by simp [Value.callables])
    | case2 | case3 | case4 | case7 =>
        intro _ _
        exact ⟨Action.timeless_ofResult _, Action.conforms_ofResult trivial⟩
    | case5 arguments primitive =>
        intro packedClockless functionClockless
        simp only [isClockless, Bool.not_eq_true'] at functionClockless
        exact ⟨Primitive.timeless_call functionClockless arguments,
          primitive.conforms_call_isClockless packedClockless⟩
    | case6 arguments id key =>
        intro _ functionClockless
        simp [isClockless] at functionClockless
  apply packed_timeless (.array arguments) function _ clockless
  intro called calledMem
  rcases Value.mem_allCallables.mp calledMem with ⟨argument, argumentMem, inArgument⟩
  exact each argument argumentMem called inArgument

/-! ## Programs -/

namespace Evaluation

/--
For every meter, a computation ends in the same way whatever the clock shows: with the same result,
whose value is good, with the same meter, and with the clock untouched.
-/
def Timeless (good : α → Prop) (computation : Evaluation α) : Prop :=
  ∀ meter, ∃ result left, Conforms good (fun _ => True) result ∧
    ∀ clock, computation.run ⟨meter, clock⟩ = (result, ⟨left, clock⟩)

variable {good : α → Prop}

theorem timeless_ofResult {result : Except Error α}
    (conforms : Conforms good (fun _ => True) result) : Timeless good (ofResult result) :=
  fun meter => ⟨result, meter, conforms, fun _ => rfl⟩

theorem timeless_ofAction {action : Action α} (timeless : action.Timeless)
    (conforms : action.Conforms good (fun _ => True)) : Timeless good (ofAction action) := by
  rcases timeless with ⟨result, rfl⟩
  intro meter
  -- The result does not depend on the clock, so that any clock will do to look at it.
  exact ⟨result, meter, conforms (.still .epoch), fun _ => rfl⟩

theorem timeless_charge : Timeless (fun _ => True) charge := by
  intro meter
  exact ⟨meter.advance.check, meter.advance, Conforms.any _, fun _ => rfl⟩

namespace Timeless

theorem within {computation : Evaluation α} (node : Node) (timeless : Timeless good computation) :
    Timeless good (Evaluation.within node computation) := by
  intro meter
  rcases timeless meter with ⟨result, left, conforms, same⟩
  refine ⟨result.mapError (Error.within node), left, conforms.mapError _, ?_⟩
  intro clock
  simp only [run_within, same]

theorem bind {final : β → Prop} {computation : Evaluation α} {next : α → Evaluation β}
    (timeless : Timeless good computation)
    (rest : ∀ value, good value → Timeless final (next value)) :
    Timeless final (computation >>= next) := by
  intro meter
  rcases timeless meter with ⟨error | value, left, conforms, same⟩
  · refine ⟨.error error, left, trivial, ?_⟩
    intro clock
    exact run_bind_error (same clock) next
  · rcases rest value conforms left with ⟨result, after, resultConforms, sameAfter⟩
    refine ⟨result, after, resultConforms, ?_⟩
    intro clock
    rw [run_bind_ok (same clock), sameAfter]

end Timeless

end Evaluation

theorem Scope.upholds_timeless (scope : Scope) :
    scope.Upholds (fun _ => Evaluation.Timeless) Value.IsClockless where
  pure valueGood := Evaluation.timeless_ofResult valueGood
  charge := Evaluation.timeless_charge
  within := Evaluation.Timeless.within
  bind := Evaluation.Timeless.bind
  truth := Value.isClockless_of_callables_eq_nil rfl
  nil := Value.isClockless_of_callables_eq_nil rfl
  refusal _ _ := Evaluation.timeless_ofResult trivial
  call function arguments functionGood each := by
    have clockless := functionGood function (by simp [Value.callables])
    rcases Callable.timeless_call scope.host clockless each with ⟨timeless, conforms⟩
    exact Evaluation.timeless_ofAction timeless conforms

/-- The names of the primitives that read the clock. -/
def clockNames : List String :=
  ["now", "ago", "from-now"]

theorem Builtin.name_of_ofName? {name : String} {function : Builtin}
    (found : ofName? name = some function) : function.name = name := by
  simpa using List.find?_some found

theorem Builtin.isClockless_of_ofName? {name : String} {function : Builtin}
    (found : ofName? name = some function) (unlisted : name ∉ clockNames) :
    (Callable.builtin function).isClockless = true := by
  obtain rfl := name_of_ofName? found
  rcases function with primitive | _
  · cases primitive with
    | now | ago | fromNow => simp [clockNames, name, Primitive.name] at unlisted
    | _ => rfl
  · rfl

/-- In an environment without functions, a name gives functions of the clock only by naming them. -/
theorem Scope.conforms_lookup_isClockless {scope : Scope}
    (inert : ∀ name value, scope.environment.get? name = some value → value.callables = [])
    {use : Use} (unlisted : use.name ∉ clockNames) :
    Conforms Value.IsClockless (fun _ => True) (scope.lookup use) := by
  have gives := scope.gives_lookup use
  generalize scope.lookup use = result at gives ⊢
  cases gives with
  | bound isBound => exact Value.isClockless_of_callables_eq_nil (inert _ _ isBound)
  | builtin isBuiltin =>
      intro function functionMem
      simp only [Value.callables, List.mem_singleton] at functionMem
      subst function
      exact Builtin.isClockless_of_ofName? isBuiltin unlisted
  | reserved | unbound => trivial

/--
A program that was read and names no function of the clock takes no reading of it in an environment
without functions, and its result and its cost do not depend on what the clock shows.
-/
theorem Outcome.ofNodes_timeless {options : Reader.Options} {source : String} {nodes : List Node}
    (accepted : Reader.read options source = .ok nodes)
    (unnamed : ∀ use ∈ Node.allUses nodes, use.name ∉ clockNames) (host : Host)
    {environment : Environment}
    (inert : ∀ name value, environment.get? name = some value → value.callables = [])
    (limit : Option UInt64) (clock other : Clock) :
    (ofNodes ⟨host, environment⟩ limit nodes clock).result =
        (ofNodes ⟨host, environment⟩ limit nodes other).result ∧
      (ofNodes ⟨host, environment⟩ limit nodes clock).charged =
        (ofNodes ⟨host, environment⟩ limit nodes other).charged ∧
      (ofNodes ⟨host, environment⟩ limit nodes clock).clock = clock := by
  have timeless : Evaluation.Timeless Value.IsClockless
      (Node.evalProgram ⟨host, environment⟩ .nil nodes) := by
    apply Node.evalProgram_upholds (Scope.upholds_timeless ⟨host, environment⟩)
    · intro value literal
      apply Value.isClockless_of_callables_eq_nil
      exact (Reader.sequence_of_read accepted).callables_of_literal literal
    · intro use used
      apply Evaluation.timeless_ofResult
      exact Scope.conforms_lookup_isClockless inert (unnamed use used)
    · exact Value.isClockless_of_callables_eq_nil rfl
  rcases timeless (Meter.ofLimit limit) with ⟨result, left, _, same⟩
  simp only [ofNodes, same, and_self]

/--
The program `(apply not (array x))` calls a function that it hands on as a value, and gives the same
result by a clock that stands still and by one that runs.
-/
theorem Outcome.ofNodes_timeless_apply :
    let nodes := [Node.form [.symbol "apply", .symbol "not", .form [.symbol "array", .symbol "x"]]]
    let environment := Environment.empty.define "x" (.array [.nil])
    let host : Host := fun _ _ => .ofResult (.ok .nil)
    Reader.read .standard "(apply not (array x))" = .ok nodes ∧
      (∀ use ∈ Node.allUses nodes, use.name ∉ clockNames) ∧
      (∀ name value, environment.get? name = some value → value.callables = []) ∧
      (ofNodes ⟨host, environment⟩ (some 2) nodes (.still .epoch)).result = .ok (.boolean false) ∧
      (ofNodes ⟨host, environment⟩ (some 2) nodes (.stepping 7 0 1)).result =
        .ok (.boolean false) := by
  intro nodes environment host
  have accepted : Reader.read .standard "(apply not (array x))" = .ok nodes :=
    Reader.read_eq_of_display rfl rfl
  have unnamed : ∀ use ∈ Node.allUses nodes, use.name ∉ clockNames := by
    simp [nodes, Node.allUses, Node.uses, Use.name, clockNames]
  have inert : ∀ name value, environment.get? name = some value → value.callables = [] := by
    intro name value isBound
    simp only [environment, Environment.get?_define, Environment.get?_empty] at isBound
    split at isBound
    · obtain rfl := Option.some.inj isBound
      rfl
    · simp at isBound
  have still : (ofNodes ⟨host, environment⟩ (some 2) nodes (.still .epoch)).result =
      .ok (.boolean false) := rfl
  refine ⟨accepted, unnamed, inert, still, ?_⟩
  rw [(ofNodes_timeless accepted unnamed host inert (some 2) (.stepping 7 0 1) (.still .epoch)).1]
  exact still

end MeteredRules
