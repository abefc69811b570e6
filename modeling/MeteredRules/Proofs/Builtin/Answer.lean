import Mathlib.Data.List.Basic
import MeteredRules.Proofs.Builtin.Call
import MeteredRules.Proofs.Conformance
import MeteredRules.Proofs.Value.Parts

/-!
# What functions answer

A primitive answers with a value in which no function occurs that does not occur in its arguments,
or it fails with an error of the call itself. The statement is made of the parts that primitives are
built from: parameters hand on what occurs in an argument, computed results hold no functions at
all, and the few primitives that hand values on take them from what their parameters gave them.

The number of arguments is checked twice, by the declared arity and by the shape of the body. The
two agree for every primitive: on a number of arguments that the arity accepts, the body does not
complain about their number.

A call of any function then keeps what primitives and host functions keep, provided that it passes
through `apply`, whose answer is the answer of a call with the elements of one of its arguments.
-/

namespace MeteredRules

variable {α β : Type}

/-- The errors of a call itself: about its arguments, about their number or of its computation. -/
def Error.isOfCall : Error → Bool
  | .argument _ _ | .arity _ _ _ | .evaluation _ _ => true
  | .parse _ | .budget _ | .unbound _ => false

/-- The errors of a call whose number of arguments is accepted. -/
def Error.isOfComputation : Error → Bool
  | .argument _ _ | .evaluation _ _ => true
  | .parse _ | .arity _ _ _ | .budget _ | .unbound _ => false

theorem Error.isOfCall_of_isOfComputation {error : Error} (ofComputation : error.isOfComputation) :
    error.isOfCall := by
  cases error with
  | argument | evaluation => rfl
  | parse | arity | budget | unbound => cases ofComputation

/-- A computation that fails only with errors about its arguments or of its own. -/
def Sound (result : Except Error α) : Prop :=
  Conforms (fun _ => True) (fun error => error.isOfComputation) result

namespace Sound

theorem ok (value : α) : Sound (.ok value) :=
  trivial

theorem refuse (cause : Refusal) : Sound (.error (.refuse cause) : Except Error α) :=
  rfl

theorem bind {first : Except Error α} {next : α → Except Error β} (sound : Sound first)
    (rest : ∀ value, Sound (next value)) : Sound (first >>= next) := by
  apply Conforms.bind sound
  intro value _
  exact rest value

theorem foldlM {step : β → α → Except Error β} (steps : ∀ state item, Sound (step state item))
    (items : List α) (start : β) : Sound (items.foldlM step start) := by
  apply Conforms.foldlM
  · intro state item _ _
    exact steps state item
  · trivial

end Sound

/-! ## Computations -/

namespace Arithmetic

theorem sound_orOverflow (activity : Overflow) (result : Option α) :
    Sound (orOverflow activity result) := by
  cases result with
  | some value => exact .ok value
  | none => exact rfl

theorem sound_sum (numbers : List Number) : Sound (sum numbers) := by
  apply Sound.foldlM
  intro total number
  exact sound_orOverflow _ _

theorem sound_difference (first : Number) (numbers : List Number) :
    Sound (difference first numbers) := by
  cases numbers with
  | nil => exact sound_orOverflow _ _
  | cons number numbers =>
      apply Sound.foldlM
      intro total number
      exact sound_orOverflow _ _

theorem sound_product (first : Number) (numbers : List Number) :
    Sound (product first numbers) := by
  apply Sound.foldlM
  intro total number
  exact sound_orOverflow _ _

theorem sound_divide (dividend divisor : Number) : Sound (divide dividend divisor) := by
  unfold divide
  split
  · exact .refuse _
  · exact sound_orOverflow _ _

theorem sound_quotient (first : Number) (numbers : List Number) :
    Sound (quotient first numbers) := by
  apply Sound.foldlM
  intro dividend divisor
  exact sound_divide dividend divisor

theorem sound_modulo (dividend divisor : Number) : Sound (modulo dividend divisor) := by
  unfold modulo
  split
  · exact .refuse _
  · exact sound_orOverflow _ _

end Arithmetic

namespace Comparison

theorem sound_order (left right : Value) : Sound (order left right) := by
  fun_cases order left right with
  | case1 => exact .ok _
  | case2 => exact .refuse _
  | case3 => exact .ok _
  | case4 => exact .ok _
  | case5 => exact .refuse _

theorem sound_chain (accepted : Ordering → Bool) (first : Value) (rest : List Value) :
    Sound (chain accepted first rest) := by
  induction rest generalizing first with
  | nil => exact .ok _
  | cons second rest ih =>
      apply Sound.bind (sound_order first second)
      intro ordering
      apply Sound.bind (ih second)
      intro others
      exact .ok _

theorem sound_equal (left right : Value) : Sound (equal left right) := by
  unfold equal
  split
  · exact .ok _
  · exact .refuse _

theorem sound_allEqual (first : Value) (rest : List Value) : Sound (allEqual first rest) := by
  induction rest with
  | nil => exact .ok _
  | cons second rest ih =>
      apply Sound.bind (sound_equal first second)
      intro same
      apply Sound.bind ih
      intro others
      exact .ok _

theorem sound_notEqual (left right : Value) : Sound (notEqual left right) := by
  unfold notEqual
  split
  · exact .ok _
  · exact .refuse _

/-- The best value so far is always one of the values. -/
theorem conforms_extreme (wanted : Ordering) (values : List Value) :
    Conforms (fun best => best.callables ⊆ Value.allCallables values)
      (fun error => error.isOfComputation) (extreme wanted values) := by
  cases values with
  | nil => exact List.nil_subset _
  | cons first rest =>
      apply Conforms.foldlM
      · intro best value valueMem bestAvailable
        apply Conforms.bind (sound_order value best)
        intro ordering _
        change (if ordering == wanted then value else best).callables ⊆ _
        split
        · exact Value.callables_subset_of_mem (List.mem_cons_of_mem first valueMem)
        · exact bestAvailable
      · exact Value.callables_subset_of_mem List.mem_cons_self

end Comparison

namespace Conversion

theorem sound_round (rounding : Binary64.Rounding) (number : Number) :
    Sound (round rounding number) := by
  fun_cases round rounding number with
  | case1 => exact .ok _
  | case2 => exact .ok _
  | case3 => exact .refuse _

theorem sound_toInteger (value : Value) : Sound (toInteger value) := by
  fun_cases toInteger value with
  | case1 => exact .ok _
  | case2 => exact .refuse _
  | case3 number => exact sound_round .truncate number
  | case4 => exact .refuse _

theorem sound_toFloat (value : Value) : Sound (toFloat value) := by
  fun_cases toFloat value with
  | case1 => exact .ok _
  | case2 => exact .refuse _
  | case3 => exact .ok _
  | case4 => exact .refuse _

theorem sound_toInstant (text : String) : Sound (toInstant text) := by
  fun_cases toInstant text with
  | case1 => exact .ok _
  | case2 => exact .refuse _

end Conversion

namespace Duration

theorem sound_ofUnit (unit : DurationUnit) (number : Number) : Sound (ofUnit unit number) := by
  cases number with
  | int amount => exact Arithmetic.sound_orOverflow _ _
  | float amount => exact .ok _

theorem sound_offset (base : Instant) (direction : Direction) (seconds : Number) :
    Sound (offset base direction seconds) := by
  fun_cases offset base direction seconds with
  | case1 => exact .refuse _
  | case2 => exact .refuse _
  | case3 => exact .ok _

end Duration

theorem Primitive.sound_lengthOf (value : Value) : Sound (lengthOf value) := by
  cases value with
  | array items => exact Arithmetic.sound_orOverflow _ _
  | string text => exact Arithmetic.sound_orOverflow _ _
  | _ => exact .refuse _

/-! ## Parameters -/

/--
What a parameter gives for an argument carries no functions but those of the argument, given how
the converted argument carries functions.
-/
def Parameter.Carries (parameter : Parameter α) (carried : α → List Callable) : Prop :=
  ∀ argument, Conforms (fun converted => carried converted ⊆ argument.callables)
    (fun error => error.isOfComputation) (parameter argument)

namespace Parameter.Carries

theorem value : Carries Parameter.value Value.callables :=
  fun _ => List.Subset.refl _

theorem number : Carries Parameter.number (fun _ => []) := by
  intro argument
  cases argument with
  | number amount => exact List.nil_subset _
  | _ => exact rfl

theorem string : Carries Parameter.string (fun _ => []) := by
  intro argument
  cases argument with
  | string text => exact List.nil_subset _
  | _ => exact rfl

end Parameter.Carries

/--
What the elements of a list are seen as carries no functions but those of the list, given how an
element carries functions.
-/
def ElementKind.Carries (kind : ElementKind α) (carried : α → List Callable) : Prop :=
  ∀ items, Conforms (fun elements => elements.flatMap carried ⊆ Value.allCallables items)
    (fun error => error.isOfComputation) (kind.view items)

namespace ElementKind.Carries

theorem value : Carries ElementKind.value Value.callables := by
  intro items
  rw [view_value]
  simp only [Conforms, Value.allCallables_eq_flatMap]
  exact List.Subset.refl _

theorem number : Carries ElementKind.number (fun _ => []) := by
  intro items
  cases viewed : ElementKind.number.view items with
  | ok elements =>
      have inert : elements.flatMap (fun _ => []) = ([] : List Callable) :=
        List.flatMap_eq_nil_iff.mpr fun _ _ => rfl
      simp only [Conforms, inert]
      exact List.nil_subset _
  | error error =>
      rcases refuseOther_eq_error_iff.mp (view_eq_error_iff.mp viewed) with ⟨refused, _, rfl⟩
      exact rfl

end ElementKind.Carries

theorem Parameter.Carries.array {kind : ElementKind α} {carried : α → List Callable}
    (carries : kind.Carries carried) :
    Carries (Parameter.array kind) (fun items => items.flatMap carried) := by
  intro argument
  cases argument with
  | array items =>
      simp only [Parameter.array, Value.callables]
      exact carries items
  | _ => exact rfl

/-! ## Functions -/

/--
An action whose value holds available functions only and whose errors are not about the number of
arguments.
-/
def Answers (available : List Callable) (action : Action Value) : Prop :=
  Action.Conforms (fun value => value.callables ⊆ available) (fun error => error.isOfComputation)
    action

namespace Answers

variable {available : List Callable}

theorem pure {value : Value} (held : value.callables ⊆ available) :
    Answers available (Pure.pure value) :=
  Action.conforms_pure held

/-- A computed value that holds no functions. -/
theorem give {result : Except Error α} (sound : Sound result) {asValue : α → Value}
    (inert : ∀ computed, (asValue computed).callables = []) :
    Answers available (Primitive.give result asValue) := by
  apply Action.conforms_ofResult
  apply Conforms.map
  apply sound.mono
  · intro computed _
    simp only [inert]
    exact List.nil_subset _
  · exact fun _ ofComputation => ofComputation

/-- What is done with a converted argument decides the answer. -/
theorem convert {good : α → Prop} {result : Except Error α}
    (conforms : Conforms good (fun error => error.isOfComputation) result) {body : α → Action Value}
    (rest : ∀ converted, good converted → Answers available (body converted)) :
    Answers available (Action.ofResult result >>= body) :=
  Action.Conforms.bind (Action.conforms_ofResult conforms) rest

theorem mono {action : Action Value} {fewer : List Callable} (answers : Answers fewer action)
    (subset : fewer ⊆ available) : Answers available action := by
  apply Action.Conforms.mono answers
  · intro value held
    exact List.Subset.trans held subset
  · exact fun _ ofComputation => ofComputation

end Answers

namespace Function

/-- A function that answers an accepted number of arguments with what they make available. -/
def Obedient (arity : Arity) (function : Function) : Prop :=
  ∀ arguments, arity.accepts arguments.length = true →
    Answers (Value.allCallables arguments) (function arguments)

variable {first : Parameter α} {second : Parameter β} {carried : α → List Callable}
  {carriedSecond : β → List Callable}

theorem obedient_nullary {body : Action Value} (answers : Answers [] body) :
    Obedient (.exact 0) (nullary body) := by
  intro arguments accepted
  obtain rfl : arguments = [] := by simpa [Arity.accepts] using accepted
  exact answers

theorem obedient_unary (carries : first.Carries carried) {body : α → Action Value}
    (answers : ∀ converted, Answers (carried converted) (body converted)) :
    Obedient (.exact 1) (unary first body) := by
  intro arguments accepted
  obtain ⟨argument, rfl⟩ : ∃ argument, arguments = [argument] := by
    simpa [Arity.accepts, List.length_eq_one_iff] using accepted
  simp only [Value.allCallables, List.append_nil]
  apply Answers.convert (carries argument)
  intro converted held
  exact (answers converted).mono held

theorem obedient_binary (carries : first.Carries carried)
    (carriesSecond : second.Carries carriedSecond) {body : α → β → Action Value}
    (answers : ∀ left right, Answers (carried left ++ carriedSecond right) (body left right)) :
    Obedient (.exact 2) (binary first second body) := by
  intro arguments accepted
  obtain ⟨left, right, rfl⟩ : ∃ left right, arguments = [left, right] := by
    simpa [Arity.accepts, List.length_eq_two] using accepted
  simp only [Value.allCallables, List.append_nil]
  apply Answers.convert (carries left)
  intro convertedLeft heldLeft
  apply Answers.convert (carriesSecond right)
  intro convertedRight heldRight
  apply (answers convertedLeft convertedRight).mono
  exact List.append_subset.mpr ⟨List.subset_append_of_subset_left _ heldLeft,
    List.subset_append_of_subset_right _ heldRight⟩

theorem obedient_variadic {kind : ElementKind α} (carries : kind.Carries carried)
    {body : List α → Action Value}
    (answers : ∀ elements, Answers (elements.flatMap carried) (body elements)) :
    Obedient .any (variadic kind body) := by
  intro arguments _
  apply Answers.convert (carries arguments)
  intro elements held
  exact (answers elements).mono held

theorem obedient_variadicAfter {kind : ElementKind β} (carries : first.Carries carried)
    (carriesSecond : kind.Carries carriedSecond) {body : α → List β → Action Value}
    (answers : ∀ leading rest,
      Answers (carried leading ++ rest.flatMap carriedSecond) (body leading rest))
    {least : Nat} : Obedient (.atLeast (least + 1)) (variadicAfter first kind body) := by
  intro arguments accepted
  cases arguments with
  | nil => simp [Arity.accepts] at accepted
  | cons argument rest =>
      simp only [Value.allCallables]
      apply Answers.convert (carries argument)
      intro converted held
      apply Answers.convert (carriesSecond rest)
      intro elements heldRest
      apply (answers converted elements).mono
      exact List.append_subset.mpr ⟨List.subset_append_of_subset_left _ held,
        List.subset_append_of_subset_right _ heldRest⟩

end Function

/-! ## Primitives -/

namespace Primitive

theorem obedient_comparison (accepted : Ordering → Bool) :
    Function.Obedient (.atLeast 2) (comparison accepted) := by
  apply Function.obedient_variadicAfter .value .value
  intro leading rest
  exact .give (Comparison.sound_chain accepted leading rest) fun _ => rfl

theorem obedient_rounding (direction : Binary64.Rounding) :
    Function.Obedient (.exact 1) (rounding direction) := by
  apply Function.obedient_unary .number
  intro number
  exact .give (Conversion.sound_round direction number) fun _ => rfl

theorem obedient_duration (unit : DurationUnit) :
    Function.Obedient (.exact 1) (duration unit) := by
  apply Function.obedient_unary .number
  intro amount
  exact .give (Duration.sound_ofUnit unit amount) fun _ => rfl

theorem obedient_relative (direction : Duration.Direction) :
    Function.Obedient (.exact 1) (relative direction) := by
  apply Function.obedient_unary .number
  intro seconds
  apply Action.Conforms.bind Action.conforms_readClock
  intro present _
  exact Answers.give (Duration.sound_offset present direction seconds) fun _ => rfl

/-- A function of the elements of an array answers with what occurs in them. -/
theorem obedient_elements {body : List Value → Action Value}
    (answers : ∀ values, Answers (Value.allCallables values) (body values)) :
    Function.Obedient (.exact 1) (.unary (.array .value) body) := by
  apply Function.obedient_unary (.array .value)
  intro values
  simp only [← Value.allCallables_eq_flatMap]
  exact answers values

theorem obedient_nonempty (function : Primitive) {body : Value → List Value → Value}
    (handsOn : ∀ head tail, (body head tail).callables ⊆ Value.allCallables (head :: tail)) :
    Function.Obedient (.exact 1) (nonempty function body) := by
  apply obedient_elements
  intro values
  cases values with
  | nil => exact Action.conforms_ofResult rfl
  | cons head tail => exact .pure (handsOn head tail)

theorem lastOf_mem (first : Value) (rest : List Value) : lastOf first rest ∈ first :: rest := by
  simp only [lastOf, List.getLastD_eq_getLast?]
  cases last : rest.getLast? with
  | none => simp
  | some value => simp [List.mem_of_getLast? last]

/--
Every primitive answers the numbers of arguments that its arity accepts with what they make
available.
-/
theorem obedient_body (primitive : Primitive) :
    Function.Obedient primitive.arity primitive.body := by
  cases primitive with
  | add =>
      apply Function.obedient_variadic .number
      intro numbers
      exact .give (Arithmetic.sound_sum numbers) fun _ => rfl
  | subtract =>
      apply Function.obedient_variadicAfter .number .number
      intro leading rest
      exact .give (Arithmetic.sound_difference leading rest) fun _ => rfl
  | multiply =>
      apply Function.obedient_variadicAfter .number .number
      intro leading rest
      exact .give (Arithmetic.sound_product leading rest) fun _ => rfl
  | divide =>
      apply Function.obedient_variadicAfter .number .number
      intro leading rest
      exact .give (Arithmetic.sound_quotient leading rest) fun _ => rfl
  | modulo =>
      apply Function.obedient_binary .number .number
      intro dividend divisor
      exact .give (Arithmetic.sound_modulo dividend divisor) fun _ => rfl
  | greater | less | greaterOrEqual | lessOrEqual => exact obedient_comparison _
  | equal =>
      apply Function.obedient_variadicAfter .value .value
      intro leading rest
      exact .give (Comparison.sound_allEqual leading rest) fun _ => rfl
  | notEqual =>
      apply Function.obedient_binary .value .value
      intro left right
      exact .give (Comparison.sound_notEqual left right) fun _ => rfl
  | not | isNil =>
      apply Function.obedient_unary .value
      intro value
      exact .pure (List.nil_subset _)
  | identity =>
      apply Function.obedient_unary .value
      intro value
      exact .pure (List.Subset.refl _)
  | array =>
      apply Function.obedient_variadic .value
      intro values
      apply Answers.pure
      simp only [Value.callables, Value.allCallables_eq_flatMap]
      exact List.Subset.refl _
  | first =>
      apply obedient_nonempty
      intro head tail
      exact Value.callables_subset_of_mem List.mem_cons_self
  | last =>
      apply obedient_nonempty
      intro head tail
      exact Value.callables_subset_of_mem (lastOf_mem head tail)
  | rest =>
      apply obedient_nonempty
      intro head tail
      simp only [Value.callables, Value.allCallables]
      exact List.subset_append_right _ _
  | length =>
      apply Function.obedient_unary .value
      intro value
      exact .give (sound_lengthOf value) fun _ => rfl
  | max | min =>
      apply obedient_elements
      intro values
      exact Action.conforms_ofResult (Comparison.conforms_extreme _ values)
  | member =>
      apply Function.obedient_binary .value (.array .value)
      intro wanted values
      exact .pure (List.nil_subset _)
  | str =>
      apply Function.obedient_variadic .value
      intro values
      exact .pure (List.nil_subset _)
  | upcase | downcase | strip =>
      apply Function.obedient_unary .string
      intro text
      exact .pure (List.nil_subset _)
  | int =>
      apply Function.obedient_unary .value
      intro value
      exact .give (Conversion.sound_toInteger value) fun _ => rfl
  | float =>
      apply Function.obedient_unary .value
      intro value
      exact .give (Conversion.sound_toFloat value) fun _ => rfl
  | time =>
      apply Function.obedient_unary .string
      intro text
      exact .give (Conversion.sound_toInstant text) fun _ => rfl
  | floor | ceil | round => exact obedient_rounding _
  | days | hours | minutes | seconds => exact obedient_duration _
  | now =>
      apply Function.obedient_nullary
      apply Action.Conforms.bind Action.conforms_readClock
      intro present _
      exact Action.conforms_pure (List.nil_subset _)
  | ago | fromNow => exact obedient_relative _

theorem obedient_call (primitive : Primitive) (arguments : List Value) :
    Action.Conforms (fun value => value.callables ⊆ Value.allCallables arguments)
      (fun error => error.isOfCall) (primitive.call arguments) := by
  rcases accepted : primitive.arity.accepts arguments.length with _ | _
  · rw [call, Function.checked_of_refused accepted]
    exact Action.conforms_ofResult rfl
  · rw [call, Function.checked_of_accepts accepted]
    apply Action.Conforms.mono (primitive.obedient_body arguments accepted)
    · exact fun _ held => held
    · exact fun _ => Error.isOfCall_of_isOfComputation

end Primitive

/-! ## Calls -/

/--
What every primitive and every host function keeps of its arguments is kept by every call, if a
call of `apply` keeps what the call that it makes keeps.
-/
theorem Callable.conforms_call {host : Host} {kept : List Value → Value → Prop}
    {tolerated : Error → Prop} (ofCall : ∀ error, error.isOfCall → tolerated error)
    (primitives : ∀ (primitive : Primitive) arguments,
      Action.Conforms (kept arguments) tolerated (primitive.call arguments))
    (hosts : ∀ key arguments, Action.Conforms (kept arguments) tolerated (host key arguments))
    (applied : ∀ function items value, kept items value → kept [function, .array items] value)
    (function : Callable) (arguments : List Value) :
    Action.Conforms (kept arguments) tolerated (function.call host arguments) := by
  -- The recursion is on the arguments as one array, which has to be a variable for the induction.
  have packed_conforms : ∀ (packed : Value) (function : Callable) (arguments : List Value),
      packed = .array arguments →
        Action.Conforms (kept arguments) tolerated (function.callWith host packed) := by
    intro packed function
    fun_induction callWith host packed function with
    | case1 items called ih =>
        rintro arguments ⟨⟩
        apply (ih items rfl).mono
        · intro value holds
          exact applied _ items value holds
        · exact fun _ tolerable => tolerable
    | case2 | case3 | case4 =>
        intro arguments _
        exact Action.conforms_ofResult (ofCall _ rfl)
    | case5 arguments primitive =>
        rintro arguments ⟨⟩
        exact primitives primitive arguments
    | case6 arguments id key =>
        rintro arguments ⟨⟩
        exact hosts key arguments
    | case7 other function _ notApply notPrimitive notHost =>
        intro arguments equal
        rcases function with (primitive | _) | ⟨id, key⟩
        · exact absurd rfl (notPrimitive arguments primitive equal)
        · exact absurd rfl (notApply arguments equal)
        · exact absurd rfl (notHost arguments id key equal)
  exact packed_conforms (.array arguments) function arguments rfl

/-- Which errors a call can end with is up to the host functions, apart from the errors of calls. -/
theorem Callable.conforms_call_of_host {host : Host} {tolerated : Error → Prop}
    (ofCall : ∀ error, error.isOfCall → tolerated error)
    (hosts : ∀ key arguments, Action.Conforms (fun _ => True) tolerated (host key arguments))
    (function : Callable) (arguments : List Value) :
    Action.Conforms (fun _ => True) tolerated (function.call host arguments) := by
  apply conforms_call ofCall
  · intro primitive arguments
    apply Action.Conforms.mono (primitive.obedient_call arguments)
    · exact fun _ _ => trivial
    · exact ofCall
  · exact hosts
  · exact fun _ _ _ _ => trivial

end MeteredRules
