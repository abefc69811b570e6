import MeteredRules.Proofs.Builtin.Call
import MeteredRules.Proofs.Reader.Word

/-!
# Arithmetic on lists of integers

The arithmetic functions fold an operation over their arguments from the left. On integers a step
of such a fold is exact where it is allowed and fails with an error of its own elsewhere. A fold
therefore gives the exact result if all its steps are allowed, and otherwise the first step that is
not decides how it fails.

A sum, a difference or a product allows a step if its exact result has 64 bits: nothing wraps
around, and whether a call succeeds depends on the order of the arguments, but its result does not.
-/

namespace MeteredRules

/-- An integer that has 64 bits. -/
def Number.InRange (value : Int) : Prop :=
  Int64.minValue.toInt ≤ value ∧ value ≤ Int64.maxValue.toInt

instance (value : Int) : Decidable (Number.InRange value) :=
  inferInstanceAs (Decidable (Int64.minValue.toInt ≤ value ∧ value ≤ Int64.maxValue.toInt))

namespace Number

theorem inRange_iff {value : Int} :
    InRange value ↔ -9223372036854775808 ≤ value ∧ value ≤ 9223372036854775807 :=
  Iff.rfl

theorem inRange_toInt (value : Int64) : InRange value.toInt :=
  ⟨value.le_toInt, value.toInt_le⟩

theorem inRange_negation_iff (number : Int64) :
    InRange (0 - number.toInt) ↔ number ≠ Int64.minValue := by
  have least : Int64.minValue.toInt = -9223372036854775808 := rfl
  have bounds := inRange_iff.mp (inRange_toInt number)
  rw [inRange_iff, Ne, ← Int64.toInt_inj, least]
  omega

end Number

open Number (InRange inRange_toInt)

namespace Arithmetic

/-! ## Folds over integers -/

/-- An operation on integers of any size, folded over a list from the left. -/
def exactly (operation : Int → Int → Int) (start : Int) (numbers : List Int64) : Int :=
  numbers.foldl (fun total number => operation total number.toInt) start

/-- Each number of a list is allowed after the total of those before it. -/
def StepsAllowed (allowed : Int → Int → Prop) (operation : Int → Int → Int) (start : Int)
    (numbers : List Int64) : Prop :=
  ∀ before next, before ++ [next] <+: numbers → allowed (exactly operation start before) next.toInt

/-- On integers a step is exact where it is allowed and fails elsewhere. -/
structure Checks (step : Number → Number → Except Error Number) (operation : Int → Int → Int)
    (allowed : Int → Int → Prop) (error : Int → Int → Error) : Prop where
  exact : ∀ left right : Int64, allowed left.toInt right.toInt →
    ∃ result : Int64, result.toInt = operation left.toInt right.toInt ∧
      step (.int left) (.int right) = .ok (.int result)
  refused : ∀ left right : Int64, ¬allowed left.toInt right.toInt →
    step (.int left) (.int right) = .error (error left.toInt right.toInt)

variable {allowed : Int → Int → Prop} {operation : Int → Int → Int} {start : Int}
  {step : Number → Number → Except Error Number} {error : Int → Int → Error}

theorem stepsAllowed_nil : StepsAllowed allowed operation start [] := by
  intro before next initial
  simp at initial

theorem stepsAllowed_cons {number : Int64} {numbers : List Int64} :
    StepsAllowed allowed operation start (number :: numbers) ↔
      allowed start number.toInt ∧
        StepsAllowed allowed operation (operation start number.toInt) numbers := by
  constructor
  · intro steps
    refine ⟨steps [] number (by simp), ?_⟩
    intro before next initial
    exact steps (number :: before) next (List.prefix_cons_inj number |>.mpr initial)
  · rintro ⟨first, rest⟩ before next initial
    cases before with
    | nil =>
        obtain rfl : next = number := by simpa using initial
        exact first
    | cons head before =>
        rw [List.cons_append, List.cons_prefix_cons] at initial
        rcases initial with ⟨rfl, initial⟩
        exact rest before next initial

instance decidableStepsAllowed [∀ left right, Decidable (allowed left right)] :
    (start : Int) → (numbers : List Int64) →
      Decidable (StepsAllowed allowed operation start numbers)
  | _, [] => isTrue stepsAllowed_nil
  | start, number :: numbers =>
    have := decidableStepsAllowed (operation start number.toInt) numbers
    decidable_of_iff _ stepsAllowed_cons.symm

theorem Checks.foldlM_of_allowed (checks : Checks step operation allowed error)
    {first : Int64} {numbers : List Int64}
    (steps : StepsAllowed allowed operation first.toInt numbers) :
    ∃ result : Int64, result.toInt = exactly operation first.toInt numbers ∧
      (numbers.map Number.int).foldlM step (.int first) = .ok (.int result) := by
  induction numbers generalizing first with
  | nil => exact ⟨first, rfl, rfl⟩
  | cons number numbers ih =>
      rcases stepsAllowed_cons.mp steps with ⟨now, later⟩
      rcases checks.exact first number now with ⟨total, total_eq, stepped⟩
      rw [← total_eq] at later
      rcases ih later with ⟨result, result_eq, folded⟩
      refine ⟨result, ?_, ?_⟩
      · rw [result_eq, total_eq]
        rfl
      · rw [List.map_cons, List.foldlM_cons, stepped]
        exact folded

/-- The first step that is not allowed decides how a fold fails. -/
theorem Checks.exists_foldlM_eq_error (checks : Checks step operation allowed error)
    {first : Int64} {numbers : List Int64}
    (steps : ¬StepsAllowed allowed operation first.toInt numbers) :
    ∃ before next after, numbers = before ++ next :: after ∧
      StepsAllowed allowed operation first.toInt before ∧
      ¬allowed (exactly operation first.toInt before) next.toInt ∧
      (numbers.map Number.int).foldlM step (.int first) =
        .error (error (exactly operation first.toInt before) next.toInt) := by
  induction numbers generalizing first with
  | nil => exact absurd stepsAllowed_nil steps
  | cons number numbers ih =>
      rw [List.map_cons, List.foldlM_cons]
      by_cases now : allowed first.toInt number.toInt
      · rcases checks.exact first number now with ⟨total, total_eq, stepped⟩
        have later : ¬StepsAllowed allowed operation total.toInt numbers := by
          rw [total_eq]
          exact fun later => steps (stepsAllowed_cons.mpr ⟨now, later⟩)
        rcases ih later with ⟨before, next, after, rfl, earlier, notAllowed, failed⟩
        rw [total_eq] at earlier notAllowed failed
        refine ⟨number :: before, next, after, rfl, ?_, notAllowed, ?_⟩
        · exact stepsAllowed_cons.mpr ⟨now, earlier⟩
        · rw [stepped]
          exact failed
      · refine ⟨[], number, numbers, rfl, stepsAllowed_nil, now, ?_⟩
        rw [checks.refused first number now]
        rfl

/-! ## Sums, differences and products -/

/-- The totals of all initial parts of a list have 64 bits. -/
def PartsInRange (operation : Int → Int → Int) (start : Int) (numbers : List Int64) : Prop :=
  ∀ before, before <+: numbers → InRange (exactly operation start before)

theorem partsInRange_nil : PartsInRange operation start [] ↔ InRange start := by
  simp only [PartsInRange, List.prefix_nil]
  exact ⟨fun parts => parts [] rfl, fun inRange _ empty => empty ▸ inRange⟩

theorem partsInRange_cons {number : Int64} {numbers : List Int64} :
    PartsInRange operation start (number :: numbers) ↔
      InRange start ∧ PartsInRange operation (operation start number.toInt) numbers := by
  simp only [PartsInRange, List.prefix_cons_iff]
  constructor
  · intro parts
    refine ⟨parts [] (.inl rfl), ?_⟩
    intro before initial
    exact parts (number :: before) (.inr ⟨before, rfl, initial⟩)
  · rintro ⟨first, rest⟩ before (rfl | ⟨before, rfl, initial⟩)
    · exact first
    · exact rest before initial

theorem partsInRange_iff {numbers : List Int64} :
    PartsInRange operation start numbers ↔
      InRange start ∧
        StepsAllowed (fun left right => InRange (operation left right)) operation start
          numbers := by
  induction numbers generalizing start with
  | nil => rw [partsInRange_nil, and_iff_left stepsAllowed_nil]
  | cons number numbers ih => rw [partsInRange_cons, ih, stepsAllowed_cons]

instance (operation : Int → Int → Int) (start : Int) (numbers : List Int64) :
    Decidable (PartsInRange operation start numbers) :=
  decidable_of_iff _ partsInRange_iff.symm

theorem checks_fitting (operation : Int → Int → Int) (onFloats : Float → Float → Float)
    (activity : Overflow) :
    Checks (fun left right =>
        orOverflow activity (Number.combine? (Number.fitting? operation) onFloats left right))
      operation (fun left right => InRange (operation left right))
      (fun _ _ => .fail (.overflow activity)) where
  exact left right inRange := by
    rcases Number.exists_fit? inRange with ⟨result, fits, result_eq⟩
    refine ⟨result, result_eq, ?_⟩
    simp only [Number.combine?, Number.fitting?, fits, Option.map_some, orOverflow]
  refused left right outside := by
    simp only [Number.combine?, Number.fitting?, Number.fit?_eq_none outside, Option.map_none,
      orOverflow]

end Arithmetic

/-- An action that gives an integer of any size if it fits, and reports an overflow otherwise. -/
structure Action.Computes (action : Action Value) (value : Int) (fits : Prop)
    (activity : Overflow) : Prop where
  exact : fits → ∃ result : Int64, result.toInt = value ∧ action = .ofResult (.ok (.int result))
  overflow : ¬fits → action = .ofResult (.error (.fail (.overflow activity)))

namespace Action.Computes

variable {action other : Action Value} {value : Int} {fits otherFits : Prop}
  {activity otherActivity : Overflow} {given otherGiven : Value}

theorem exists_toInt_eq (computes : action.Computes value fits activity)
    (succeeded : action = .ofResult (.ok given)) :
    ∃ result : Int64, given = .int result ∧ result.toInt = value := by
  by_cases fit : fits
  · rcases computes.exact fit with ⟨result, result_eq, computed⟩
    rw [computed] at succeeded
    cases Action.ofResult_inj succeeded
    exact ⟨result, rfl, result_eq⟩
  · rw [computes.overflow fit] at succeeded
    cases Action.ofResult_inj succeeded

/-- Two actions that compute one integer give the same value if both succeed. -/
theorem eq_of_ok (computes : action.Computes value fits activity)
    (otherComputes : other.Computes value otherFits otherActivity)
    (succeeded : action = .ofResult (.ok given))
    (otherSucceeded : other = .ofResult (.ok otherGiven)) : given = otherGiven := by
  rcases computes.exists_toInt_eq succeeded with ⟨left, rfl, left_eq⟩
  rcases otherComputes.exists_toInt_eq otherSucceeded with ⟨right, rfl, right_eq⟩
  rw [Int64.toInt_inj.mp (left_eq.trans right_eq.symm)]

end Action.Computes

/-! ## Calls -/

theorem ElementKind.view_number (numbers : List Int64) :
    ElementKind.number.view (numbers.map Value.int) = .ok (numbers.map Number.int) := by
  rw [view_eq_ok_iff]
  constructor
  · have admitted : numbers.find? (fun _ => false) = none :=
      List.find?_eq_none.mpr fun _ _ => Bool.false_ne_true
    simp [number, refuseOther, Value.int, Function.comp_def, admitted]
  · simp [number, Value.int, Function.comp_def]

theorem Callable.call_variadicAfter (host : Host) {primitive : Primitive}
    (compute : Number → List Number → Except Error Number)
    (defined : primitive.body = .variadicAfter .number .number fun first rest =>
      Primitive.give (compute first rest) .number)
    (first : Int64) (rest : List Int64)
    (accepted : primitive.arity.accepts ((first :: rest).map Value.int).length = true) :
    (Callable.builtin (.primitive primitive)).call host ((first :: rest).map .int) =
      Primitive.give (compute (.int first) (rest.map .int)) .number := by
  rw [call_primitive host accepted, defined]
  simp only [List.map_cons, Function.variadicAfter, ElementKind.view_number]
  rfl

namespace Arithmetic

theorem computes_foldlM (operation : Int → Int → Int) (onFloats : Float → Float → Float)
    (activity : Overflow) (first : Int64) (numbers : List Int64) :
    (Primitive.give ((numbers.map Number.int).foldlM (fun left right =>
      orOverflow activity (Number.combine? (Number.fitting? operation) onFloats left right))
      (.int first)) Value.number).Computes (exactly operation first.toInt numbers)
        (PartsInRange operation first.toInt numbers) activity := by
  have checks := checks_fitting operation onFloats activity
  refine ⟨?_, ?_⟩
  · intro parts
    rcases checks.foldlM_of_allowed (partsInRange_iff.mp parts).2 with ⟨result, result_eq, folded⟩
    refine ⟨result, result_eq, ?_⟩
    rw [folded]
    rfl
  · intro outside
    have notAllowed : ¬StepsAllowed (fun left right => InRange (operation left right)) operation
        first.toInt numbers :=
      fun steps => outside (partsInRange_iff.mpr ⟨inRange_toInt first, steps⟩)
    rcases checks.exists_foldlM_eq_error notAllowed with ⟨_, _, _, _, _, _, failed⟩
    rw [failed]
    rfl

theorem computes_sum (host : Host) (numbers : List Int64) :
    ((Callable.builtin (.primitive .add)).call host (numbers.map .int)).Computes
      (exactly (· + ·) 0 numbers) (PartsInRange (· + ·) 0 numbers) .addition := by
  have computes := computes_foldlM (· + ·) (· + ·) .addition 0 numbers
  have called : (Callable.builtin (.primitive .add)).call host (numbers.map .int) =
      Primitive.give (sum (numbers.map .int)) Value.number := by
    rw [Callable.call_primitive host rfl]
    simp only [Primitive.body, Function.variadic, ElementKind.view_number]
    rfl
  rw [called]
  exact computes

theorem computes_negation (host : Host) (number : Int64) :
    ((Callable.builtin (.primitive .subtract)).call host [.int number]).Computes (-number.toInt)
      (number ≠ Int64.minValue) .negation := by
  have checks := checks_fitting (· - ·) (· - ·) .negation
  have called : (Callable.builtin (.primitive .subtract)).call host [.int number] =
      Primitive.give (difference (.int number) []) Value.number :=
    Callable.call_variadicAfter host difference rfl number [] rfl
  rw [called, ← Number.inRange_negation_iff]
  refine ⟨?_, ?_⟩
  · intro inRange
    rcases checks.exact 0 number inRange with ⟨result, result_eq, computed⟩
    refine ⟨result, result_eq.trans (Int.zero_sub _), ?_⟩
    exact congrArg (Primitive.give · Value.number) computed
  · intro outside
    exact congrArg (Primitive.give · Value.number) (checks.refused 0 number outside)

theorem computes_difference (host : Host) (first second : Int64) (rest : List Int64) :
    ((Callable.builtin (.primitive .subtract)).call host
      ((first :: second :: rest).map .int)).Computes
        (exactly (· - ·) first.toInt (second :: rest))
        (PartsInRange (· - ·) first.toInt (second :: rest)) .subtraction := by
  have computes := computes_foldlM (· - ·) (· - ·) .subtraction first (second :: rest)
  rw [Callable.call_variadicAfter host difference rfl first (second :: rest) rfl]
  exact computes

/-- The product of a list starts from its first number, which is the same as from one. -/
theorem computes_product (host : Host) (first : Int64) (rest : List Int64) :
    ((Callable.builtin (.primitive .multiply)).call host ((first :: rest).map .int)).Computes
      (exactly (· * ·) 1 (first :: rest)) (PartsInRange (· * ·) 1 (first :: rest))
      .multiplication := by
  have computes := computes_foldlM (· * ·) (· * ·) .multiplication first rest
  have total : exactly (· * ·) 1 (first :: rest) = exactly (· * ·) first.toInt rest := by
    rw [exactly, List.foldl_cons, Int.one_mul]
    rfl
  have parts : PartsInRange (· * ·) 1 (first :: rest) ↔ PartsInRange (· * ·) first.toInt rest := by
    rw [partsInRange_cons, Int.one_mul]
    exact and_iff_right (inRange_toInt 1)
  rw [Callable.call_variadicAfter host product rfl first rest rfl, total, parts]
  exact computes

theorem exactly_eq_of_perm (commutes : ∀ total left right : Int,
      operation (operation total left) right = operation (operation total right) left)
    {numbers others : List Int64} (permuted : numbers.Perm others) :
    exactly operation start numbers = exactly operation start others :=
  permuted.foldl_eq' (fun left _ right _ total => commutes total left.toInt right.toInt) start

end Arithmetic

open Arithmetic (exactly PartsInRange)

/--
On integers the sum, the difference and the product are exact, and they fail exactly if some
intermediate result needs more than 64 bits. The difference of a single argument is its negation.
Where two orders of the same arguments both have a sum, or a product, it is the same.
-/
theorem Callable.computes_integers (host : Host) :
    let call := fun primitive (numbers : List Int64) =>
      (Callable.builtin (.primitive primitive)).call host (numbers.map .int)
    (∀ numbers, (call .add numbers).Computes (exactly (· + ·) 0 numbers)
      (PartsInRange (· + ·) 0 numbers) .addition) ∧
    (∀ number, (call .subtract [number]).Computes (-number.toInt) (number ≠ Int64.minValue)
      .negation) ∧
    (∀ first second rest, (call .subtract (first :: second :: rest)).Computes
      (exactly (· - ·) first.toInt (second :: rest))
      (PartsInRange (· - ·) first.toInt (second :: rest)) .subtraction) ∧
    (∀ first rest, (call .multiply (first :: rest)).Computes (exactly (· * ·) 1 (first :: rest))
      (PartsInRange (· * ·) 1 (first :: rest)) .multiplication) ∧
    ∀ primitive ∈ [Primitive.add, .multiply], ∀ numbers others, numbers.Perm others →
      ∀ value other, call primitive numbers = .ofResult (.ok value) →
        call primitive others = .ofResult (.ok other) → value = other := by
  intro call
  refine ⟨Arithmetic.computes_sum host, Arithmetic.computes_negation host,
    Arithmetic.computes_difference host, Arithmetic.computes_product host, ?_⟩
  intro primitive isCommutative numbers others permuted value other given otherGiven
  simp only [List.mem_cons, List.not_mem_nil, or_false] at isCommutative
  rcases isCommutative with rfl | rfl
  · have computes := Arithmetic.computes_sum host numbers
    rw [Arithmetic.exactly_eq_of_perm Int.add_right_comm permuted] at computes
    exact computes.eq_of_ok (Arithmetic.computes_sum host others) given otherGiven
  · cases numbers with
    | nil =>
        rw [List.nil_perm.mp permuted, given] at otherGiven
        cases Action.ofResult_inj otherGiven
        rfl
    | cons first rest =>
        cases others with
        | nil => exact absurd permuted (by simp)
        | cons otherFirst otherRest =>
            have computes := Arithmetic.computes_product host first rest
            rw [Arithmetic.exactly_eq_of_perm Int.mul_right_comm permuted] at computes
            exact computes.eq_of_ok (Arithmetic.computes_product host otherFirst otherRest) given
              otherGiven

/-- Whether a sum succeeds depends on the order of its arguments, but the sum does not. -/
theorem Callable.computes_integers_order :
    let host : Host := fun _ _ => .ofResult (.ok .nil)
    let sum := fun (numbers : List Int64) =>
      (Callable.builtin (.primitive .add)).call host (numbers.map .int)
    sum [Int64.maxValue, 1, -1] = .ofResult (.error (.fail (.overflow .addition))) ∧
      ∃ value, sum [Int64.maxValue, -1, 1] = .ofResult (.ok value) ∧
        sum [-1, 1, Int64.maxValue] = .ofResult (.ok value) := by
  intro host sum
  rcases computes_integers host with ⟨sums, _, _, _, unique⟩
  rcases (sums [Int64.maxValue, -1, 1]).exact (by decide) with ⟨result, _, given⟩
  rcases (sums [-1, 1, Int64.maxValue]).exact (by decide) with ⟨other, _, otherGiven⟩
  refine ⟨(sums [Int64.maxValue, 1, -1]).overflow (by decide), _, given, ?_⟩
  have permuted : [Int64.maxValue, -1, 1].Perm [-1, 1, Int64.maxValue] := by decide
  rw [unique .add (by simp) _ _ permuted _ _ given otherGiven]
  exact otherGiven

end MeteredRules
