import MeteredRules.Proofs.Builtin.Equality

/-!
# Equality of many numbers

Two numbers are equal if they have the same place among the floats, and two integers only if they
are the same as well. To have the same place is an equivalence, so equality can fail to be one only
at a float that two different integers are rounded to.

A test of many operands compares the first one with each of the others. Unless a float and two such
integers are among them, this compares all of them with each other, and their order does not matter.
Otherwise the test succeeds exactly if it starts from a float.
-/

namespace MeteredRules

/-! ## Two numbers -/

namespace Number

variable {left middle right : Number}

/-- The place of a number among the floats; a NaN has none. -/
def place? (number : Number) : Option Binary64.Place :=
  Binary64.place? number.toFloat

/-- Apart from NaN, two numbers are equal as floats if they have the same place. -/
theorem toFloat_beq_iff (regular : left.isNaN = false) :
    (left.toFloat == right.toFloat) = true ↔ left.place? = right.place? := by
  rw [Binary64.beq_eq_places, beq_iff_eq]
  change Option.map₂ compare left.place? right.place? = _ ↔ _
  cases leftPlace : left.place? with
  | none =>
      rw [place?, Binary64.place?_eq_none_iff, isNaN_toFloat, regular] at leftPlace
      cases leftPlace
  | some place =>
      cases right.place? with
      | none => simp
      | some other => simp [compare_eq_iff_eq]

/-- Numbers of the same place are equal unless they are different integers. -/
theorem beq_iff (regular : left.isNaN = false) :
    (left == right) = true ↔
      left.place? = right.place? ∧ (left.isInt = true → right.isInt = true → left = right) := by
  cases left with
  | int leftInt =>
      cases right with
      | int rightInt =>
          change (leftInt == rightInt) = true ↔ _
          rw [beq_iff_eq]
          constructor
          · rintro rfl
            exact ⟨rfl, fun _ _ => rfl⟩
          · rintro ⟨_, same⟩
            exact Number.int.inj (same rfl rfl)
      | float value =>
          rw [← toFloat_beq_iff regular]
          exact (and_iff_left fun _ impossible => absurd impossible Bool.false_ne_true).symm
  | float value =>
      rw [← toFloat_beq_iff regular]
      refine Iff.trans ?_ (and_iff_left fun impossible => absurd impossible Bool.false_ne_true).symm
      cases right <;> rfl

/-- Equality passes on, but not from an integer over a float to a different integer. -/
theorem beq_trans_iff (leftRegular : left.isNaN = false) (middleRegular : middle.isNaN = false)
    (first : (left == middle) = true) (second : (middle == right) = true) :
    (left == right) = true ↔
      ¬(left.isInt = true ∧ middle.isInt = false ∧ right.isInt = true ∧ left ≠ right) := by
  rw [beq_iff leftRegular] at first ⊢
  rw [beq_iff middleRegular] at second
  rw [and_iff_right (first.1.trans second.1)]
  constructor
  · rintro same ⟨leftInt, _, rightInt, differ⟩
    exact differ (same leftInt rightInt)
  · intro ordinary leftInt rightInt
    by_contra differ
    cases middleInt : middle.isInt with
    | false => exact ordinary ⟨leftInt, middleInt, rightInt, differ⟩
    | true =>
        exact differ ((first.2 leftInt middleInt).trans (second.2 middleInt rightInt))

end Number

/-! ## Many numbers -/

/--
Numbers that all become the same float, although there is a float and there are two different
integers among them.
-/
structure Number.Blurred (numbers : List Number) : Prop where
  together : ∀ left ∈ numbers, ∀ right ∈ numbers, (left.toFloat == right.toFloat) = true
  float : ∃ number ∈ numbers, number.isInt = false
  integers : ∃ left ∈ numbers, ∃ right ∈ numbers,
    left.isInt = true ∧ right.isInt = true ∧ left ≠ right

namespace Number

variable {first : Number} {rest numbers reordered : List Number}

theorem Blurred.of_perm (blurred : Blurred numbers) (perm : reordered.Perm numbers) :
    Blurred reordered := by
  rcases blurred with ⟨together, float, integers⟩
  simp only [← perm.mem_iff] at together float integers
  exact ⟨together, float, integers⟩

section First

variable (regular : ∀ number ∈ first :: rest, number.isNaN = false)
include regular

/-- What is equal to the first number has its place, and is the same if both are integers. -/
theorem forall_beq_first_iff :
    (∀ number ∈ rest, (first == number) = true) ↔
      ∀ number ∈ first :: rest, first.place? = number.place? ∧
        (first.isInt = true → number.isInt = true → first = number) := by
  simp only [beq_iff (regular first List.mem_cons_self), List.forall_mem_cons]
  exact (and_iff_right ⟨trivial, fun _ _ => trivial⟩).symm

omit regular in
/-- Different integers can only be equal to the first number if this is a float. -/
theorem isInt_eq_false_of_ne {left right : Number}
    (leftSame : first.isInt = true → first = left) (rightSame : first.isInt = true → first = right)
    (differ : left ≠ right) : first.isInt = false := by
  rw [← Bool.not_eq_true]
  intro firstInt
  exact differ ((leftSame firstInt).symm.trans (rightSame firstInt))

/-- Unless the numbers are blurred, what is equal to the first one is equal throughout. -/
theorem forall_beq_iff_of_sharp (sharp : ¬Blurred (first :: rest)) :
    (∀ number ∈ rest, (first == number) = true) ↔
      ∀ left ∈ first :: rest, ∀ right ∈ first :: rest, (left == right) = true := by
  constructor
  · intro equal left leftMem right rightMem
    rw [forall_beq_first_iff regular] at equal
    have together : ∀ left ∈ first :: rest, ∀ right ∈ first :: rest,
        left.place? = right.place? := fun left leftMem right rightMem =>
      (equal left leftMem).1.symm.trans (equal right rightMem).1
    rw [beq_iff (regular left leftMem)]
    refine ⟨together left leftMem right rightMem, ?_⟩
    intro leftInt rightInt
    by_contra differ
    have firstFloat : first.isInt = false :=
      isInt_eq_false_of_ne (fun firstInt => (equal left leftMem).2 firstInt leftInt)
        (fun firstInt => (equal right rightMem).2 firstInt rightInt) differ
    apply sharp
    refine ⟨?_, ⟨first, List.mem_cons_self, firstFloat⟩,
      ⟨left, leftMem, right, rightMem, leftInt, rightInt, differ⟩⟩
    intro left leftMem right rightMem
    rw [toFloat_beq_iff (regular left leftMem)]
    exact together left leftMem right rightMem
  · intro equal number numberMem
    exact equal first List.mem_cons_self number (List.mem_cons_of_mem first numberMem)

/-- Of blurred numbers all are equal to the first one exactly if that is a float. -/
theorem forall_beq_iff_of_blurred (blurred : Blurred (first :: rest)) :
    (∀ number ∈ rest, (first == number) = true) ↔ first.isInt = false := by
  rw [forall_beq_first_iff regular]
  constructor
  · intro equal
    rcases blurred.integers with ⟨left, leftMem, right, rightMem, leftInt, rightInt, differ⟩
    exact isInt_eq_false_of_ne (fun firstInt => (equal left leftMem).2 firstInt leftInt)
      (fun firstInt => (equal right rightMem).2 firstInt rightInt) differ
  · intro firstFloat number numberMem
    have together := blurred.together first List.mem_cons_self number numberMem
    rw [toFloat_beq_iff (regular first List.mem_cons_self)] at together
    refine ⟨together, fun firstInt => ?_⟩
    rw [firstFloat] at firstInt
    cases firstInt

end First

end Number

namespace Comparison

/-- The loop over the operands tests whether each of them is equal to the first one. -/
theorem allEqual_numbers (first : Number) (rest : List Number) :
    allEqual (.number first) (rest.map .number) =
      .ok (decide (∀ number ∈ rest, (first == number) = true)) := by
  induction rest with
  | nil => rfl
  | cons second rest ih =>
      have compared : equal (.number first) (.number second) = .ok (first == second) := by
        rw [Number.beq_comm]
        rfl
      simp only [List.map_cons, allEqual, compared, ih, Error.ok_bind, List.forall_mem_cons,
        Bool.decide_and, Bool.decide_eq_true]
      rfl

end Comparison

namespace Callable

theorem call_equal_numbers (host : Host) (first second : Number) (rest : List Number) :
    (Callable.builtin (.primitive .equal)).call host ((first :: second :: rest).map .number) =
      .ofResult (.ok (.boolean (decide (∀ number ∈ second :: rest, (first == number) = true)))) := by
  have enough : (Primitive.arity .equal).accepts
      ((first :: second :: rest).map Value.number).length = true := by
    simp [Primitive.arity, Arity.accepts]
  rw [call_primitive host enough]
  have tested := Comparison.allEqual_numbers first (second :: rest)
  simp only [Primitive.body, List.map_cons] at tested ⊢
  rw [Function.variadicAfter_value, tested]
  rfl

end Callable

/--
A test of two or more numbers for equality, none of them a NaN, is answered alike in every order,
namely by whether all of them are equal to each other, unless the numbers are blurred. Then it is
answered by whether the first number is a float. Equality of two numbers passes on unless it leads
from an integer over a float to a different integer.
-/
theorem Callable.equality_reordered (host : Host) :
    let call := fun numbers : List Number =>
      (Callable.builtin (.primitive .equal)).call host (numbers.map .number)
    (∀ numbers : List Number, 2 ≤ numbers.length → (∀ number ∈ numbers, number.isNaN = false) →
      (¬Number.Blurred numbers → ∀ reordered, reordered.Perm numbers → call reordered =
        .ofResult (.ok (.boolean
          (decide (∀ left ∈ numbers, ∀ right ∈ numbers, (left == right) = true))))) ∧
      (Number.Blurred numbers → ∀ first rest, (first :: rest).Perm numbers →
        call (first :: rest) = .ofResult (.ok (.boolean !first.isInt)))) ∧
    ∀ left middle right : Number, left.isNaN = false → middle.isNaN = false →
      (left == middle) = true → (middle == right) = true →
        ((left == right) = true ↔
          ¬(left.isInt = true ∧ middle.isInt = false ∧ right.isInt = true ∧ left ≠ right)) := by
  intro call
  refine ⟨?_, fun left middle right => Number.beq_trans_iff⟩
  intro numbers enough regular
  have called : ∀ reordered, reordered.Perm numbers → ∃ first rest, reordered = first :: rest ∧
      call reordered =
        .ofResult (.ok (.boolean (decide (∀ number ∈ rest, (first == number) = true)))) := by
    intro reordered perm
    rw [← perm.length_eq] at enough
    rcases reordered with _ | ⟨first, _ | ⟨second, rest⟩⟩
    · simp at enough
    · simp at enough
    · exact ⟨first, second :: rest, rfl, call_equal_numbers host first second rest⟩
  have allRegular : ∀ {reordered : List Number}, reordered.Perm numbers →
      ∀ number ∈ reordered, number.isNaN = false :=
    fun perm number numberMem => regular number (perm.mem_iff.mp numberMem)
  constructor
  · intro sharp reordered perm
    rcases called reordered perm with ⟨first, rest, rfl, answer⟩
    have equal := Number.forall_beq_iff_of_sharp (allRegular perm)
      (mt (Number.Blurred.of_perm · perm.symm) sharp)
    simp only [perm.mem_iff] at equal
    simp only [answer, equal]
  · intro blurred first rest perm
    rcases called (first :: rest) perm with ⟨_, _, split, answer⟩
    cases split
    have equal := Number.forall_beq_iff_of_blurred (allRegular perm) (blurred.of_perm perm)
    simp only [answer, equal]
    cases first.isInt <;> rfl

/-- The float `2 ^ 53` blurs the integers `2 ^ 53` and `2 ^ 53 + 1`, but not `1` and `2`. -/
theorem Callable.equality_reordered_two_pow :
    let host : Host := fun _ _ => .ofResult (.ok .nil)
    let call := fun numbers : List Number =>
      (Callable.builtin (.primitive .equal)).call host (numbers.map .number)
    let float := Number.float (Float.ofNat 9007199254740992)
    let numbers := [.int 9007199254740992, float, .int 9007199254740993]
    Number.Blurred numbers ∧
    call [float, .int 9007199254740993, .int 9007199254740992] =
      .ofResult (.ok (.boolean true)) ∧
    call [.int 9007199254740993, float, .int 9007199254740992] =
      .ofResult (.ok (.boolean false)) ∧
    call [.int 1, float, .int 2] = .ofResult (.ok (.boolean false)) ∧
    (Number.int 9007199254740992 == .int 9007199254740993) = false := by
  intro host call float numbers
  have blurred : Number.Blurred numbers := ⟨by decide +kernel, by decide +kernel, by decide +kernel⟩
  rcases equality_reordered host with ⟨reordered, passes⟩
  have exception := (reordered numbers (by decide) (by decide +kernel)).2 blurred
  have sharp : ¬Number.Blurred [float, .int 1, .int 2] := by
    rintro ⟨together, _⟩
    revert together
    decide +kernel
  have ordinary := (reordered [float, .int 1, .int 2] (by decide) (by decide +kernel)).1 sharp
  have unequal := passes (.int 9007199254740992) float (.int 9007199254740993) rfl
    (by decide +kernel) (by decide +kernel) (by decide +kernel)
  refine ⟨blurred, exception float _ (by decide +kernel), exception (.int 9007199254740993) _
    (by decide +kernel), ?_, ?_⟩
  · refine (ordinary [.int 1, float, .int 2] (by decide +kernel)).trans ?_
    exact congrArg (fun truth => Action.ofResult (.ok (Value.boolean truth))) (by decide +kernel)
  · rw [← Bool.not_eq_true, unequal, not_not]
    exact ⟨rfl, rfl, rfl, by decide⟩

/-- A float is equal to both of two different integers, so to move it to the front is to change the
answer. -/
theorem Callable.equality_depends_on_order :
    let host : Host := fun _ _ => .ofResult (.ok .nil)
    let call := fun numbers : List Number =>
      (Callable.builtin (.primitive .equal)).call host (numbers.map .number)
    let float := Number.float (Float.ofNat 9007199254740992)
    let numbers := [.int 9007199254740992, float, .int 9007199254740993]
    let reordered := [float, .int 9007199254740992, .int 9007199254740993]
    reordered.Perm numbers ∧ (∀ number ∈ numbers, number.isNaN = false) ∧
      call numbers = .ofResult (.ok (.boolean false)) ∧
      call reordered = .ofResult (.ok (.boolean true)) ∧
      (Number.int 9007199254740992 == float) = true ∧
      (float == Number.int 9007199254740993) = true ∧
      (Number.int 9007199254740992 == Number.int 9007199254740993) = false := by
  intro host call float numbers reordered
  refine ⟨.swap _ _ _, by decide +kernel, ?_, ?_, by decide +kernel⟩
  · refine (call_equal_numbers host _ _ _).trans ?_
    exact congrArg (fun truth => Action.ofResult (.ok (Value.boolean truth))) (by decide +kernel)
  · refine (call_equal_numbers host _ _ _).trans ?_
    exact congrArg (fun truth => Action.ofResult (.ok (Value.boolean truth))) (by decide +kernel)

end MeteredRules
