import MeteredRules.Builtin.Call
import MeteredRules.Proofs.Binary64.Order

/-!
# The order of values

Numbers other than NaN, strings and instants are ordered among themselves, and no other two values
are. The kind of a value therefore decides with which values it compares. Comparing two values in
the other direction gives the opposite answer, and two values are equal exactly if they compare as
equal; this holds of integers and floats together as well.

Integers, strings and instants are moreover totally ordered, each as one scale. Integers and floats
together are not a scale, because an integer is rounded before it is compared with a float.
-/

namespace MeteredRules

/-! ## Numbers -/

namespace Number

/-- Whether a number is a float that stands for no number. -/
def isNaN : Number → Bool
  | .int _ => false
  | .float value => value.isNaN

theorem isNaN_toFloat (number : Number) : number.toFloat.isNaN = number.isNaN := by
  cases number with
  | int value => exact Binary64.isNaN_ofInt value.toInt
  | float value => rfl

/-- Unless both numbers are integers, they compare as floats. -/
theorem compare?_cases (left right : Number) :
    (∃ leftInt rightInt, left = .int leftInt ∧ right = .int rightInt) ∨
      left.compare? right = compareFloats left.toFloat right.toFloat ∧
      right.compare? left = compareFloats right.toFloat left.toFloat ∧
      (left == right) = (left.toFloat == right.toFloat) := by
  cases left with
  | int leftInt =>
      cases right with
      | int rightInt => exact .inl ⟨leftInt, rightInt, rfl, rfl⟩
      | float value => exact .inr ⟨rfl, rfl, rfl⟩
  | float value => cases right <;> exact .inr ⟨rfl, rfl, rfl⟩

theorem compare?_swap (left right : Number) :
    right.compare? left = (left.compare? right).map Ordering.swap := by
  rcases compare?_cases left right with ⟨leftInt, rightInt, rfl, rfl⟩ | ⟨forth, back, _⟩
  · exact congrArg some Std.OrientedCmp.eq_swap
  · rw [forth, back, Binary64.compareFloats_swap]

theorem compare?_eq_none_iff {left right : Number} :
    left.compare? right = none ↔ left.isNaN = true ∨ right.isNaN = true := by
  rcases compare?_cases left right with ⟨leftInt, rightInt, rfl, rfl⟩ | ⟨forth, _, _⟩
  · simp [compare?, isNaN]
  · rw [forth, Binary64.compareFloats_eq_none_iff, isNaN_toFloat, isNaN_toFloat]

/-- Equality and order make the same conversions. -/
theorem beq_eq_compare? (left right : Number) :
    (left == right) = (left.compare? right == some .eq) := by
  rcases compare?_cases left right with ⟨leftInt, rightInt, rfl, rfl⟩ | ⟨forth, _, equality⟩
  · change (leftInt == rightInt) = (some (compare leftInt.toInt rightInt.toInt) == some .eq)
    rw [Bool.eq_iff_iff, beq_iff_eq, beq_iff_eq, Option.some_inj, Int.compare_eq_eq,
      Int64.toInt_inj]
  · rw [forth, equality, Binary64.beq_eq_compareFloats]

end Number

/-! ## Instants -/

namespace Instant

/-- The second of an instant, and then its fraction. -/
def parts (instant : Instant) : ℤ ×ₗ ℕ :=
  toLex (instant.seconds, instant.nanos)

theorem parts_injective : Function.Injective Instant.parts := by
  intro left right same
  cases left
  cases right
  simpa [parts] using same

/-- Earlier instants are smaller. -/
instance : LinearOrder Instant :=
  LinearOrder.lift' Instant.parts Instant.parts_injective

theorem order_eq_cmp (left right : Instant) : left.order right = cmp left right := by
  have parted : cmp left right = cmp left.parts right.parts := rfl
  rw [parted, cmp_eq_compare, Prod.Lex.compare_def]
  rfl

end Instant

/-! ## Comparable values -/

/-- The kinds of values that are ordered among themselves. -/
inductive OrderedKind where
  | number
  | string
  | instant
deriving DecidableEq

instance : Fintype OrderedKind where
  elems := {.number, .string, .instant}
  complete kind := by cases kind <;> decide

/-- The kind of a value that is ordered; neither a NaN nor a value of another type has one. -/
def Value.orderedKind? : Value → Option OrderedKind
  | .number amount => if amount.isNaN then none else some .number
  | .string _ => some .string
  | .instant _ => some .instant
  | _ => none

/-- A computation that succeeds under a condition and refuses its arguments otherwise. -/
structure Requires {α : Type} (condition : Prop) (result : Except Error α) : Prop where
  success : condition → ∃ value, result = .ok value
  refusal : ¬condition → ∃ cause, result = .error (.refuse cause)

namespace Requires

variable {α β : Type} {condition later : Prop} {first : Except Error α}
  {next : α → Except Error β}

theorem ok (value : α) : Requires True (.ok value) :=
  ⟨fun _ => ⟨value, rfl⟩, fun never => absurd trivial never⟩

theorem congr (requires : Requires condition first) (same : condition ↔ later) :
    Requires later first :=
  ⟨fun holds => requires.success (same.mpr holds),
    fun fails => requires.refusal (mt same.mp fails)⟩

theorem of_eq_ok (requires : Requires condition first) {value : α} (given : first = .ok value) :
    condition := by
  by_contra fails
  rcases requires.refusal fails with ⟨cause, refused⟩
  rw [given] at refused
  cases refused

theorem bind (requires : Requires condition first)
    (rest : ∀ value, first = .ok value → Requires later (next value)) :
    Requires (condition ∧ later) (first >>= next) := by
  by_cases now : condition
  · rcases requires.success now with ⟨value, given⟩
    have following := rest value given
    rw [given]
    exact following.congr (and_iff_right now).symm
  · rcases requires.refusal now with ⟨cause, refused⟩
    rw [refused]
    exact ⟨fun both => absurd both.1 now, fun _ => ⟨cause, rfl⟩⟩

theorem map (requires : Requires condition first) (function : α → β) :
    Requires condition (first >>= fun value => pure (function value)) := by
  apply (requires.bind fun value _ => .ok (function value)).congr
  exact iff_of_eq (and_true condition)

end Requires

namespace Comparison

/-- Two values of one ordered kind. -/
def Comparable (left right : Value) : Prop :=
  ∃ kind, left.orderedKind? = some kind ∧ right.orderedKind? = some kind

/-- Values that are all of one ordered kind. -/
def AreComparable (values : List Value) : Prop :=
  ∃ kind, ∀ value ∈ values, value.orderedKind? = some kind

instance (values : List Value) : Decidable (AreComparable values) :=
  inferInstanceAs (Decidable (∃ kind, ∀ value ∈ values, value.orderedKind? = some kind))

theorem Comparable.symm {left right : Value} (comparable : Comparable left right) :
    Comparable right left := by
  rcases comparable with ⟨kind, leftKind, rightKind⟩
  exact ⟨kind, rightKind, leftKind⟩

theorem Comparable.trans {left middle right : Value} (first : Comparable left middle)
    (second : Comparable middle right) : Comparable left right := by
  rcases first with ⟨kind, leftKind, middleKind⟩
  rcases second with ⟨otherKind, middleOther, rightKind⟩
  rw [middleKind, Option.some_inj] at middleOther
  subst middleOther
  exact ⟨kind, leftKind, rightKind⟩

instance : Trans Comparable Comparable Comparable := ⟨Comparable.trans⟩

theorem Comparable.congr_left {left right value : Value} (comparable : Comparable left right) :
    Comparable left value ↔ Comparable right value :=
  ⟨comparable.symm.trans, comparable.trans⟩

theorem comparable_number_iff {left right : Number} :
    Comparable (.number left) (.number right) ↔ ¬(left.isNaN = true ∨ right.isNaN = true) := by
  simp only [Comparable, Value.orderedKind?, Option.ite_none_left_eq_some]
  grind

theorem requires_order (left right : Value) :
    Requires (Comparable left right) (order left right) := by
  cases left <;> cases right
  case number.number left right =>
    rw [comparable_number_iff, ← Number.compare?_eq_none_iff]
    simp only [order]
    split
    · rename_i ordering compared
      exact ⟨fun _ => ⟨ordering, rfl⟩, fun apart => absurd (compared ▸ nofun) apart⟩
    · rename_i compared
      exact ⟨fun ordered => absurd compared ordered, fun _ => ⟨_, rfl⟩⟩
  case string.string left right =>
    exact ⟨fun _ => ⟨_, rfl⟩, fun apart => absurd ⟨.string, rfl, rfl⟩ apart⟩
  case instant.instant left right =>
    exact ⟨fun _ => ⟨_, rfl⟩, fun apart => absurd ⟨.instant, rfl, rfl⟩ apart⟩
  all_goals
    refine ⟨?_, fun _ => ⟨_, rfl⟩⟩
    rintro ⟨kind, leftKind, rightKind⟩
    grind [Value.orderedKind?]

/-- Compared in the other direction, two values give the opposite answer. -/
theorem order_swap {left right : Value} {ordering : Ordering}
    (ordered : order left right = .ok ordering) : order right left = .ok ordering.swap := by
  cases left <;> cases right
  case number.number left right =>
    simp only [order] at ordered ⊢
    rw [Number.compare?_swap]
    cases compared : left.compare? right with
    | none => rw [compared] at ordered; cases ordered
    | some given => rw [compared] at ordered; cases ordered; rfl
  case string.string left right =>
    cases ordered
    exact congrArg Except.ok Std.OrientedCmp.eq_swap
  case instant.instant left right =>
    cases ordered
    simp only [order, Instant.order_eq_cmp, cmp_swap]
  all_goals cases ordered

/-- Two values of one kind are equal exactly if they compare as equal. -/
theorem beq_eq_of_order {left right : Value} {ordering : Ordering}
    (ordered : order left right = .ok ordering) : (left == right) = (ordering == .eq) := by
  cases left <;> cases right
  case number.number left right =>
    simp only [order] at ordered
    change (left == right) = _
    rw [Number.beq_eq_compare?]
    cases compared : left.compare? right with
    | none => rw [compared] at ordered; cases ordered
    | some given => rw [compared] at ordered; cases ordered; rfl
  case string.string left right =>
    cases ordered
    change (left == right) = (compare left right == .eq)
    rw [Bool.eq_iff_iff, beq_iff_eq, beq_iff_eq, compare_eq_iff_eq]
  case instant.instant left right =>
    cases ordered
    change (left == right) = (left.order right == .eq)
    rw [Instant.order_eq_cmp, Bool.eq_iff_iff, beq_iff_eq, beq_iff_eq, cmp_eq_eq_iff]
  all_goals cases ordered

theorem areComparable_iff_forall {first : Value} {rest : List Value} (some : rest ≠ []) :
    AreComparable (first :: rest) ↔ ∀ value ∈ rest, Comparable first value := by
  constructor
  · rintro ⟨kind, kinds⟩ value valueMem
    exact ⟨kind, kinds first List.mem_cons_self, kinds value (List.mem_cons_of_mem first valueMem)⟩
  · intro comparable
    rcases List.exists_mem_of_ne_nil rest some with ⟨value, valueMem⟩
    rcases comparable value valueMem with ⟨kind, firstKind, _⟩
    refine ⟨kind, List.forall_mem_cons.mpr ⟨firstKind, ?_⟩⟩
    intro other otherMem
    rcases comparable other otherMem with ⟨otherKind, firstOther, otherKind_eq⟩
    rw [firstKind, Option.some_inj] at firstOther
    exact firstOther ▸ otherKind_eq

/-- It is enough to look at neighbours. -/
theorem areComparable_iff_isChain {first : Value} {rest : List Value} (some : rest ≠ []) :
    AreComparable (first :: rest) ↔ (first :: rest).IsChain Comparable := by
  rw [areComparable_iff_forall some, List.isChain_iff_pairwise, List.pairwise_cons]
  refine ⟨fun comparable => ⟨comparable, ?_⟩, And.left⟩
  apply List.pairwise_of_forall_mem_list
  intro left leftMem right rightMem
  exact (comparable left leftMem).symm.trans (comparable right rightMem)

end Comparison

/-! ## Scales -/

instance instLinearOrderInt64 : LinearOrder Int64 where
  le_refl := Int64.le_refl
  le_trans _ _ _ := Int64.le_trans
  le_antisymm _ _ := Int64.le_antisymm
  le_total := Int64.le_total
  lt_iff_le_not_ge left right := by
    rw [Int64.lt_iff_toInt_lt, Int64.le_iff_toInt_le, Int64.le_iff_toInt_le]
    omega
  toDecidableLE := inferInstance

/-- The types of values that are totally ordered. -/
inductive Scale where
  | integers
  | strings
  | instants
deriving DecidableEq

namespace Scale

/-- What a scale orders. -/
def Point : Scale → Type
  | .integers => Int64
  | .strings => String
  | .instants => Instant

instance : (scale : Scale) → LinearOrder scale.Point
  | .integers => inferInstanceAs (LinearOrder Int64)
  | .strings => inferInstanceAs (LinearOrder String)
  | .instants => inferInstanceAs (LinearOrder Instant)

/-- A point of a scale as a value. -/
def value : (scale : Scale) → scale.Point → Value
  | .integers => Value.int
  | .strings => .string
  | .instants => .instant

/-- Values compare as the points of their scale. -/
theorem order_value (scale : Scale) (left right : scale.Point) :
    Comparison.order (scale.value left) (scale.value right) = .ok (cmp left right) := by
  cases scale with
  | integers =>
      have toInt_mono : StrictMono Int64.toInt := fun _ _ less => Int64.lt_iff_toInt_lt.mp less
      have compared : compare (Int64.toInt left) (Int64.toInt right) = cmp left right := by
        rw [← cmp_eq_compare]
        exact toInt_mono.cmp_map_eq left right
      exact congrArg Except.ok compared
  | strings => exact congrArg Except.ok (@cmp_eq_compare String _ left right).symm
  | instants => exact congrArg Except.ok (Instant.order_eq_cmp left right)

end Scale

end MeteredRules
