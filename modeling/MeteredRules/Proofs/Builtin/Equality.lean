import MeteredRules.Proofs.Builtin.Chain
import MeteredRules.Proofs.Error
import MeteredRules.Proofs.Value.Parts

/-!
# Equality and order

Equality is symmetric: two arrays are compared element by element, and for numbers, whatever their
kind, it can be read off their order. The two functions that test for equality ask for the same
types, and they are each other's negation. Where two values are ordered, exactly one of less, equal
and greater holds.
-/

namespace MeteredRules

/-! ## Symmetry -/

theorem Number.beq_comm (left right : Number) : (left == right) = (right == left) := by
  rw [beq_eq_compare?, beq_eq_compare?, compare?_swap right left]
  cases right.compare? left with
  | none => rfl
  | some ordering => cases ordering <;> rfl

namespace Value

theorem equalItems_comm {lefts : List Value}
    (comm : ∀ left ∈ lefts, ∀ right, (left == right) = (right == left)) (rights : List Value) :
    equalItems lefts rights = equalItems rights lefts := by
  induction lefts generalizing rights with
  | nil => cases rights <;> rfl
  | cons left lefts ih =>
      rw [List.forall_mem_cons] at comm
      cases rights with
      | nil => rfl
      | cons right rights =>
          change ((left == right) && equalItems lefts rights) =
            ((right == left) && equalItems rights lefts)
          rw [comm.1, ih comm.2]

theorem beq_comm (left right : Value) : (left == right) = (right == left) := by
  induction left using Value.induction generalizing right with
  | number amount =>
      cases right with
      | number other => exact Number.beq_comm amount other
      | _ => rfl
  | string text =>
      cases right with
      | string other => exact (BEq.comm : (text == other) = _)
      | _ => rfl
  | boolean truth =>
      cases right with
      | boolean other => exact (BEq.comm : (truth == other) = _)
      | _ => rfl
  | nil => cases right <;> rfl
  | array items ih =>
      cases right with
      | array others => exact equalItems_comm ih others
      | _ => rfl
  | instant moment =>
      cases right with
      | instant other => exact (BEq.comm : (moment == other) = _)
      | _ => rfl
  | callable function =>
      cases right with
      | callable other => exact (BEq.comm : (function.id == other.id) = _)
      | _ => rfl

end Value

/-! ## Tests of two values -/

namespace Comparison

variable {left right : Value} {ordering : Ordering}

theorem areEquatable_comm (left right : Value) :
    areEquatable left right = areEquatable right left := by
  cases left <;> cases right <;> rfl

/-- Values that are ordered are of one type. -/
theorem areEquatable_of_order (ordered : order left right = .ok ordering) :
    areEquatable left right = true := by
  cases left <;> cases right
  case number.number => rfl
  case string.string => rfl
  case instant.instant => rfl
  all_goals cases ordered

/-- The tests for equality in either direction, and for inequality, succeed together and agree. -/
theorem equality_cases (left right : Value) :
    (equal left right = .ok (left == right) ∧ notEqual left right = .ok (!(left == right)) ∧
      equal right left = .ok (left == right)) ∨
    ∃ error other, equal left right = .error error ∧ notEqual left right = .error error ∧
      equal right left = .error other := by
  simp only [equal, notEqual, areEquatable_comm right left, Value.beq_comm right left]
  by_cases equatable : areEquatable left right = true
  · exact .inl ⟨if_pos equatable, if_pos equatable, if_pos equatable⟩
  · exact .inr ⟨_, _, if_neg equatable, if_neg equatable, if_neg equatable⟩

theorem equal_of_order (ordered : order left right = .ok ordering) :
    equal left right = .ok (ordering == .eq) := by
  rw [equal, if_pos (areEquatable_of_order ordered), Value.beq_comm, beq_eq_of_order ordered]

theorem allEqual_pair (left right : Value) : allEqual left [right] = equal left right := by
  cases compared : equal left right with
  | error error => simp only [allEqual, compared, Error.error_bind]
  | ok same =>
      simp only [allEqual, compared, Error.ok_bind, Bool.and_true]
      rfl

theorem Chains.call_pair {primitive : Primitive} {accepted : Ordering → Bool}
    (chains : Chains primitive accepted) (host : Host)
    (ordered : order left right = .ok ordering) :
    (Callable.builtin (.primitive primitive)).call host [left, right] =
      .ofResult (.ok (.boolean (accepted ordering))) := by
  have compared : chain accepted left [right] = .ok (accepted ordering) := by
    simp only [chain, ordered, Error.ok_bind, Bool.and_true]
    rfl
  rw [chains.call, compared]
  rfl

end Comparison

namespace Callable

theorem call_equal (host : Host) (left right : Value) :
    (Callable.builtin (.primitive .equal)).call host [left, right] =
      Primitive.give (Comparison.equal left right) Value.boolean := by
  rw [call_primitive host rfl, ← Comparison.allEqual_pair]
  exact Function.variadicAfter_value _ left [right]

theorem call_notEqual (host : Host) (left right : Value) :
    (Callable.builtin (.primitive .notEqual)).call host [left, right] =
      Primitive.give (Comparison.notEqual left right) Value.boolean := by
  rw [call_primitive host rfl]
  exact Function.binary_value _ left right

end Callable

open Comparison (AreComparable Chains)

/--
Equality of values is symmetric. The calls that test for equality, in either direction, and the one
that tests for the opposite succeed together, and the two opposite ones fail with the same error. Of
less, equal and greater exactly one holds between two values of one ordered kind; the test for less
or equal agrees with both, and to be less is to have the other one greater.
-/
theorem Callable.equality_agrees (host : Host) (left right : Value) :
    let call := fun primitive left right =>
      (Callable.builtin (.primitive primitive)).call host [left, right]
    (left == right) = (right == left) ∧
    ((call .equal left right = .ofResult (.ok (.boolean (left == right))) ∧
        call .notEqual left right = .ofResult (.ok (.boolean !(left == right))) ∧
        call .equal right left = .ofResult (.ok (.boolean (left == right)))) ∨
      ∃ error other, call .equal left right = .ofResult (.error error) ∧
        call .notEqual left right = .ofResult (.error error) ∧
        call .equal right left = .ofResult (.error other)) ∧
    (AreComparable [left, right] → ∃ less equal greater : Bool,
      call .less left right = .ofResult (.ok (.boolean less)) ∧
      call .equal left right = .ofResult (.ok (.boolean equal)) ∧
      call .greater left right = .ofResult (.ok (.boolean greater)) ∧
      [less, equal, greater].count true = 1 ∧
      call .lessOrEqual left right = .ofResult (.ok (.boolean (less || equal))) ∧
      call .greater right left = .ofResult (.ok (.boolean less))) := by
  intro call
  refine ⟨Value.beq_comm left right, ?_, ?_⟩
  · simp only [call, Callable.call_equal, Callable.call_notEqual]
    rcases Comparison.equality_cases left right with
      ⟨same, differ, swapped⟩ | ⟨error, other, same, differ, swapped⟩
    · left
      rw [same, differ, swapped]
      exact ⟨rfl, rfl, rfl⟩
    · right
      rw [same, differ, swapped]
      exact ⟨error, other, rfl, rfl, rfl⟩
  · intro comparable
    have kinds := (Comparison.areComparable_iff_forall (List.cons_ne_nil right [])).mp comparable
    rcases (Comparison.requires_order left right).success (kinds right List.mem_cons_self) with
      ⟨ordering, ordered⟩
    refine ⟨ordering.isLT, ordering == .eq, ordering.isGT, Chains.less.call_pair host ordered, ?_,
      Chains.greater.call_pair host ordered, ?_, ?_, ?_⟩
    · simp only [call, Callable.call_equal, Comparison.equal_of_order ordered]
      rfl
    · cases ordering <;> rfl
    · have allowed : (ordering.isLT || ordering == .eq) = ordering.isLE := by
        cases ordering <;> rfl
      rw [allowed]
      exact Chains.lessOrEqual.call_pair host ordered
    · rw [← Ordering.isGT_swap]
      exact Chains.greater.call_pair host (Comparison.order_swap ordered)

/-- An integer and a float are ordered as well. -/
theorem Callable.equality_agrees_mixed :
    let host : Host := fun _ _ => .ofResult (.ok .nil)
    let call := fun primitive =>
      (Callable.builtin (.primitive primitive)).call host [.int 1, .float (Float.ofNat 2)]
    ∃ less equal greater : Bool,
      call .less = .ofResult (.ok (.boolean less)) ∧
      call .equal = .ofResult (.ok (.boolean equal)) ∧
      call .greater = .ofResult (.ok (.boolean greater)) ∧
      [less, equal, greater].count true = 1 := by
  intro host call
  rcases equality_agrees host (.int 1) (.float (Float.ofNat 2)) with ⟨_, _, ordered⟩
  rcases ordered (by decide) with ⟨less, equal, greater, isLess, isEqual, isGreater, one, _⟩
  exact ⟨less, equal, greater, isLess, isEqual, isGreater, one⟩

end MeteredRules
