import MeteredRules.Proofs.Builtin.Call
import MeteredRules.Proofs.Builtin.Order
import MeteredRules.Proofs.Error

/-!
# Extremes

One loop finds the greatest and the least value: it keeps the best value so far and exchanges it
only for one that is strictly better. Every further value meets the best one so far, which is always
of the kind of the first value, so the loop succeeds exactly if all further values are of this kind
too. On a scale it computes the maximum, or the minimum, and keeps the first of equal ones.
-/

namespace MeteredRules

namespace Comparison

/-- One round of the loop. -/
theorem extreme_cons_cons (wanted : Ordering) (best value : Value) (rest : List Value) :
    extreme wanted (best :: value :: rest) = (do
      let ordering ← order value best
      extreme wanted ((if ordering == wanted then value else best) :: rest)) := by
  simp only [extreme, List.foldlM_cons, bind_assoc, pure_bind]

theorem requires_extreme (wanted : Ordering) (best : Value) (rest : List Value) :
    Requires (∀ value ∈ rest, Comparable best value) (extreme wanted (best :: rest)) := by
  induction rest generalizing best with
  | nil => exact (Requires.ok best).congr (iff_of_true trivial (List.forall_mem_nil _))
  | cons value rest ih =>
      rw [extreme_cons_cons]
      have requires := requires_order value best
      apply (requires.bind fun ordering ordered => ?_).congr
      · rw [List.forall_mem_cons]
        exact and_congr_left' ⟨Comparable.symm, Comparable.symm⟩
      · -- Whichever value is kept, it is of the same kind as the best one so far.
        have comparable : Comparable value best := requires.of_eq_ok ordered
        split
        · apply (ih value).congr
          exact forall₂_congr fun other _ => comparable.congr_left
        · exact ih best

section Points

variable {scale : Scale} {wanted : Ordering}

/-- On a scale the loop is a fold over the points. -/
theorem extreme_value {better : scale.Point → scale.Point → Prop} [DecidableRel better]
    (agrees : ∀ point best, cmp point best = wanted ↔ better point best)
    (points : List scale.Point) :
    extreme wanted (points.map scale.value) =
      .ok ((points.foldl (List.argAux better) none).elim .nil scale.value) := by
  cases points with
  | nil => rfl
  | cons best rest =>
      induction rest generalizing best with
      | nil => rfl
      | cons point rest ih =>
          have kept : (if cmp point best == wanted then scale.value point else scale.value best) =
              scale.value (if better point best then point else best) := by
            simp only [beq_iff_eq, agrees, apply_ite scale.value]
          have folded : (best :: point :: rest).foldl (List.argAux better) none =
              ((if better point best then point else best) :: rest).foldl
                (List.argAux better) none := by
            simp only [List.foldl_cons, List.argAux, apply_ite some]
          rw [folded, ← ih]
          simp only [List.map_cons, extreme_cons_cons, scale.order_value, Error.ok_bind, kept]

theorem extreme_gt_value (points : List scale.Point) :
    extreme .gt (points.map scale.value) = .ok (points.maximum.elim .nil scale.value) :=
  extreme_value cmp_eq_gt_iff points

theorem extreme_lt_value (points : List scale.Point) :
    extreme .lt (points.map scale.value) = .ok (points.minimum.elim .nil scale.value) :=
  extreme_value cmp_eq_lt_iff points

end Points

section First

variable {α : Type} [LinearOrder α] {points : List α}

/-- The first of the greatest elements stands after smaller ones only. -/
theorem exists_first_greatest (some : points ≠ []) :
    ∃ (before : List α) (greatest : α) (after : List α), points = before ++ greatest :: after ∧
      points.maximum = greatest ∧ (∀ point ∈ points, point ≤ greatest) ∧
      ∀ point ∈ before, point < greatest := by
  rcases WithBot.ne_bot_iff_exists.mp (mt List.maximum_eq_bot.mp some) with ⟨greatest, found⟩
  have highest : ∀ point ∈ points, point ≤ greatest := by
    intro point pointMem
    exact List.le_maximum_of_mem pointMem found.symm
  rcases List.eq_append_cons_of_mem (List.maximum_mem found.symm) with
    ⟨before, after, split, isFirst⟩
  refine ⟨before, greatest, after, split, found.symm, highest, ?_⟩
  intro point pointMem
  have inPoints : point ∈ points := split ▸ List.mem_append_left _ pointMem
  exact lt_of_le_of_ne (highest point inPoints) (ne_of_mem_of_not_mem pointMem isFirst)

/-- The first of the least elements stands after greater ones only. -/
theorem exists_first_least (some : points ≠ []) :
    ∃ (before : List α) (least : α) (after : List α), points = before ++ least :: after ∧
      points.minimum = least ∧ (∀ point ∈ points, least ≤ point) ∧
      ∀ point ∈ before, least < point :=
  @exists_first_greatest αᵒᵈ _ points some

end First

/-! ## Calls -/

/-- A primitive that keeps the best element of an array. -/
structure Selects (primitive : Primitive) (wanted : Ordering) : Prop where
  body : primitive.body = .unary (.array .value) fun values => .ofResult (extreme wanted values)
  arity : primitive.arity = .exact 1

namespace Selects

theorem max : Selects .max .gt := ⟨rfl, rfl⟩

theorem min : Selects .min .lt := ⟨rfl, rfl⟩

variable {primitive : Primitive} {wanted : Ordering}

theorem call (selects : Selects primitive wanted) (host : Host) (values : List Value) :
    (Callable.builtin (.primitive primitive)).call host [.array values] =
      .ofResult (extreme wanted values) := by
  have single : primitive.arity.accepts [Value.array values].length = true := by
    simp [selects.arity, Arity.accepts]
  rw [Callable.call_primitive host single, selects.body, Function.unary_elements]

/-- An array of several values has an extreme exactly if they are of one kind. -/
theorem call_cases (selects : Selects primitive wanted) (host : Host) {values : List Value}
    (enough : 2 ≤ values.length) :
    (AreComparable values → ∃ best,
      (Callable.builtin (.primitive primitive)).call host [.array values] =
        .ofResult (.ok best)) ∧
    (¬AreComparable values → ∃ cause,
      (Callable.builtin (.primitive primitive)).call host [.array values] =
        .ofResult (.error (.refuse cause))) := by
  rcases values with _ | ⟨first, _ | ⟨second, rest⟩⟩
  · simp at enough
  · simp at enough
  have requires := requires_extreme wanted first (second :: rest)
  rw [← areComparable_iff_forall (List.cons_ne_nil second rest)] at requires
  rw [selects.call]
  constructor
  · intro comparable
    rcases requires.success comparable with ⟨best, given⟩
    exact ⟨best, congrArg Action.ofResult given⟩
  · intro apart
    rcases requires.refusal apart with ⟨cause, refused⟩
    exact ⟨cause, congrArg Action.ofResult refused⟩

theorem max_call_points (host : Host) {scale : Scale} (points : List scale.Point) :
    (Callable.builtin (.primitive .max)).call host [.array (points.map scale.value)] =
      .ofResult (.ok (points.maximum.elim .nil scale.value)) := by
  rw [Selects.max.call, extreme_gt_value]

theorem min_call_points (host : Host) {scale : Scale} (points : List scale.Point) :
    (Callable.builtin (.primitive .min)).call host [.array (points.map scale.value)] =
      .ofResult (.ok (points.minimum.elim .nil scale.value)) := by
  rw [Selects.min.call, extreme_lt_value]

end Selects

end Comparison

open Comparison (AreComparable Selects)

/--
An array of several values has a greatest and a least element exactly if its elements are of one
ordered kind, and is refused otherwise; an empty array has `nil`, and a single element is its own
extreme, whatever it is. On a scale the result is the first element that no other one exceeds, or
undercuts, and it does not depend on the order of the array.
-/
theorem Callable.finds_extremes (host : Host) :
    let call := fun primitive values =>
      (Callable.builtin (.primitive primitive)).call host [.array values]
    (∀ primitive ∈ [Primitive.max, .min],
      call primitive [] = .ofResult (.ok .nil) ∧
      (∀ value, call primitive [value] = .ofResult (.ok value)) ∧
      (∀ values : List Value, 2 ≤ values.length →
        (AreComparable values → ∃ best, call primitive values = .ofResult (.ok best)) ∧
        (¬AreComparable values → ∃ cause,
          call primitive values = .ofResult (.error (.refuse cause)))) ∧
      ∀ (scale : Scale) (points others : List scale.Point), points.Perm others →
        call primitive (points.map scale.value) = call primitive (others.map scale.value)) ∧
    ∀ (scale : Scale) (points : List scale.Point), points ≠ [] →
      (∃ (before : List scale.Point) (greatest : scale.Point) (after : List scale.Point),
        points = before ++ greatest :: after ∧
        call .max (points.map scale.value) = .ofResult (.ok (scale.value greatest)) ∧
        (∀ point ∈ points, point ≤ greatest) ∧ ∀ point ∈ before, point < greatest) ∧
      ∃ (before : List scale.Point) (least : scale.Point) (after : List scale.Point),
        points = before ++ least :: after ∧
        call .min (points.map scale.value) = .ofResult (.ok (scale.value least)) ∧
        (∀ point ∈ points, least ≤ point) ∧ ∀ point ∈ before, least < point := by
  intro call
  refine ⟨?_, ?_⟩
  · intro primitive isExtreme
    simp only [List.mem_cons, List.not_mem_nil, or_false] at isExtreme
    rcases isExtreme with rfl | rfl
    · refine ⟨Selects.max.call host [], fun value => Selects.max.call host [value],
        fun values => Selects.max.call_cases host, ?_⟩
      intro scale points others permuted
      simp only [call, Selects.max_call_points, permuted.maximum_eq]
    · refine ⟨Selects.min.call host [], fun value => Selects.min.call host [value],
        fun values => Selects.min.call_cases host, ?_⟩
      intro scale points others permuted
      simp only [call, Selects.min_call_points, permuted.minimum_eq]
  · intro scale points some
    constructor
    · rcases Comparison.exists_first_greatest some with
        ⟨before, greatest, after, split, found, highest, isFirst⟩
      refine ⟨before, greatest, after, split, ?_, highest, isFirst⟩
      simp only [call, Selects.max_call_points, found]
      rfl
    · rcases Comparison.exists_first_least some with
        ⟨before, least, after, split, found, lowest, isFirst⟩
      refine ⟨before, least, after, split, ?_, lowest, isFirst⟩
      simp only [call, Selects.min_call_points, found]
      rfl

/-- A string at the end makes an array of numbers one without a greatest element. -/
theorem Callable.finds_extremes_mixed :
    let host : Host := fun _ _ => .ofResult (.ok .nil)
    let call := fun primitive values =>
      (Callable.builtin (.primitive primitive)).call host [.array values]
    (∃ (before : List Int64) (greatest : Int64) (after : List Int64),
      [2, 3, 1] = before ++ greatest :: after ∧
      call .max [.int 2, .int 3, .int 1] = .ofResult (.ok (.int greatest)) ∧
      (∀ point ∈ [2, 3, 1], point ≤ greatest) ∧ ∀ point ∈ before, point < greatest) ∧
    call .min [.string "b", .string "a"] = call .min [.string "a", .string "b"] ∧
    (∃ best, call .max [.int 1, .float (Float.ofNat 2)] = .ofResult (.ok best)) ∧
    ∃ cause, call .max [.int 2, .int 1, .string "x"] = .ofResult (.error (.refuse cause)) := by
  intro host call
  rcases finds_extremes host with ⟨always, firsts⟩
  rcases firsts .integers ([2, 3, 1] : List Int64) (List.cons_ne_nil _ _) with ⟨greatest, _⟩
  rcases always .min (by decide) with ⟨_, _, _, permuted⟩
  rcases always .max (by decide) with ⟨_, _, several, _⟩
  have swapped := permuted .strings ["b", "a"] ["a", "b"] (List.Perm.swap "a" "b" [])
  have numbers := several [.int 1, .float (Float.ofNat 2)] (by decide)
  have apart := several [.int 2, .int 1, .string "x"] (by decide)
  exact ⟨greatest, swapped, numbers.1 (by decide), apart.2 (by decide)⟩

end MeteredRules
