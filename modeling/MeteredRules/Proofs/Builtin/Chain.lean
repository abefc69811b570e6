import MeteredRules.Proofs.Builtin.Call
import MeteredRules.Proofs.Builtin.Order

/-!
# Chains of comparisons

A chain compares neighbours only, and goes on after the first pair that is out of order. Because
values of one kind compare among themselves, all neighbours compare exactly if all values do, so a
chain finds every value of another kind wherever it stands. Because the order of a scale is
transitive, all neighbours are in order exactly if all pairs are, so a chain tests whether a list is
sorted.
-/

namespace MeteredRules

namespace Comparison

theorem requires_chain (accepted : Ordering → Bool) (first : Value) (rest : List Value) :
    Requires ((first :: rest).IsChain Comparable) (chain accepted first rest) := by
  induction rest generalizing first with
  | nil => exact (Requires.ok true).congr (iff_of_true trivial (List.isChain_singleton first))
  | cons second rest ih =>
      rw [List.isChain_cons_cons]
      apply Requires.bind (requires_order first second)
      intro ordering _
      exact (ih second).map _

section Directions

variable {α : Type} [LinearOrder α] (left right : α)

theorem isLT_cmp_iff : (cmp left right).isLT = true ↔ left < right := by
  rw [Ordering.isLT_iff_eq_lt, cmp_eq_lt_iff]

theorem isGT_cmp_iff : (cmp left right).isGT = true ↔ left > right := by
  rw [Ordering.isGT_iff_eq_gt, cmp_eq_gt_iff]

theorem isLE_cmp_iff : (cmp left right).isLE = true ↔ left ≤ right := by
  rw [Ordering.isLE_iff_ne_gt, cmp_eq_gt_iff, not_lt]

theorem isGE_cmp_iff : (cmp left right).isGE = true ↔ left ≥ right := by
  rw [Ordering.isGE_iff_ne_lt, cmp_eq_lt_iff, not_lt]

end Directions

section Sorted

variable {scale : Scale} {accepted : Ordering → Bool}

theorem chain_value (accepted : Ordering → Bool) (first : scale.Point) (rest : List scale.Point) :
    chain accepted (scale.value first) (rest.map scale.value) =
      .ok (decide ((first :: rest).IsChain fun left right => accepted (cmp left right) = true)) := by
  induction rest generalizing first with
  | nil => simp [chain]
  | cons second rest ih =>
      simp only [List.map_cons, chain, scale.order_value, ih second, List.isChain_cons_cons,
        Bool.decide_and, Bool.decide_eq_true]
      rfl

/-- A chain tests whether points are sorted by the relation that it accepts. -/
theorem chain_eq_sorted (related : scale.Point → scale.Point → Prop) [DecidableRel related]
    [Trans related related related]
    (agrees : ∀ left right, accepted (cmp left right) = true ↔ related left right)
    (first : scale.Point) (rest : List scale.Point) :
    chain accepted (scale.value first) (rest.map scale.value) =
      .ok (decide ((first :: rest).Pairwise related)) := by
  simp only [chain_value, agrees, List.isChain_iff_pairwise]

end Sorted

/-! ## Calls -/

/-- A primitive that compares neighbours and asks for what is accepted. -/
structure Chains (primitive : Primitive) (accepted : Ordering → Bool) : Prop where
  body : primitive.body = Primitive.comparison accepted
  arity : primitive.arity = .atLeast 2

namespace Chains

theorem less : Chains .less Ordering.isLT := ⟨rfl, rfl⟩

theorem lessOrEqual : Chains .lessOrEqual Ordering.isLE := ⟨rfl, rfl⟩

theorem greater : Chains .greater Ordering.isGT := ⟨rfl, rfl⟩

theorem greaterOrEqual : Chains .greaterOrEqual Ordering.isGE := ⟨rfl, rfl⟩

variable {primitive : Primitive} {accepted : Ordering → Bool}

theorem call (chains : Chains primitive accepted) (host : Host) (first second : Value)
    (rest : List Value) :
    (Callable.builtin (.primitive primitive)).call host (first :: second :: rest) =
      Primitive.give (chain accepted first (second :: rest)) Value.boolean := by
  have enough : primitive.arity.accepts (first :: second :: rest).length = true := by
    simp [chains.arity, Arity.accepts]
  rw [Callable.call_primitive host enough, chains.body]
  exact Function.variadicAfter_value _ first (second :: rest)

/-- A comparison succeeds exactly on values of one kind. -/
theorem call_cases (chains : Chains primitive accepted) (host : Host) {values : List Value}
    (enough : 2 ≤ values.length) :
    (AreComparable values → ∃ truth, (Callable.builtin (.primitive primitive)).call host values =
      .ofResult (.ok (.boolean truth))) ∧
    (¬AreComparable values → ∃ cause, (Callable.builtin (.primitive primitive)).call host values =
      .ofResult (.error (.refuse cause))) := by
  rcases values with _ | ⟨first, _ | ⟨second, rest⟩⟩
  · simp at enough
  · simp at enough
  have requires := requires_chain accepted first (second :: rest)
  rw [← areComparable_iff_isChain (List.cons_ne_nil second rest)] at requires
  rw [chains.call]
  constructor
  · intro comparable
    rcases requires.success comparable with ⟨truth, given⟩
    refine ⟨truth, ?_⟩
    rw [given]
    rfl
  · intro apart
    rcases requires.refusal apart with ⟨cause, refused⟩
    refine ⟨cause, ?_⟩
    rw [refused]
    rfl

theorem call_sorted (chains : Chains primitive accepted) (host : Host) {scale : Scale}
    {related : scale.Point → scale.Point → Prop} [DecidableRel related]
    [Trans related related related]
    (agrees : ∀ left right, accepted (cmp left right) = true ↔ related left right)
    {points : List scale.Point} (enough : 2 ≤ points.length) :
    (Callable.builtin (.primitive primitive)).call host (points.map scale.value) =
      .ofResult (.ok (.boolean (decide (points.Pairwise related)))) := by
  rcases points with _ | ⟨first, _ | ⟨second, rest⟩⟩
  · simp at enough
  · simp at enough
  have tested := chain_eq_sorted related agrees first (second :: rest)
  simp only [List.map_cons] at tested ⊢
  rw [chains.call, tested]
  rfl

end Chains

end Comparison

open Comparison (AreComparable Chains isLT_cmp_iff isGT_cmp_iff isLE_cmp_iff isGE_cmp_iff)

/--
A chain of comparisons succeeds exactly if all its values are of one ordered kind, and otherwise
refuses some of them, whatever the order of the others. On the points of a scale it tests whether
they are sorted, and a chain that descends is the chain of the reversed list that ascends.
-/
theorem Callable.tests_sorted (host : Host) :
    let call := fun primitive values =>
      (Callable.builtin (.primitive primitive)).call host values
    (∀ primitive ∈ [Primitive.less, .lessOrEqual, .greater, .greaterOrEqual],
      ∀ values : List Value, 2 ≤ values.length →
        (AreComparable values → ∃ truth, call primitive values = .ofResult (.ok (.boolean truth))) ∧
        (¬AreComparable values → ∃ cause,
          call primitive values = .ofResult (.error (.refuse cause)))) ∧
    ∀ (scale : Scale) (points : List scale.Point), 2 ≤ points.length →
      call .less (points.map scale.value) =
        .ofResult (.ok (.boolean (decide (points.Pairwise (· < ·))))) ∧
      call .lessOrEqual (points.map scale.value) =
        .ofResult (.ok (.boolean (decide (points.Pairwise (· ≤ ·))))) ∧
      call .greater (points.map scale.value) = call .less (points.reverse.map scale.value) ∧
      call .greaterOrEqual (points.map scale.value) =
        call .lessOrEqual (points.reverse.map scale.value) := by
  intro call
  refine ⟨?_, ?_⟩
  · intro primitive isComparison values enough
    simp only [List.mem_cons, List.not_mem_nil, or_false] at isComparison
    rcases isComparison with rfl | rfl | rfl | rfl
    · exact Chains.less.call_cases host enough
    · exact Chains.lessOrEqual.call_cases host enough
    · exact Chains.greater.call_cases host enough
    · exact Chains.greaterOrEqual.call_cases host enough
  · intro scale points enough
    have reversed : 2 ≤ points.reverse.length := by
      rw [List.length_reverse]
      exact enough
    refine ⟨Chains.less.call_sorted host isLT_cmp_iff enough,
      Chains.lessOrEqual.call_sorted host isLE_cmp_iff enough, ?_, ?_⟩
    · have descending := Chains.greater.call_sorted host isGT_cmp_iff enough
      have ascending := Chains.less.call_sorted host isLT_cmp_iff reversed
      simp only [List.pairwise_reverse] at ascending
      exact descending.trans ascending.symm
    · have descending := Chains.greaterOrEqual.call_sorted host isGE_cmp_iff enough
      have ascending := Chains.lessOrEqual.call_sorted host isLE_cmp_iff reversed
      simp only [List.pairwise_reverse] at ascending
      exact descending.trans ascending.symm

/-- A pair out of order does not hide a value of another kind behind it. -/
theorem Callable.tests_sorted_mixed :
    let host : Host := fun _ _ => .ofResult (.ok .nil)
    let call := fun primitive values =>
      (Callable.builtin (.primitive primitive)).call host values
    call .less [.int 1, .int 3, .int 2] = .ofResult (.ok (.boolean false)) ∧
    call .greaterOrEqual [.string "b", .string "b", .string "a"] =
      .ofResult (.ok (.boolean true)) ∧
    (∃ truth, call .less [.int 1, .float (Float.ofNat 2)] = .ofResult (.ok (.boolean truth))) ∧
    ∃ cause, call .less [.int 2, .int 1, .string "x"] = .ofResult (.error (.refuse cause)) := by
  intro host call
  rcases tests_sorted host with ⟨succeeds, sorted⟩
  rcases sorted .integers ([1, 3, 2] : List Int64) (by decide) with ⟨less, _⟩
  rcases sorted .strings ["b", "b", "a"] (by decide) with ⟨_, _, _, descending⟩
  rcases sorted .strings ["a", "b", "b"] (by decide) with ⟨_, ascending, _⟩
  have numbers := succeeds .less (by decide) [.int 1, .float (Float.ofNat 2)] (by decide)
  have apart := succeeds .less (by decide) [.int 2, .int 1, .string "x"] (by decide)
  exact ⟨less, descending.trans ascending, numbers.1 (by decide), apart.2 (by decide)⟩

end MeteredRules
