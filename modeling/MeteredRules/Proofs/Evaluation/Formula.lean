import MeteredRules.Proofs.Evaluation.Quotation
import MeteredRules.Proofs.Reader.Depth

/-!
# Integer formulas

Formulas are built from 64-bit integers with sum, difference and product of two operands, and are
written with parentheses around every operation. As programs they compute exactly: the result is the
mathematical value of the formula if the value of every part of it is a 64-bit integer, and an
overflow is reported otherwise. Nothing wraps around, and nothing else can go wrong, apart from a
formula that is nested deeper than the reader allows.
-/

namespace MeteredRules

/-- The operations of formulas. -/
inductive Operator where
  | add
  | subtract
  | multiply
deriving DecidableEq

namespace Operator

/-- The built-in function of an operation. -/
def primitive : Operator → Primitive
  | .add => .add
  | .subtract => .subtract
  | .multiply => .multiply

/-- The name under which programs call an operation. -/
def name (operator : Operator) : String :=
  operator.primitive.name

/-- The operation on integers of any size. -/
def apply : Operator → Int → Int → Int
  | .add, left, right => left + right
  | .subtract, left, right => left - right
  | .multiply, left, right => left * right

/-- What is reported if the result of an operation does not fit. -/
def overflow : Operator → Overflow
  | .add => .addition
  | .subtract => .subtraction
  | .multiply => .multiplication

end Operator

/-- Arithmetic on 64-bit integers. -/
inductive Formula where
  | literal (value : Int64)
  | binary (operator : Operator) (left right : Formula)

namespace Formula

/-- A formula as a source text. -/
def source : Formula → String
  | .literal value => String.ofList (Decimal.ofInt value.toInt)
  | .binary operator left right =>
    "(" ++ operator.name ++ " " ++ left.source ++ " " ++ right.source ++ ")"

/-- The value of a formula as an integer of any size. -/
def value : Formula → Int
  | .literal value => value.toInt
  | .binary operator left right => operator.apply left.value right.value

/-- A formula and all formulas in it. -/
def parts : Formula → List Formula
  | .literal value => [.literal value]
  | .binary operator left right => .binary operator left right :: (left.parts ++ right.parts)

/-- Every part of a formula has a value that is a 64-bit integer. -/
def Fits (formula : Formula) : Prop :=
  ∀ part ∈ formula.parts,
    Int64.minValue.toInt ≤ part.value ∧ part.value ≤ Int64.maxValue.toInt

/-- The number of operations in a formula. -/
def operatorCount : Formula → Nat
  | .literal _ => 0
  | .binary _ left right => left.operatorCount + right.operatorCount + 1

/-- How deep the operations of a formula are nested. -/
def nesting : Formula → Nat
  | .literal _ => 0
  | .binary _ left right => max left.nesting right.nesting + 1

/-- The expression that the source text of a formula spells. -/
def node : Formula → Node
  | .literal value => .atom (.int value)
  | .binary operator left right => .form [.symbol operator.name, left.node, right.node]

theorem fits_literal (value : Int64) : (literal value).Fits := by
  simp only [Fits, parts, List.forall_mem_singleton]
  exact ⟨value.le_toInt, value.toInt_le⟩

theorem fits_binary {operator : Operator} {left right : Formula} :
    (binary operator left right).Fits ↔
      left.Fits ∧ right.Fits ∧
        Int64.minValue.toInt ≤ operator.apply left.value right.value ∧
        operator.apply left.value right.value ≤ Int64.maxValue.toInt := by
  simp only [Fits, parts, List.forall_mem_cons, List.forall_mem_append, value]
  constructor
  · rintro ⟨whole, left, right⟩
    exact ⟨left, right, whole⟩
  · rintro ⟨left, right, whole⟩
    exact ⟨whole, left, right⟩

/-- A formula of some depth is at most as large as the complete tree of this depth. -/
theorem operatorCount_lt (formula : Formula) : formula.operatorCount < 2 ^ formula.nesting := by
  induction formula with
  | literal value => simp [operatorCount, nesting]
  | binary operator left right ihLeft ihRight =>
      have leftBound : 2 ^ left.nesting ≤ 2 ^ max left.nesting right.nesting :=
        Nat.pow_le_pow_right (by decide) (Nat.le_max_left _ _)
      have rightBound : 2 ^ right.nesting ≤ 2 ^ max left.nesting right.nesting :=
        Nat.pow_le_pow_right (by decide) (Nat.le_max_right _ _)
      simp only [operatorCount, nesting, Nat.pow_succ]
      omega

/-! ## Reading a formula -/

theorem display_node (formula : Formula) : formula.node.display = formula.source := by
  induction formula with
  | literal value => rfl
  | binary operator left right ihLeft ihRight =>
      simp [node, source, Node.display, Node.displayArguments, ihLeft, ihRight, String.append_assoc]

theorem depth_node (formula : Formula) : formula.node.depth = formula.nesting := by
  induction formula with
  | literal value => rfl
  | binary operator left right ihLeft ihRight =>
      simp [node, nesting, Node.depth, Node.greatestDepth, ihLeft, ihRight]

theorem formCount_node (formula : Formula) : formula.node.formCount = formula.operatorCount := by
  induction formula with
  | literal value => rfl
  | binary operator left right ihLeft ihRight =>
      simp [node, operatorCount, Node.formCount, Node.totalFormCount, ihLeft, ihRight]

theorem specialCount_node (formula : Formula) : formula.node.specialCount = 0 := by
  induction formula with
  | literal value => rfl
  | binary operator left right ihLeft ihRight =>
      simp [node, Node.specialCount, Node.totalSpecialCount, ihLeft, ihRight]

open Reader (Options Spells)

variable {options : Options} {depth : Nat}

/-- The names of the operations are words, the minus sign alone included. -/
theorem spells_operator (operator : Operator) :
    Spells options depth (Node.symbol operator.name).display.toList (.symbol operator.name) := by
  apply Reader.spells_of_isName
  cases options.comments <;> cases operator <;> decide

/-- A formula is spelled by its source text as long as the reader allows its depth. -/
theorem spells_node {formula : Formula} (shallow : depth + formula.nesting ≤ options.maxDepth) :
    Spells options depth formula.node.display.toList formula.node := by
  induction formula generalizing depth with
  | literal value => exact Reader.spells_literal (Reader.read_display_int value)
  | binary operator left right ihLeft ihRight =>
      simp only [nesting] at shallow
      have unreserved : SpecialForm.ofName? operator.name = none := by
        cases operator <;> decide
      apply Reader.spells_call unreserved (by omega) (spells_operator operator)
      simp only [List.forall_mem_cons, List.not_mem_nil, false_implies, implies_true, and_true]
      exact ⟨ihLeft (by omega), ihRight (by omega)⟩

theorem read_source {formula : Formula} (shallow : formula.nesting ≤ options.maxDepth) :
    Reader.read options formula.source = .ok [formula.node] := by
  rw [← display_node]
  exact (spells_node (by omega)).read_eq

/-- A formula that is nested too deep is refused by the reader. -/
theorem read_source_of_deep {formula : Formula} (deep : options.maxDepth < formula.nesting) :
    ∃ error, Reader.read options formula.source = .error (.parse error) ∧
      error.kind = .tooDeeplyNested := by
  have accepted : Reader.read (options.limited formula.nesting) formula.source =
      .ok [formula.node] := read_source (Nat.le_refl _)
  have exceeded : options.maxDepth < Node.greatestDepth [formula.node] := by
    simpa [Node.greatestDepth, depth_node] using deep
  have refused : ∃ error, Reader.read
      ((options.limited formula.nesting).limited options.maxDepth) formula.source =
        .error (.parse error) ∧ error.kind = .tooDeeplyNested :=
    Reader.read_limited_of_lt accepted exceeded
  exact refused

end Formula

/-! ## Evaluating a formula -/

/-- The sum starts from zero, which leaves the first operand as it is. -/
theorem Arithmetic.sum_int_int (left right : Int64) :
    sum [.int left, .int right] =
      orOverflow .addition ((Number.fit? (left.toInt + right.toInt)).map .int) := by
  have first : (Number.int 0).add? (.int left) = some (.int left) := by
    simp [Number.add?, Number.combine?, Number.fitting?, Number.fit?_toInt]
  have both : (Number.int left).add? (.int right) =
      (Number.fit? (left.toInt + right.toInt)).map .int := rfl
  simp only [sum, List.foldlM_cons, List.foldlM_nil, first, both, orOverflow, Error.ok_bind]
  exact bind_pure _

theorem Arithmetic.difference_int_int (left right : Int64) :
    difference (.int left) [.int right] =
      orOverflow .subtraction ((Number.fit? (left.toInt - right.toInt)).map .int) := by
  have both : (Number.int left).subtract? (.int right) =
      (Number.fit? (left.toInt - right.toInt)).map .int := rfl
  simp only [difference, List.foldlM_cons, List.foldlM_nil, both]
  exact bind_pure _

theorem Arithmetic.product_int_int (left right : Int64) :
    product (.int left) [.int right] =
      orOverflow .multiplication ((Number.fit? (left.toInt * right.toInt)).map .int) := by
  have both : (Number.int left).multiply? (.int right) =
      (Number.fit? (left.toInt * right.toInt)).map .int := rfl
  simp only [product, List.foldlM_cons, List.foldlM_nil, both]
  exact bind_pure _

/-- An operation of formulas gives its exact result or reports that it does not fit. -/
theorem Operator.call_eq (operator : Operator) (host : Host) (left right : Int64) :
    (Callable.builtin (.primitive operator.primitive)).call host [.int left, .int right] =
      .ofResult ((Arithmetic.orOverflow operator.overflow
        ((Number.fit? (operator.apply left.toInt right.toInt)).map .int)).map .number) := by
  cases operator with
  | add =>
      simp only [apply, overflow, ← Arithmetic.sum_int_int]
      rfl
  | subtract =>
      simp only [apply, overflow, ← Arithmetic.difference_int_int]
      rfl
  | multiply =>
      simp only [apply, overflow, ← Arithmetic.product_int_int]
      rfl

theorem Operator.resolveHead_name {scope : Scope} (operator : Operator)
    (unshadowed : ∀ function, scope.environment.get? operator.name ≠ some (.callable function)) :
    scope.resolveHead operator.name =
      .ok (.callable (.builtin (.primitive operator.primitive))) := by
  apply Scope.resolveHead_of_builtin _ unshadowed
  cases operator <;> decide

namespace Formula

/-- The value that a formula should give. -/
def IsResult (formula : Formula) (given : Value) : Prop :=
  formula.Fits ∧ ∃ result : Int64, result.toInt = formula.value ∧ given = .int result

/-- The error that a formula should end with. -/
def IsOverflow (formula : Formula) (error : Error) : Prop :=
  ¬formula.Fits ∧ ∃ activity trail, error = .evaluation (.overflow activity) trail

theorem IsOverflow.within {formula : Formula} {error : Error} (overflow : formula.IsOverflow error)
    (node : Node) : formula.IsOverflow (error.within node) := by
  rcases overflow with ⟨unfit, activity, trail, rfl⟩
  exact ⟨unfit, activity, trail ++ [node], rfl⟩

/-- Called with the exact results of its operands, an operation gives its own, or overflows. -/
theorem conforms_call {operator : Operator} {left right : Formula} {leftValue rightValue : Value}
    (leftResult : left.IsResult leftValue) (rightResult : right.IsResult rightValue)
    (host : Host) :
    Action.Conforms (binary operator left right).IsResult (binary operator left right).IsOverflow
      ((Callable.builtin (.primitive operator.primitive)).call host [leftValue, rightValue]) := by
  rcases leftResult with ⟨leftFits, leftInt, leftExact, rfl⟩
  rcases rightResult with ⟨rightFits, rightInt, rightExact, rfl⟩
  have called := operator.call_eq host leftInt rightInt
  rw [leftExact, rightExact] at called
  simp only [Value.int] at called ⊢
  rw [called]
  apply Action.conforms_ofResult
  by_cases inside : Int64.minValue.toInt ≤ operator.apply left.value right.value ∧
      operator.apply left.value right.value ≤ Int64.maxValue.toInt
  · rcases Number.exists_fit? inside with ⟨result, fits, exact_eq⟩
    rw [fits]
    exact ⟨fits_binary.mpr ⟨leftFits, rightFits, inside⟩, result, exact_eq, rfl⟩
  · rw [Number.fit?_eq_none inside]
    refine ⟨?_, operator.overflow, [], rfl⟩
    intro fits
    exact inside (fits_binary.mp fits).2.2

open Evaluation (Yields)

/-- A formula gives its exact value if all its parts fit, and ends with an overflow otherwise. -/
theorem yields_eval_node {scope : Scope}
    (unshadowed : ∀ (operator : Operator) (function : Callable),
      scope.environment.get? operator.name ≠ some (.callable function))
    (formula : Formula) :
    Yields none formula.IsResult formula.IsOverflow (formula.node.eval scope) := by
  induction formula with
  | literal value =>
      simp only [node, Node.eval]
      exact Evaluation.yields_pure ⟨fits_literal value, value, rfl, rfl⟩
  | binary operator left right ihLeft ihRight =>
      have found := operator.resolveHead_name (unshadowed operator)
      have leftOverflow : ∀ error, left.IsOverflow error →
          (binary operator left right).IsOverflow error := by
        rintro error ⟨unfit, isOverflow⟩
        exact ⟨fun fits => unfit (fits_binary.mp fits).1, isOverflow⟩
      have rightOverflow : ∀ error, right.IsOverflow error →
          (binary operator left right).IsOverflow error := by
        rintro error ⟨unfit, isOverflow⟩
        exact ⟨fun fits => unfit (fits_binary.mp fits).2.1, isOverflow⟩
      simp only [node, Node.eval_form_cons, Node.evalHead, found, Node.evalAll, bind_assoc,
        pure_bind]
      apply Yields.bind (Evaluation.yields_charge (by simp))
      intro _ _
      apply Yields.within _ fun _ overflow => overflow.within _
      apply Yields.bind (Evaluation.yields_pure rfl)
      rintro callee rfl
      apply Yields.bind (ihLeft.mono (fun _ result => result) leftOverflow)
      intro leftValue leftResult
      apply Yields.bind (ihRight.mono (fun _ result => result) rightOverflow)
      intro rightValue rightResult
      exact Evaluation.yields_ofAction (conforms_call leftResult rightResult scope.host)

theorem conforms_ofNodes {scope : Scope}
    (unshadowed : ∀ (operator : Operator) (function : Callable),
      scope.environment.get? operator.name ≠ some (.callable function))
    (formula : Formula) (clock : Clock) :
    Conforms formula.IsResult formula.IsOverflow
      (Outcome.ofNodes scope none [formula.node] clock).result := by
  have yields : Yields none formula.IsResult formula.IsOverflow
      (Node.evalProgram scope .nil [formula.node]) := by
    apply Yields.bind (yields_eval_node unshadowed formula)
    intro given result
    exact Evaluation.yields_pure result
  exact (yields ⟨Meter.ofLimit none, clock⟩ rfl).1

/-- A formula that the reader accepts has fewer operations than the counter has values. -/
theorem charged_eq {scope : Scope} {formula : Formula} {clock : Clock} {given : Value}
    (shallow : formula.nesting ≤ 32)
    (succeeded : (Outcome.ofNodes scope none [formula.node] clock).result = .ok given) :
    (Outcome.ofNodes scope none [formula.node] clock).charged.toNat = formula.operatorCount := by
  have plain : Node.totalSpecialCount [formula.node] = 0 := by
    simp [Node.totalSpecialCount, formula.specialCount_node]
  have charged := Outcome.toNat_charged_eq plain succeeded
  simp only [Node.totalFormCount, formula.formCount_node, Nat.add_zero] at charged
  have bound : formula.operatorCount < 2 ^ 32 :=
    Nat.lt_of_lt_of_le formula.operatorCount_lt (Nat.pow_le_pow_right (by decide) shallow)
  have countable : 2 ^ 32 ≤ UInt64.size - 1 := by decide
  omega

end Formula

/--
Integer formulas are computed exactly, in every environment that binds none of the three names to a
function. A formula that is nested at most thirty-two deep gives its mathematical value and charges
one operation for each of its operations if the values of all its parts are 64-bit integers, and
ends with an overflow if they are not. A formula that is nested deeper is refused by the reader.
-/
theorem evaluate_formula (formula : Formula) (host : Host) {environment : Environment}
    (unshadowed : ∀ (operator : Operator) (function : Callable),
      environment.get? operator.name ≠ some (.callable function))
    (clock : Clock) :
    (formula.nesting ≤ 32 →
      (formula.Fits → ∃ result : Int64, result.toInt = formula.value ∧
        (evaluate host formula.source environment none clock).result = .ok (.int result) ∧
        (evaluate host formula.source environment none clock).charged.toNat =
          formula.operatorCount) ∧
      (¬formula.Fits → ∃ activity trail,
        (evaluate host formula.source environment none clock).result =
          .error (.evaluation (.overflow activity) trail))) ∧
    (32 < formula.nesting → ∃ error,
      (evaluate host formula.source environment none clock).result = .error (.parse error) ∧
        error.kind = .tooDeeplyNested) := by
  constructor
  · intro shallow
    have accepted : Reader.read .standard formula.source = .ok [formula.node] :=
      Formula.read_source shallow
    have conforms : Conforms formula.IsResult formula.IsOverflow
        (Outcome.ofNodes ⟨host, environment⟩ none [formula.node] clock).result :=
      formula.conforms_ofNodes unshadowed clock
    simp only [evaluate_of_read accepted]
    cases ended : (Outcome.ofNodes ⟨host, environment⟩ none [formula.node] clock).result with
    | ok given =>
        rw [ended] at conforms
        rcases conforms with ⟨fits, result, exact_eq, rfl⟩
        refine ⟨?_, fun unfit => absurd fits unfit⟩
        intro _
        exact ⟨result, exact_eq, rfl, Formula.charged_eq shallow ended⟩
    | error error =>
        rw [ended] at conforms
        rcases conforms with ⟨unfit, activity, trail, rfl⟩
        refine ⟨fun fits => absurd fits unfit, ?_⟩
        intro _
        exact ⟨activity, trail, rfl⟩
  · intro deep
    have refused : ∃ error, Reader.read .standard formula.source = .error (.parse error) ∧
        error.kind = .tooDeeplyNested := Formula.read_source_of_deep deep
    rcases refused with ⟨error, failed, kind_eq⟩
    refine ⟨error, ?_, kind_eq⟩
    simp only [evaluate, failed]
    rfl

/--
The least integer is an operand like any other, although `+` is bound to a number. Its difference
with one overflows, and thirty-three nested sums are refused.
-/
theorem evaluate_formula_least :
    let least := Formula.literal Int64.minValue
    let fitting := Formula.binary .add least
      (.binary .multiply (.literal 1) (.literal Int64.maxValue))
    let unfitting := Formula.binary .subtract least (.literal 1)
    let deep := (Formula.binary .add least)^[33] least
    let environment := Environment.empty.define "+" (.int 1)
    let host : Host := fun _ _ => .ofResult (.ok .nil)
    let clock := Clock.still .epoch
    fitting.source = "(+ -9223372036854775808 (* 1 9223372036854775807))" ∧ fitting.Fits ∧
      (evaluate host fitting.source environment none clock).result = .ok (.int (-1)) ∧
      (evaluate host fitting.source environment none clock).charged.toNat = 2 ∧
      ¬unfitting.Fits ∧
      (∃ activity trail, (evaluate host unfitting.source environment none clock).result =
        .error (.evaluation (.overflow activity) trail)) ∧
      ∃ error, (evaluate host deep.source environment none clock).result = .error (.parse error) ∧
        error.kind = .tooDeeplyNested := by
  intro least fitting unfitting deep environment host clock
  have unshadowed : ∀ (operator : Operator) (function : Callable),
      environment.get? operator.name ≠ some (.callable function) := by
    intro operator function
    cases operator <;> simp [environment, Environment.get?_define, Operator.name,
      Operator.primitive, Primitive.name, Value.int]
  have fits : fitting.Fits := by
    simp only [fitting, least, Formula.fits_binary, Formula.fits_literal]
    decide
  have unfit : ¬unfitting.Fits := by
    intro fits
    exact absurd (Formula.fits_binary.mp fits).2.2 (by decide)
  have tooDeep : 32 < deep.nesting := by decide +kernel
  rcases ((evaluate_formula fitting host unshadowed clock).1 (by decide)).1 fits with
    ⟨result, exact_eq, succeeded, charged⟩
  obtain rfl : result = -1 := Int64.toInt_inj.mp exact_eq
  have overflowed := ((evaluate_formula unfitting host unshadowed clock).1 (by decide)).2 unfit
  have refused := (evaluate_formula deep host unshadowed clock).2 tooDeep
  exact ⟨by decide, fits, succeeded, charged, unfit, overflowed, refused⟩

end MeteredRules
