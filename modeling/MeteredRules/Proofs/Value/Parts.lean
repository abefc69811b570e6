import MeteredRules.Value.Basic

/-!
# The parts of a value

A value is a tree whose inner nodes are arrays. Its parts are the value itself and the parts of its
elements. Counted here are the functions that occur in it, its arrays and how deep they are nested.
-/

namespace MeteredRules.Value

/-- What holds of a value as soon as it holds of its elements holds of every value. -/
@[elab_as_elim]
theorem induction {motive : Value → Prop}
    (number : ∀ amount, motive (.number amount))
    (string : ∀ text, motive (.string text))
    (boolean : ∀ truth, motive (.boolean truth))
    (nil : motive .nil)
    (array : ∀ items, (∀ item ∈ items, motive item) → motive (.array items))
    (instant : ∀ moment, motive (.instant moment))
    (callable : ∀ function, motive (.callable function))
    (value : Value) : motive value := by
  refine @Value.rec motive (fun items => ∀ item ∈ items, motive item)
    number string boolean nil array instant callable ?noItems ?items value
  case noItems =>
    intro item itemMem
    simp at itemMem
  case items =>
    intro head tail headHolds tailHolds item itemMem
    rcases List.mem_cons.mp itemMem with rfl | inTail
    · exact headHolds
    · exact tailHolds item inTail

mutual

/-- A value and everything that it contains, at any depth. -/
def parts : Value → List Value
  | .array items => .array items :: allParts items
  | value => [value]

/-- The parts of a list of values. -/
def allParts : List Value → List Value
  | [] => []
  | value :: values => value.parts ++ allParts values

end

theorem allParts_eq_flatMap (values : List Value) : allParts values = values.flatMap parts := by
  induction values with
  | nil => rfl
  | cons value values ih => simp [allParts, ih]

theorem forall_mem_parts_array {items : List Value} {condition : Value → Prop} :
    (∀ part ∈ (Value.array items).parts, condition part) ↔
      condition (.array items) ∧ ∀ item ∈ items, ∀ part ∈ item.parts, condition part := by
  simp only [parts, allParts_eq_flatMap, List.forall_mem_cons, List.mem_flatMap]
  grind

mutual

/-- The functions that occur in a value, at any depth. -/
def callables : Value → List Callable
  | .callable function => [function]
  | .array items => allCallables items
  | _ => []

/-- The functions that occur in a list of values. -/
def allCallables : List Value → List Callable
  | [] => []
  | value :: values => value.callables ++ allCallables values

end

mutual

/-- How deep the arrays of a value are nested. -/
def depth : Value → Nat
  | .array items => greatestDepth items + 1
  | _ => 0

/-- The greatest depth of a list of values. -/
def greatestDepth : List Value → Nat
  | [] => 0
  | value :: values => max value.depth (greatestDepth values)

end

mutual

/-- The number of arrays in a value, at any depth. -/
def arrayCount : Value → Nat
  | .array items => totalArrayCount items + 1
  | _ => 0

/-- The number of arrays in a list of values. -/
def totalArrayCount : List Value → Nat
  | [] => 0
  | value :: values => value.arrayCount + totalArrayCount values

end

theorem allCallables_eq_flatMap (values : List Value) :
    allCallables values = values.flatMap callables := by
  induction values with
  | nil => rfl
  | cons value values ih => simp [allCallables, ih]

theorem mem_allCallables {function : Callable} {values : List Value} :
    function ∈ allCallables values ↔ ∃ value ∈ values, function ∈ value.callables := by
  simp [allCallables_eq_flatMap]

theorem callables_subset_of_mem {value : Value} {values : List Value} (valueMem : value ∈ values) :
    value.callables ⊆ allCallables values := by
  intro function functionMem
  exact mem_allCallables.mpr ⟨value, valueMem, functionMem⟩

theorem depth_le_of_mem {value : Value} {values : List Value} (valueMem : value ∈ values) :
    value.depth ≤ greatestDepth values := by
  induction values with
  | nil => simp at valueMem
  | cons first values ih =>
      simp only [greatestDepth]
      rcases List.mem_cons.mp valueMem with rfl | inRest
      · exact Nat.le_max_left _ _
      · exact Nat.le_trans (ih inRest) (Nat.le_max_right _ _)

theorem greatestDepth_eq_zero {values : List Value}
    (noArray : ∀ value ∈ values, ∀ items, value ≠ .array items) : greatestDepth values = 0 := by
  induction values with
  | nil => rfl
  | cons value values ih =>
      rw [List.forall_mem_cons] at noArray
      simp only [greatestDepth, ih noArray.2, Nat.max_zero]
      cases value with
      | array items => exact absurd rfl (noArray.1 items)
      | _ => rfl

end MeteredRules.Value
