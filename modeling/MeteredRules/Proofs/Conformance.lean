import MeteredRules.Clock
import MeteredRules.Proofs.Error

/-!
# Conforming results

What is known of a result that may be a value or an error: a condition on values and a condition on
errors. A sequence conforms if its first part gives values from which the rest conforms, and so do
loops with the condition on values as their invariant.
-/

namespace MeteredRules

variable {α β : Type}

/-- The value of a result is good, or its error is tolerated. -/
def Conforms (good : α → Prop) (tolerated : Error → Prop) : Except Error α → Prop
  | .ok value => good value
  | .error error => tolerated error

namespace Conforms

variable {good : α → Prop} {tolerated : Error → Prop}

theorem mono {better : α → Prop} {rarer : Error → Prop} {result : Except Error α}
    (conforms : Conforms better rarer result) (value : ∀ value, better value → good value)
    (error : ∀ error, rarer error → tolerated error) : Conforms good tolerated result := by
  cases result with
  | ok given => exact value given conforms
  | error raised => exact error raised conforms

/-- Every result conforms where all values are good and all errors are tolerated. -/
theorem any (result : Except Error α) : Conforms (fun _ => True) (fun _ => True) result := by
  cases result with
  | ok value => trivial
  | error error => trivial

/-- Errors may be marked where all of them are tolerated. -/
theorem mapError {result : Except Error α} (conforms : Conforms good (fun _ => True) result)
    (mark : Error → Error) : Conforms good (fun _ => True) (result.mapError mark) := by
  cases result with
  | ok value => exact conforms
  | error error => trivial

/-- A result that tolerates no error and no value but one is this value. -/
theorem eq_ok {value : α} {result : Except Error α}
    (conforms : Conforms (· = value) (fun _ => False) result) : result = .ok value := by
  cases result with
  | ok given => exact congrArg Except.ok conforms
  | error raised => exact conforms.elim

theorem bind {final : β → Prop} {first : Except Error α} {next : α → Except Error β}
    (conforms : Conforms good tolerated first)
    (rest : ∀ value, good value → Conforms final tolerated (next value)) :
    Conforms final tolerated (first >>= next) := by
  cases first with
  | ok value => exact rest value conforms
  | error error => exact conforms

theorem map {good : β → Prop} {result : Except Error α} {function : α → β}
    (conforms : Conforms (fun value => good (function value)) tolerated result) :
    Conforms good tolerated (result.map function) := by
  cases result with
  | ok value => exact conforms
  | error error => exact conforms

theorem foldlM {step : β → α → Except Error β} {invariant : β → Prop} {items : List α}
    (kept : ∀ state, ∀ item ∈ items, invariant state →
      Conforms invariant tolerated (step state item))
    {start : β} (holds : invariant start) :
    Conforms invariant tolerated (items.foldlM step start) := by
  induction items generalizing start with
  | nil => exact holds
  | cons item items ih =>
      simp only [List.foldlM_cons]
      apply bind (kept start item List.mem_cons_self holds)
      intro state stateHolds
      apply ih
      · intro state later laterMem
        exact kept state later (List.mem_cons_of_mem item laterMem)
      · exact stateHolds

end Conforms

namespace Action

/-- Whatever the clock shows, the result of an action conforms. -/
def Conforms (good : α → Prop) (tolerated : Error → Prop) (action : Action α) : Prop :=
  ∀ clock, MeteredRules.Conforms good tolerated (action.run clock).1

variable {good : α → Prop} {tolerated : Error → Prop}

theorem conforms_ofResult {result : Except Error α}
    (conforms : MeteredRules.Conforms good tolerated result) :
    Conforms good tolerated (ofResult result) :=
  fun _ => conforms

theorem conforms_pure {value : α} (holds : good value) :
    Conforms good tolerated (pure value : Action α) :=
  fun _ => holds

theorem conforms_readClock : Conforms (fun _ => True) tolerated readClock :=
  fun _ => trivial

namespace Conforms

theorem mono {better : α → Prop} {rarer : Error → Prop} {action : Action α}
    (conforms : Conforms better rarer action) (value : ∀ value, better value → good value)
    (error : ∀ error, rarer error → tolerated error) : Conforms good tolerated action :=
  fun clock => (conforms clock).mono value error

theorem bind {final : β → Prop} {first : Action α} {next : α → Action β}
    (conforms : Conforms good tolerated first)
    (rest : ∀ value, good value → Conforms final tolerated (next value)) :
    Conforms final tolerated (first >>= next) := by
  intro clock
  have given := conforms clock
  simp only [Error.run_bind]
  generalize first.run clock = ended at given ⊢
  rcases ended with ⟨error | value, left⟩
  · exact given
  · exact rest value given left

end Conforms

end Action

end MeteredRules
