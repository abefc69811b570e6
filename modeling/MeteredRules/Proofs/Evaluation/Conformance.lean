import MeteredRules.Proofs.Evaluation.Induction

/-!
# What evaluation keeps

A condition on values that holds of the literals of a program, of what its names give and of the
result of every call with such arguments holds of the value of the program; and a condition on errors
that is kept in the same way holds of the error. The two conditions are parameters here: which
functions can occur in a value, or which errors can end an evaluation, are cases of one induction
over the expression.

The budget is fixed along an evaluation, so that an error of the meter names this budget.
-/

namespace MeteredRules

variable {α β : Type}

namespace Evaluation

/-- Started under a given budget, a computation gives a conforming result and keeps the budget. -/
def Yields (limit : Option UInt64) (good : α → Prop) (tolerated : Error → Prop)
    (computation : Evaluation α) : Prop :=
  ∀ machine : Machine, machine.meter.limit = limit →
    Conforms good tolerated (computation.run machine).1 ∧
      (computation.run machine).2.meter.limit = limit

variable {limit : Option UInt64} {good : α → Prop} {tolerated : Error → Prop}

theorem yields_ofResult {result : Except Error α}
    (conforms : Conforms good tolerated result) :
    Yields limit good tolerated (ofResult result) :=
  fun _ kept => ⟨conforms, kept⟩

theorem yields_pure {value : α} (holds : good value) :
    Yields limit good tolerated (pure value : Evaluation α) :=
  fun _ kept => ⟨holds, kept⟩

theorem yields_ofAction {action : Action α} (conforms : Action.Conforms good tolerated action) :
    Yields limit good tolerated (ofAction action) :=
  fun machine kept => ⟨conforms machine.clock, kept⟩

theorem yields_charge (budget : ∀ most, limit = some most → tolerated (.budget most)) :
    Yields limit (fun _ => True) tolerated charge := by
  rintro ⟨⟨count, limit⟩, clock⟩ rfl
  refine ⟨?_, rfl⟩
  cases limit with
  | none => trivial
  | some most =>
      change Conforms _ _ (if most < (Meter.advance ⟨count, some most⟩).count then _ else _)
      split
      · exact budget most rfl
      · trivial

namespace Yields

theorem mono {better : α → Prop} {rarer : Error → Prop} {computation : Evaluation α}
    (yields : Yields limit better rarer computation) (value : ∀ value, better value → good value)
    (error : ∀ error, rarer error → tolerated error) : Yields limit good tolerated computation :=
  fun machine kept => ⟨(yields machine kept).1.mono value error, (yields machine kept).2⟩

theorem bind {final : β → Prop} {computation : Evaluation α} {next : α → Evaluation β}
    (yields : Yields limit good tolerated computation)
    (rest : ∀ value, good value → Yields limit final tolerated (next value)) :
    Yields limit final tolerated (computation >>= next) := by
  intro machine kept
  have given := yields machine kept
  simp only [Error.run_bind]
  generalize computation.run machine = ended at given ⊢
  rcases ended with ⟨error | value, left⟩
  · exact given
  · exact rest value given.1 left given.2

theorem within (node : Node) (marked : ∀ error, tolerated error → tolerated (error.within node))
    {computation : Evaluation α} (conforms : Yields limit good tolerated computation) :
    Yields limit good tolerated (Evaluation.within node computation) := by
  intro machine kept
  have given := conforms machine kept
  rw [run_within]
  generalize computation.run machine = ended at given ⊢
  rcases ended with ⟨error | value, left⟩
  · exact ⟨marked error given.1, given.2⟩
  · exact given

end Yields

end Evaluation

/--
Conditions on values and errors that evaluation in a scope keeps by itself, apart from the literals
and names of the program.
-/
structure Scope.Keeps (scope : Scope) (limit : Option UInt64) (good : Value → Prop)
    (tolerated : Error → Prop) : Prop where
  budget : ∀ most, limit = some most → tolerated (.budget most)
  ofCall : ∀ error, error.isOfCall → tolerated error
  marked : ∀ node error, tolerated error → tolerated (error.within node)
  truth : good (.boolean true)
  nil : good .nil
  call : ∀ (function : Callable) arguments, (∀ argument ∈ arguments, good argument) →
    Action.Conforms good tolerated (function.call scope.host arguments)

open Evaluation (Yields)

variable {scope : Scope} {limit : Option UInt64} {good : Value → Prop} {tolerated : Error → Prop}

theorem Scope.Keeps.upholds (keeps : scope.Keeps limit good tolerated) :
    scope.Upholds (fun _ good => Yields limit good tolerated) good where
  pure := Evaluation.yields_pure
  charge := Evaluation.yields_charge keeps.budget
  within node := Yields.within node (keeps.marked node)
  bind := Yields.bind
  truth := keeps.truth
  nil := keeps.nil
  refusal error ofCall := Evaluation.yields_ofResult (keeps.ofCall error ofCall)
  call function arguments _ each :=
    Evaluation.yields_ofAction (keeps.call function arguments each)

/-- A program keeps what its literals, its names and all calls keep. -/
theorem Outcome.conforms_ofNodes (keeps : scope.Keeps limit good tolerated) {nodes : List Node}
    (literals : ∀ value ∈ Node.allLiterals nodes, good value)
    (lookups : ∀ use ∈ Node.allUses nodes, Conforms good tolerated (scope.lookup use))
    (clock : Clock) :
    Conforms good tolerated (ofNodes scope limit nodes clock).result := by
  have yields : Yields limit good tolerated (Node.evalProgram scope .nil nodes) := by
    apply Node.evalProgram_upholds keeps.upholds literals
    · intro use used
      exact Evaluation.yields_ofResult (lookups use used)
    · exact keeps.nil
  exact (yields ⟨Meter.ofLimit limit, clock⟩ rfl).1

end MeteredRules
