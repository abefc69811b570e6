import MeteredRules.Proofs.Evaluation.Cost

/-!
# How special forms decide

A special form evaluates some of its arguments and leaves the others out. The relation `Decides` is
the table of its rules: which arguments are evaluated first, and which expression gives the value of
the form once their values are known. Evaluation goes by this table, so the arguments that a rule
leaves out have no influence, whatever they are; and every evaluation that gives a value goes by
some rule of the table.

What an evaluation costs does not depend on the operations that were counted before it. A special
form therefore costs one operation more than what it evaluates, taken alone.
-/

namespace MeteredRules

variable {α β : Type}

/-! ## The rules -/

/-- The arguments of a `cond` with the given tests and consequents. -/
def Node.ofClauses (clauses : List (Node × Node)) : List Node :=
  clauses.flatMap fun clause => [clause.1, clause.2]

/--
The rules of the special forms. Of the arguments, those that are `tested` are evaluated in order; if
they have these values, the value of the form is the value of the `chosen` expression.
-/
inductive SpecialForm.Decides :
    SpecialForm → (arguments tested : List Node) → List Value → (chosen : Node) → Prop where
  /-- The first false operand decides. -/
  | and {before after : List Node} {decisive : Node} {truths : List Value} {falsity : Value}
      (truthy : ∀ value ∈ truths, value.isTruthy = true) (falsey : falsity.isTruthy = false) :
      Decides .and (before ++ decisive :: after) (before ++ [decisive]) (truths ++ [falsity])
        (.atom falsity)
  /-- No operand is false, and the value is the last one. -/
  | andLast {operands : List Node} {truths : List Value}
      (truthy : ∀ value ∈ truths, value.isTruthy = true) :
      Decides .and operands operands truths (.atom (truths.getLastD (.boolean true)))
  /-- The first true operand decides. -/
  | or {before after : List Node} {decisive : Node} {falsities : List Value} {truth : Value}
      (falsey : ∀ value ∈ falsities, value.isTruthy = false) (truthy : truth.isTruthy = true) :
      Decides .or (before ++ decisive :: after) (before ++ [decisive]) (falsities ++ [truth])
        (.atom truth)
  /-- No operand is true, and the value is the last one. -/
  | orLast {operands : List Node} {falsities : List Value}
      (falsey : ∀ value ∈ falsities, value.isTruthy = false) :
      Decides .or operands operands falsities (.atom (falsities.getLastD .nil))
  | consequent {condition consequent alternative : Node} {truth : Value}
      (truthy : truth.isTruthy = true) :
      Decides .ite [condition, consequent, alternative] [condition] [truth] consequent
  | alternative {condition consequent alternative : Node} {falsity : Value}
      (falsey : falsity.isTruthy = false) :
      Decides .ite [condition, consequent, alternative] [condition] [falsity] alternative
  /-- The first test that is true selects its consequent. -/
  | cond {before after : List (Node × Node)} {test consequent : Node} {falsities : List Value}
      {truth : Value} (falsey : ∀ value ∈ falsities, value.isTruthy = false)
      (truthy : truth.isTruthy = true) :
      Decides .cond (Node.ofClauses before ++ test :: consequent :: Node.ofClauses after)
        (before.map Prod.fst ++ [test]) (falsities ++ [truth]) consequent
  /-- No test is true. -/
  | condNone {clauses : List (Node × Node)} {falsities : List Value}
      (falsey : ∀ value ∈ falsities, value.isTruthy = false) :
      Decides .cond (Node.ofClauses clauses) (clauses.map Prod.fst) falsities (.atom .nil)

open SpecialForm (Decides)

/-! ## Runs that give values -/

namespace Evaluation

/-- Started with a machine, a computation gives a value and leaves a machine. -/
def Gives (computation : Evaluation α) (start : Machine) (value : α) (left : Machine) : Prop :=
  computation.run start = (.ok value, left)

variable {start left : Machine}

theorem gives_pure {given value : α} :
    Gives (pure given) start value left ↔ value = given ∧ left = start := by
  constructor
  · intro gives
    cases gives
    exact ⟨rfl, rfl⟩
  · rintro ⟨rfl, rfl⟩
    rfl

theorem gives_bind {computation : Evaluation α} {next : α → Evaluation β} {value : β} :
    Gives (computation >>= next) start value left ↔
      ∃ given middle, Gives computation start given middle ∧
        Gives (next given) middle value left := by
  constructor
  · intro gives
    rcases ended : computation.run start with ⟨error | given, middle⟩
    · rw [Gives, run_bind_error ended] at gives
      cases gives
    · rw [Gives, run_bind_ok ended] at gives
      exact ⟨given, middle, ended, gives⟩
  · rintro ⟨given, middle, ended, gives⟩
    rw [Gives, run_bind_ok ended]
    exact gives

theorem gives_within {node : Node} {computation : Evaluation α} {value : α} :
    Gives (within node computation) start value left ↔ Gives computation start value left := by
  simp only [Gives, run_within]
  rcases computation.run start with ⟨error | given, middle⟩
  · constructor
    · intro gives
      cases gives
    · intro gives
      cases gives
  · exact Iff.rfl

end Evaluation

open Evaluation (Gives gives_pure gives_bind gives_within)

namespace Node

variable {scope : Scope} {start middle left : Machine}

theorem gives_evalAll_nil {values : List Value} :
    Gives (evalAll scope []) start values left ↔ values = [] ∧ left = start := by
  simp only [evalAll, gives_pure]

theorem gives_evalAll_cons {node : Node} {nodes : List Node} {values : List Value} :
    Gives (evalAll scope (node :: nodes)) start values left ↔
      ∃ value rest middle, Gives (node.eval scope) start value middle ∧
        Gives (evalAll scope nodes) middle rest left ∧ values = value :: rest := by
  simp only [evalAll, gives_bind, gives_pure]
  constructor
  · rintro ⟨value, middle, first, rest, last, others, rfl, rfl⟩
    exact ⟨value, rest, middle, first, others, rfl⟩
  · rintro ⟨value, rest, middle, first, others, rfl⟩
    exact ⟨value, middle, first, rest, left, others, rfl, rfl⟩

theorem evalAll_concat (nodes : List Node) (node : Node) :
    evalAll scope (nodes ++ [node]) = (do
      let values ← evalAll scope nodes
      let value ← node.eval scope
      return values ++ [value]) := by
  induction nodes with
  | nil => simp [evalAll]
  | cons first nodes ih => simp [evalAll, ih]

theorem gives_evalAll_concat {nodes : List Node} {node : Node} {values : List Value}
    {value : Value} :
    Gives (evalAll scope (nodes ++ [node])) start (values ++ [value]) left ↔
      ∃ middle, Gives (evalAll scope nodes) start values middle ∧
        Gives (node.eval scope) middle value left := by
  simp only [evalAll_concat, gives_bind, gives_pure]
  constructor
  · rintro ⟨given, middle, first, last, after, gives, same, rfl⟩
    rcases List.append_inj' same rfl with ⟨rfl, ⟨⟩⟩
    exact ⟨middle, first, gives⟩
  · rintro ⟨middle, first, gives⟩
    exact ⟨values, middle, first, value, left, gives, rfl, rfl⟩

/-! ## Operands up to the one that decides -/

/-- The first value of the operands at which to stop, or the last value. -/
def evalUntil (scope : Scope) (stops : Value → Bool) (last : Value) :
    List Node → Evaluation Value
  | [] => pure last
  | node :: nodes => do
    let value ← node.eval scope
    if stops value then return value else evalUntil scope stops value nodes

theorem evalAnd_eq_evalUntil (last : Value) (operands : List Node) :
    evalAnd scope last operands = evalUntil scope (fun value => !value.isTruthy) last operands := by
  induction operands generalizing last with
  | nil => simp only [evalAnd, evalUntil]
  | cons node operands ih =>
      simp only [evalAnd, evalUntil, ih]
      congr 1
      funext value
      by_cases truthy : value.isTruthy = true
      · simp [truthy]
      · simp [truthy]

theorem evalOr_eq_evalUntil (last : Value) (operands : List Node) :
    evalOr scope last operands = evalUntil scope Value.isTruthy last operands := by
  induction operands generalizing last with
  | nil => simp only [evalOr, evalUntil]
  | cons node operands ih => simp only [evalOr, evalUntil, ih]

variable {stops : Value → Bool}

theorem run_evalUntil_append {before : List Node} {values : List Value}
    (given : Gives (evalAll scope before) start values middle)
    (passed : ∀ value ∈ values, stops value = false) (last : Value) (after : List Node) :
    (evalUntil scope stops last (before ++ after)).run start =
      (evalUntil scope stops (values.getLastD last) after).run middle := by
  induction before generalizing start values last with
  | nil =>
      rcases gives_evalAll_nil.mp given with ⟨rfl, rfl⟩
      rfl
  | cons node before ih =>
      rcases gives_evalAll_cons.mp given with ⟨value, others, next, first, rest, rfl⟩
      simp only [List.forall_mem_cons] at passed
      simp only [List.cons_append, evalUntil, List.getLastD_cons]
      rw [Evaluation.run_bind_ok first, if_neg (by simp [passed.1])]
      exact ih rest passed.2 value

theorem run_evalUntil_of_passed {operands : List Node} {values : List Value}
    (given : Gives (evalAll scope operands) start values middle)
    (passed : ∀ value ∈ values, stops value = false) (last : Value) :
    (evalUntil scope stops last operands).run start = (.ok (values.getLastD last), middle) := by
  have appended := run_evalUntil_append given passed last []
  rw [List.append_nil] at appended
  exact appended

theorem run_evalUntil_of_stopped {before : List Node} {decisive : Node} {values : List Value}
    {value : Value}
    (given : Gives (evalAll scope (before ++ [decisive])) start (values ++ [value]) middle)
    (passed : ∀ value ∈ values, stops value = false) (stopped : stops value = true) (last : Value)
    (after : List Node) :
    (evalUntil scope stops last (before ++ decisive :: after)).run start = (.ok value, middle) := by
  rcases gives_evalAll_concat.mp given with ⟨next, first, decided⟩
  rw [run_evalUntil_append first passed, evalUntil, Evaluation.run_bind_ok decided, if_pos stopped]
  rfl

/-- Either no operand is one to stop at, or the first such operand gives the value. -/
theorem evalUntil_cases {operands : List Node} {last value : Value}
    (gives : Gives (evalUntil scope stops last operands) start value left) :
    (∃ values, Gives (evalAll scope operands) start values left ∧
      (∀ value ∈ values, stops value = false) ∧ value = values.getLastD last) ∨
    ∃ before decisive after values, operands = before ++ decisive :: after ∧
      Gives (evalAll scope (before ++ [decisive])) start (values ++ [value]) left ∧
      (∀ value ∈ values, stops value = false) ∧ stops value = true := by
  induction operands generalizing start last with
  | nil =>
      rcases gives_pure.mp gives with ⟨rfl, rfl⟩
      exact .inl ⟨[], gives_evalAll_nil.mpr ⟨rfl, rfl⟩, by simp, rfl⟩
  | cons node operands ih =>
      simp only [evalUntil, gives_bind] at gives
      rcases gives with ⟨given, next, first, rest⟩
      split at rest
      · rename_i stopped
        rcases gives_pure.mp rest with ⟨rfl, rfl⟩
        refine .inr ⟨[], node, operands, [], rfl, ?_, by simp, stopped⟩
        exact gives_evalAll_concat.mpr ⟨start, gives_evalAll_nil.mpr ⟨rfl, rfl⟩, first⟩
      · rename_i passed
        have alsoPassed : ∀ {values : List Value}, (∀ value ∈ values, stops value = false) →
            ∀ value ∈ given :: values, stops value = false := by
          intro values allPassed
          simp only [Bool.not_eq_true] at passed
          exact List.forall_mem_cons.mpr ⟨passed, allPassed⟩
        rcases ih rest with ⟨values, others, allPassed, value_eq⟩ |
          ⟨before, decisive, after, values, operands_eq, others, allPassed, stopped⟩
        · refine .inl ⟨given :: values, ?_, alsoPassed allPassed, ?_⟩
          · exact gives_evalAll_cons.mpr ⟨given, values, next, first, others, rfl⟩
          · rw [value_eq, List.getLastD_cons]
        · refine .inr ⟨node :: before, decisive, after, given :: values, ?_, ?_,
            alsoPassed allPassed, stopped⟩
          · rw [operands_eq, List.cons_append]
          · exact gives_evalAll_cons.mpr ⟨given, values ++ [value], next, first, others, rfl⟩

/-! ## Clauses up to the one that is selected -/

theorem ofClauses_cons (clause : Node × Node) (clauses : List (Node × Node)) :
    ofClauses (clause :: clauses) = clause.1 :: clause.2 :: ofClauses clauses :=
  rfl

theorem length_ofClauses (clauses : List (Node × Node)) :
    (ofClauses clauses).length = 2 * clauses.length := by
  induction clauses with
  | nil => rfl
  | cons clause clauses ih =>
      simp only [ofClauses_cons, List.length_cons, ih]
      omega

theorem exists_ofClauses :
    ∀ {nodes : List Node}, nodes.length % 2 = 0 → ∃ clauses, nodes = ofClauses clauses
  | [], _ => ⟨[], rfl⟩
  | [_], odd => by simp at odd
  | test :: consequent :: rest, paired => by
      have restPaired : rest.length % 2 = 0 := by
        simp only [List.length_cons] at paired
        omega
      rcases exists_ofClauses restPaired with ⟨clauses, rfl⟩
      exact ⟨(test, consequent) :: clauses, rfl⟩

theorem run_evalCond_append {before : List (Node × Node)} {falsities : List Value}
    (given : Gives (evalAll scope (before.map Prod.fst)) start falsities middle)
    (falsey : ∀ value ∈ falsities, value.isTruthy = false) (after : List Node) :
    (evalCond scope (ofClauses before ++ after)).run start = (evalCond scope after).run middle := by
  induction before generalizing start falsities with
  | nil =>
      rcases gives_evalAll_nil.mp given with ⟨rfl, rfl⟩
      rfl
  | cons clause before ih =>
      rcases gives_evalAll_cons.mp given with ⟨value, others, next, first, rest, rfl⟩
      simp only [List.forall_mem_cons] at falsey
      simp only [ofClauses_cons, List.cons_append, evalCond]
      rw [Evaluation.run_bind_ok first, if_neg (by simp [falsey.1])]
      exact ih rest falsey.2

/-- Either no test is true, or the consequent of the first true test gives the value. -/
theorem evalCond_cases {clauses : List (Node × Node)} {value : Value}
    (gives : Gives (evalCond scope (ofClauses clauses)) start value left) :
    (∃ falsities, Gives (evalAll scope (clauses.map Prod.fst)) start falsities left ∧
      (∀ falsity ∈ falsities, falsity.isTruthy = false) ∧ value = .nil) ∨
    ∃ before test consequent after falsities truth middle,
      clauses = before ++ (test, consequent) :: after ∧
      Gives (evalAll scope (before.map Prod.fst ++ [test])) start (falsities ++ [truth]) middle ∧
      (∀ falsity ∈ falsities, falsity.isTruthy = false) ∧ truth.isTruthy = true ∧
      Gives (consequent.eval scope) middle value left := by
  induction clauses generalizing start with
  | nil =>
      rcases gives_pure.mp gives with ⟨rfl, rfl⟩
      exact .inl ⟨[], gives_evalAll_nil.mpr ⟨rfl, rfl⟩, by simp, rfl⟩
  | cons clause clauses ih =>
      rcases clause with ⟨test, consequent⟩
      simp only [ofClauses_cons, evalCond, gives_bind] at gives
      rcases gives with ⟨given, next, first, rest⟩
      split at rest
      · rename_i truthy
        refine .inr ⟨[], test, consequent, clauses, [], given, next, rfl, ?_, by simp, truthy, rest⟩
        exact gives_evalAll_concat.mpr ⟨start, gives_evalAll_nil.mpr ⟨rfl, rfl⟩, first⟩
      · rename_i falsey
        have alsoFalsey : ∀ {falsities : List Value},
            (∀ falsity ∈ falsities, falsity.isTruthy = false) →
              ∀ falsity ∈ given :: falsities, falsity.isTruthy = false := by
          intro falsities allFalsey
          simp only [Bool.not_eq_true] at falsey
          exact List.forall_mem_cons.mpr ⟨falsey, allFalsey⟩
        rcases ih rest with ⟨falsities, others, allFalsey, value_eq⟩ |
          ⟨before, selected, chosen, after, falsities, truth, middle, clauses_eq, others, allFalsey,
            truthy, decided⟩
        · refine .inl ⟨given :: falsities, ?_, alsoFalsey allFalsey, value_eq⟩
          exact gives_evalAll_cons.mpr ⟨given, falsities, next, first, others, rfl⟩
        · refine .inr ⟨(test, consequent) :: before, selected, chosen, after, given :: falsities,
            truth, middle, ?_, ?_, alsoFalsey allFalsey, truthy, decided⟩
          · rw [clauses_eq, List.cons_append]
          · exact gives_evalAll_cons.mpr ⟨given, falsities ++ [truth], next, first, others, rfl⟩

end Node

/-! ## Evaluation goes by the rules -/

variable {form : SpecialForm} {arguments tested : List Node} {values : List Value} {chosen : Node}
  {scope : Scope} {start middle left : Machine}

/-- Once the tested arguments have their values, a form does what the chosen expression does. -/
theorem SpecialForm.Decides.run_evalSpecial (decides : Decides form arguments tested values chosen)
    (given : Gives (Node.evalAll scope tested) start values middle) :
    (Node.evalSpecial scope (.form form) arguments).run start = (chosen.eval scope).run middle := by
  cases decides with
  | and truthy falsey =>
      simp only [Node.evalSpecial, Node.eval, Node.evalAnd_eq_evalUntil]
      rw [Node.run_evalUntil_of_stopped given (by simpa using truthy) (by simpa using falsey)]
      rfl
  | andLast truthy =>
      simp only [Node.evalSpecial, Node.eval, Node.evalAnd_eq_evalUntil]
      rw [Node.run_evalUntil_of_passed given (by simpa using truthy)]
      rfl
  | or falsey truthy =>
      simp only [Node.evalSpecial, Node.eval, Node.evalOr_eq_evalUntil]
      rw [Node.run_evalUntil_of_stopped given falsey truthy]
      rfl
  | orLast falsey =>
      simp only [Node.evalSpecial, Node.eval, Node.evalOr_eq_evalUntil]
      rw [Node.run_evalUntil_of_passed given falsey]
      rfl
  | consequent truthy =>
      have tested : Gives (Node.evalAll scope ([] ++ [_])) start ([] ++ [_]) middle := given
      rcases Node.gives_evalAll_concat.mp tested with ⟨next, nothing, first⟩
      obtain rfl := (Node.gives_evalAll_nil.mp nothing).2
      simp only [Node.evalSpecial]
      rw [Evaluation.run_bind_ok first, if_pos truthy]
  | alternative falsey =>
      have tested : Gives (Node.evalAll scope ([] ++ [_])) start ([] ++ [_]) middle := given
      rcases Node.gives_evalAll_concat.mp tested with ⟨next, nothing, first⟩
      obtain rfl := (Node.gives_evalAll_nil.mp nothing).2
      simp only [Node.evalSpecial]
      rw [Evaluation.run_bind_ok first, if_neg (by simp [falsey])]
  | cond falsey truthy =>
      rcases Node.gives_evalAll_concat.mp given with ⟨next, first, decided⟩
      simp only [Node.evalSpecial]
      rw [if_pos (by simp [Node.length_ofClauses]; omega), Node.run_evalCond_append first falsey,
        Node.evalCond, Evaluation.run_bind_ok decided, if_pos truthy]
  | condNone falsey =>
      have passed := Node.run_evalCond_append given falsey []
      rw [List.append_nil] at passed
      simp only [Node.evalSpecial, Node.eval]
      rw [if_pos (by simp [Node.length_ofClauses]), passed]
      rfl

theorem Node.gives_atom {given value : Value} :
    Gives ((Node.atom given).eval scope) start value left ↔ value = given ∧ left = start := by
  simp only [Node.eval, gives_pure]

/-- Whatever a special form gives, it gives by one of the rules. -/
theorem SpecialForm.exists_decides {value : Value}
    (gives : Gives (Node.evalSpecial scope (.form form) arguments) start value left) :
    ∃ tested values chosen middle, Decides form arguments tested values chosen ∧
      Gives (Node.evalAll scope tested) start values middle ∧
      Gives (chosen.eval scope) middle value left := by
  generalize operation_eq : Operation.form form = operation at gives
  fun_cases Node.evalSpecial scope operation arguments with
  | case1 =>
      cases operation_eq
      rw [Node.evalSpecial, Node.evalAnd_eq_evalUntil] at gives
      rcases Node.evalUntil_cases gives with ⟨values, others, passed, rfl⟩ |
        ⟨before, decisive, after, values, rfl, others, passed, stopped⟩
      · exact ⟨_, _, _, left, .andLast (by simpa using passed), others,
          Node.gives_atom.mpr ⟨rfl, rfl⟩⟩
      · exact ⟨_, _, _, left, .and (by simpa using passed) (by simpa using stopped), others,
          Node.gives_atom.mpr ⟨rfl, rfl⟩⟩
  | case2 =>
      cases operation_eq
      rw [Node.evalSpecial, Node.evalOr_eq_evalUntil] at gives
      rcases Node.evalUntil_cases gives with ⟨values, others, passed, rfl⟩ |
        ⟨before, decisive, after, values, rfl, others, passed, stopped⟩
      · exact ⟨_, _, _, left, .orLast passed, others, Node.gives_atom.mpr ⟨rfl, rfl⟩⟩
      · exact ⟨_, _, _, left, .or passed stopped, others, Node.gives_atom.mpr ⟨rfl, rfl⟩⟩
  | case3 condition consequent alternative =>
      cases operation_eq
      simp only [Node.evalSpecial, gives_bind] at gives
      rcases gives with ⟨given, middle, first, rest⟩
      have tested : Gives (Node.evalAll scope [condition]) start [given] middle :=
        Node.gives_evalAll_cons.mpr
          ⟨given, [], middle, first, Node.gives_evalAll_nil.mpr ⟨rfl, rfl⟩, rfl⟩
      split at rest
      · rename_i truthy
        exact ⟨_, _, _, middle, .consequent truthy, tested, rest⟩
      · rename_i falsey
        exact ⟨_, _, _, middle, .alternative (by simpa using falsey), tested, rest⟩
  | case4 _ notThree =>
      simp only [Node.evalSpecial] at gives
      cases gives
  | case5 _ paired =>
      cases operation_eq
      rcases Node.exists_ofClauses paired with ⟨clauses, rfl⟩
      simp only [Node.evalSpecial, paired, if_true] at gives
      rcases Node.evalCond_cases gives with ⟨falsities, others, falsey, rfl⟩ |
        ⟨before, test, consequent, after, falsities, truth, middle, rfl, others, falsey, truthy,
          decided⟩
      · exact ⟨_, _, _, left, .condNone falsey, others, Node.gives_atom.mpr ⟨rfl, rfl⟩⟩
      · refine ⟨_, _, consequent, middle, ?_, others, decided⟩
        have rule := @Decides.cond before after test consequent falsities truth falsey truthy
        simpa [Node.ofClauses] using rule
  | case6 _ unpaired =>
      simp only [Node.evalSpecial, unpaired, if_false] at gives
      cases gives
  | case7 function => cases operation_eq

/-! ## Costs do not depend on what was counted before -/

namespace Evaluation

/--
Without a budget, and whatever was counted before, a computation ends with a result, leaves a clock
and charges a number of operations, as far as the counter goes.
-/
def Costs (computation : Evaluation α) (clock : Clock) (result : Except Error α) (cost : Nat)
    (after : Clock) : Prop :=
  ∀ count : UInt64, ∃ spent : UInt64,
    spent.toNat = min (count.toNat + cost) (UInt64.size - 1) ∧
      computation.run ⟨⟨count, none⟩, clock⟩ = (result, ⟨⟨spent, none⟩, after⟩)

namespace Costs

variable {computation : Evaluation α} {next : α → Evaluation β} {clock middle after : Clock}
  {result : Except Error α} {final : Except Error β} {cost more : Nat}

theorem of_run_eq
    (run_eq : ∀ meter, computation.run ⟨meter, clock⟩ = (result, ⟨meter, after⟩)) :
    Costs computation clock result 0 after := by
  intro count
  have bound := count.toNat_lt_size
  exact ⟨count, by omega, run_eq _⟩

theorem unique {other : Except Error α} (costs : Costs computation clock result cost middle)
    (also : Costs computation clock other more after) : result = other ∧ middle = after := by
  rcases costs 0 with ⟨spent, _, ended⟩
  rcases also 0 with ⟨_, _, alsoEnded⟩
  rw [ended] at alsoEnded
  cases alsoEnded
  exact ⟨rfl, rfl⟩

theorem ofResult (result : Except Error α) (clock : Clock) :
    Costs (Evaluation.ofResult result) clock result 0 clock :=
  of_run_eq fun _ => rfl

theorem pure (value : α) (clock : Clock) :
    Costs (Pure.pure value) clock (.ok value) 0 clock :=
  of_run_eq fun _ => rfl

theorem ofAction (action : Action α) (clock : Clock) :
    Costs (Evaluation.ofAction action) clock (action.run clock).1 0 (action.run clock).2 :=
  of_run_eq fun _ => rfl

theorem charge (clock : Clock) : Costs Evaluation.charge clock (.ok ()) 1 clock := by
  intro count
  exact ⟨_, Meter.toNat_advance ⟨count, none⟩, rfl⟩

theorem within (node : Node) (costs : Costs computation clock result cost after) :
    Costs (Evaluation.within node computation) clock (result.mapError (Error.within node)) cost
      after := by
  intro count
  rcases costs count with ⟨spent, spent_eq, ended⟩
  refine ⟨spent, spent_eq, ?_⟩
  rw [run_within, ended]

theorem bind {value : α} (first : Costs computation clock (.ok value) cost middle)
    (rest : Costs (next value) middle final more after) :
    Costs (computation >>= next) clock final (cost + more) after := by
  intro count
  rcases first count with ⟨spent, spent_eq, ended⟩
  rcases rest spent with ⟨total, total_eq, finished⟩
  refine ⟨total, by omega, ?_⟩
  rw [run_bind_ok ended]
  exact finished

theorem bind_error {error : Error} (first : Costs computation clock (.error error) cost after) :
    Costs (computation >>= next) clock (.error error) cost after := by
  intro count
  rcases first count with ⟨spent, spent_eq, ended⟩
  exact ⟨spent, spent_eq, run_bind_error ended next⟩

/-- Entering a form charges one operation and marks the errors. -/
theorem enter (node : Node) (costs : Costs computation clock result cost after) :
    Costs (do
      Evaluation.charge
      Evaluation.within node computation) clock (result.mapError (Error.within node)) (1 + cost)
      after :=
  (charge clock).bind (costs.within node)

end Costs

/--
Without a budget, a computation gives the same and charges the same whatever was counted before it,
as far as the counter goes; the value that it gives, if there is one, is good.
-/
def Steady (good : α → Prop) (computation : Evaluation α) : Prop :=
  ∀ clock, ∃ result cost after, Conforms good (fun _ => True) result ∧
    ∀ count : UInt64, ∃ spent : UInt64,
      spent.toNat = min (count.toNat + cost) (UInt64.size - 1) ∧
        computation.run ⟨⟨count, none⟩, clock⟩ = (result, ⟨⟨spent, none⟩, after⟩)

namespace Steady

variable {good : α → Prop}

theorem exists_costs {computation : Evaluation α} (steady : Steady good computation)
    (clock : Clock) : ∃ result cost after, Costs computation clock result cost after := by
  rcases steady clock with ⟨result, cost, after, _, costs⟩
  exact ⟨result, cost, after, costs⟩

theorem ofResult {result : Except Error α} (conforms : Conforms good (fun _ => True) result) :
    Steady good (Evaluation.ofResult result) :=
  fun clock => ⟨result, 0, clock, conforms, Costs.ofResult result clock⟩

theorem ofAction {action : Action α}
    (conforms : ∀ clock, Conforms good (fun _ => True) (action.run clock).1) :
    Steady good (Evaluation.ofAction action) :=
  fun clock => ⟨_, 0, _, conforms clock, Costs.ofAction action clock⟩

theorem charge : Steady (fun _ => True) Evaluation.charge :=
  fun clock => ⟨.ok (), 1, clock, trivial, Costs.charge clock⟩

theorem within (node : Node) {computation : Evaluation α} (steady : Steady good computation) :
    Steady good (Evaluation.within node computation) := by
  intro clock
  rcases steady clock with ⟨result, cost, after, conforms, costs⟩
  exact ⟨result.mapError (Error.within node), cost, after, conforms.mapError _,
    Costs.within node costs⟩

theorem bind {final : β → Prop} {computation : Evaluation α} {next : α → Evaluation β}
    (first : Steady good computation) (rest : ∀ value, good value → Steady final (next value)) :
    Steady final (computation >>= next) := by
  intro clock
  rcases first clock with ⟨error | value, cost, after, conforms, costs⟩
  · exact ⟨.error error, cost, after, trivial, Costs.bind_error costs⟩
  · rcases rest value conforms after with ⟨result, more, last, moreConforms, moreCosts⟩
    exact ⟨result, cost + more, last, moreConforms, Costs.bind costs moreCosts⟩

end Steady

/-- A budget that admits a computation does not change what it gives. -/
theorem Metered.gives_free {computation : Evaluation α} (metered : Metered computation) {value : α}
    (gives : Gives computation start value left)
    (admitted : ∀ limit, start.meter.limit = some limit → start.meter.count ≤ limit) :
    Gives computation ⟨⟨start.meter.count, none⟩, start.clock⟩ value
      ⟨⟨left.meter.count, none⟩, left.clock⟩ := by
  rcases start with ⟨⟨count, budget⟩, clock⟩
  have unlimited := metered.limit_eq ⟨⟨count, none⟩, clock⟩
  cases budget with
  | none =>
      rcases left with ⟨⟨spent, leftover⟩, after⟩
      rw [gives] at unlimited
      obtain rfl : leftover = none := unlimited
      exact gives
  | some limit =>
      have agrees := metered.agrees count limit clock (admitted limit rfl)
      rw [gives] at agrees
      rcases free : computation.run ⟨⟨count, none⟩, clock⟩ with ⟨result, ⟨⟨spent, leftover⟩, after⟩⟩
      rw [free] at agrees unlimited
      obtain rfl : leftover = none := unlimited
      cases agrees with
      | same affordable => exact free

end Evaluation

open Evaluation (Steady)

theorem Scope.upholds_steady (scope : Scope) :
    scope.Upholds (fun _ => Steady) (fun _ => True) where
  pure {_ _ value} good := @Steady.ofResult _ _ (.ok value) good
  charge := Steady.charge
  within node := Steady.within node
  bind := Steady.bind
  truth := trivial
  nil := trivial
  refusal error _ := @Steady.ofResult _ _ (.error error) trivial
  call function arguments _ _ := by
    apply Steady.ofAction
    intro clock
    exact Conforms.any _

theorem Scope.steady_lookup (scope : Scope) (use : Use) :
    Steady (fun _ => True) (.ofResult (scope.lookup use)) :=
  Steady.ofResult (Conforms.any _)

theorem Node.steady_eval (scope : Scope) (node : Node) :
    Steady (fun _ => True) (node.eval scope) := by
  apply eval_upholds scope.upholds_steady
  · exact fun _ _ => trivial
  · exact fun use _ => scope.steady_lookup use

theorem Node.steady_evalProgram (scope : Scope) (last : Value) (nodes : List Node) :
    Steady (fun _ => True) (evalProgram scope last nodes) := by
  apply evalProgram_upholds scope.upholds_steady
  · exact fun _ _ => trivial
  · exact fun use _ => scope.steady_lookup use
  · trivial

theorem Node.gives_evalProgram_concat {nodes : List Node} {node : Node} {value : Value}
    (given : Gives (evalAll scope nodes) start values middle)
    (gives : Gives (node.eval scope) middle value left) (last : Value) :
    Gives (evalProgram scope last (nodes ++ [node])) start value left := by
  induction nodes generalizing start values last with
  | nil =>
      obtain rfl := (gives_evalAll_nil.mp given).2
      simp only [List.nil_append, evalProgram, gives_bind, gives_pure]
      exact ⟨value, left, gives, rfl, rfl⟩
  | cons first nodes ih =>
      rcases gives_evalAll_cons.mp given with ⟨initial, rest, next, taken, others, rfl⟩
      simp only [List.cons_append, evalProgram, gives_bind]
      exact ⟨initial, next, taken, ih others initial⟩

/-- What a program gives and charges, from any count and under any budget, it does alone. -/
theorem Outcome.ofNodes_none_of_gives {nodes : List Node} {value : Value}
    (gives : Gives (Node.evalProgram scope .nil nodes) start value left)
    (admitted : ∀ limit, start.meter.limit = some limit → start.meter.count ≤ limit) :
    let alone := ofNodes scope none nodes start.clock
    alone.result = .ok value ∧ alone.clock = left.clock ∧
      left.meter.count.toNat =
        min (start.meter.count.toNat + alone.charged.toNat) (UInt64.size - 1) := by
  -- The budget goes first: without it, the run from the given count and the run from zero agree.
  have free := (Node.metered_evalProgram scope .nil nodes).gives_free gives admitted
  rcases Node.steady_evalProgram scope .nil nodes start.clock with ⟨result, cost, after, _, runs⟩
  rcases runs start.meter.count with ⟨total, total_eq, ended⟩
  rcases runs 0 with ⟨spent, spent_eq, fresh⟩
  rw [Gives, ended] at free
  cases free
  have nothing : (0 : UInt64).toNat = 0 := rfl
  intro alone
  have alone_eq : alone = ⟨.ok value, spent, left.clock⟩ := by
    simp only [alone, ofNodes, Meter.ofLimit, fresh]
  rw [alone_eq]
  refine ⟨rfl, rfl, ?_⟩
  dsimp only
  omega

theorem SpecialForm.gives_eval {value : Value} :
    Gives ((Node.special (.form form) arguments).eval scope) start value left ↔
      ∃ entered, Gives Evaluation.charge start () entered ∧
        Gives (Node.evalSpecial scope (.form form) arguments) entered value left := by
  simp only [Node.eval_special, gives_bind, gives_within]
  constructor
  · rintro ⟨_, entered, charged, gives⟩
    exact ⟨entered, charged, gives⟩
  · rintro ⟨entered, charged, gives⟩
    exact ⟨(), entered, charged, gives⟩

theorem Evaluation.gives_charge {entered : Machine}
    (charged : Gives Evaluation.charge start () entered) :
    entered.clock = start.clock ∧
      entered.meter.count.toNat = min (start.meter.count.toNat + 1) (UInt64.size - 1) ∧
      ∀ limit, entered.meter.limit = some limit → entered.meter.count ≤ limit := by
  have ended : (start.meter.advance.check, { start with meter := start.meter.advance }) =
      (.ok (), entered) := charged
  rcases Prod.mk.inj ended with ⟨checked, rfl⟩
  refine ⟨rfl, start.meter.toNat_advance, ?_⟩
  intro limit isLimit
  rw [Meter.check, isLimit] at checked
  by_cases exceeded : limit < start.meter.advance.count
  · simp only [exceeded, if_true] at checked
    cases checked
  · exact UInt64.not_lt.mp exceeded

/--
Special forms are evaluated by their rules. Once the tested arguments have their values, a form does
what the chosen expression does, and marks the errors. If this gives a value, the form costs one
operation more than the tested arguments and the chosen expression do alone, and leaves the clock
that they leave. Every value of a form comes from such a rule, and it is the same, with the same
count and the same clock, for all other arguments with which the rule tests and chooses the same.
-/
theorem SpecialForm.eval_by_rules (scope : Scope) (form : SpecialForm) :
    (∀ arguments tested values chosen, Decides form arguments tested values chosen →
      ∀ start entered middle, Gives Evaluation.charge start () entered →
        Gives (Node.evalAll scope tested) entered values middle →
          ((Node.special (.form form) arguments).eval scope).run start =
            (Evaluation.within (.special (.form form) arguments) (chosen.eval scope)).run middle ∧
          ∀ value left, Gives (chosen.eval scope) middle value left →
            let alone := Outcome.ofNodes scope none (tested ++ [chosen]) start.clock
            alone.result = .ok value ∧ left.clock = alone.clock ∧
              left.meter.count.toNat =
                min (start.meter.count.toNat + 1 + alone.charged.toNat) (UInt64.size - 1)) ∧
    ∀ arguments start value left,
      Gives ((Node.special (.form form) arguments).eval scope) start value left →
        ∃ tested values chosen entered middle, Decides form arguments tested values chosen ∧
          Gives Evaluation.charge start () entered ∧
          Gives (Node.evalAll scope tested) entered values middle ∧
          Gives (chosen.eval scope) middle value left ∧
          ∀ others, Decides form others tested values chosen →
            Gives ((Node.special (.form form) others).eval scope) start value left := by
  refine ⟨?_, ?_⟩
  · intro arguments tested values chosen decides start entered middle charged given
    refine ⟨?_, ?_⟩
    · rw [Node.eval_special, Evaluation.run_bind_ok charged, Evaluation.run_within,
        Evaluation.run_within, decides.run_evalSpecial given]
    · intro value left gives
      rcases Evaluation.gives_charge charged with ⟨clock_eq, count_eq, admitted⟩
      have program := Node.gives_evalProgram_concat given gives .nil
      rcases Outcome.ofNodes_none_of_gives program admitted with ⟨result, sameClock, count⟩
      rw [clock_eq] at result sameClock count
      refine ⟨result, sameClock.symm, ?_⟩
      omega
  · intro arguments start value left gives
    rcases gives_eval.mp gives with ⟨entered, charged, decided⟩
    rcases exists_decides decided with ⟨tested, values, chosen, middle, decides, given, chosenGives⟩
    refine ⟨tested, values, chosen, entered, middle, decides, charged, given, chosenGives, ?_⟩
    intro others othersDecide
    refine gives_eval.mpr ⟨entered, charged, ?_⟩
    rw [Gives, othersDecide.run_evalSpecial given]
    exact chosenGives

/--
A false second operand of `and` decides within a budget of three. A call that comes after it would
exceed the budget, and any other operands in its place give the same value, count and clock.
-/
theorem SpecialForm.eval_by_rules_and :
    let scope : Scope := ⟨fun _ _ => .ofResult (.ok .nil), .empty⟩
    let call (name : String) (argument : Node) := Node.form [.symbol name, argument]
    let tested := [call "not" (.atom .nil), call "not" (.atom (.boolean true))]
    let skipped := call "first" (.form [.symbol "array"])
    let values := [Value.boolean true, .boolean false]
    let falsity := Node.atom (.boolean false)
    let start : Machine := ⟨Meter.ofLimit (some 3), .still .epoch⟩
    let entered : Machine := ⟨⟨1, some 3⟩, .still .epoch⟩
    let left : Machine := ⟨⟨3, some 3⟩, .still .epoch⟩
    Gives Evaluation.charge start () entered ∧
      Gives (Node.evalAll scope tested) entered values left ∧
      (∀ value after, ¬ Gives (skipped.eval scope) left value after) ∧
      (∀ others, Gives ((Node.special (.form .and) (tested ++ others)).eval scope) start
        (.boolean false) left) ∧
      (Outcome.ofNodes scope none (tested ++ [falsity]) start.clock).charged = 2 := by
  intro scope call tested skipped values falsity start entered left
  have charged : Gives Evaluation.charge start () entered := rfl
  have given : Gives (Node.evalAll scope tested) entered values left := rfl
  refine ⟨charged, given, ?_, ?_, rfl⟩
  · intro value after succeeds
    cases succeeds
  · intro others
    have decides : Decides .and (tested ++ others) tested values falsity :=
      @Decides.and [call "not" (.atom .nil)] others _ [.boolean true] _ (by simp [Value.isTruthy])
        rfl
    rcases (eval_by_rules scope .and).1 _ _ _ _ decides start entered left charged given with
      ⟨run_eq, _⟩
    rw [Gives, run_eq]
    rfl

end MeteredRules
