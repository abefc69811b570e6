import MeteredRules.Proofs.Evaluation.Run
import MeteredRules.Proofs.Node.Induction

/-!
# Budgets are exact

An evaluation under a budget and the same evaluation without one go through the same states until
the budget is used up. The relation `Agrees` compares the two ends, and `Metered` says of a
computation that the ends agree for every budget that is not used up yet at its start. Every
building block of evaluation is metered and sequences keep the property: an error of the budget
passes all marks unchanged, and the unbudgeted evaluation never takes operations back.

The counter stays at its greatest value, which no budget lies below; so a stuck counter never
exceeds a budget, in either evaluation.
-/

namespace MeteredRules

namespace Meter

theorem count_le_advance (meter : Meter) : meter.count ≤ meter.advance.count := by
  simp only [advance, UInt64.le_iff_toNat_le]
  split
  · rename_i fits
    rw [UInt64.toNat_add, UInt64.toNat_one, Nat.mod_eq_of_lt fits]
    exact Nat.le_succ _
  · exact Nat.le_refl _

theorem toNat_advance_le (meter : Meter) :
    meter.advance.count.toNat ≤ meter.count.toNat + 1 := by
  simp only [advance]
  split
  · rename_i fits
    have next_eq : (meter.count + 1).toNat = meter.count.toNat + 1 := by
      rw [UInt64.toNat_add, UInt64.toNat_one, Nat.mod_eq_of_lt fits]
    exact Nat.le_of_eq next_eq
  · exact Nat.le_succ _

end Meter

namespace Evaluation

variable {α β : Type}

/--
How the end of a budgeted evaluation compares with the end of the unbudgeted one: it is the same
while the budget suffices, and otherwise the budgeted evaluation failed at the first operation
too many.
-/
inductive Agrees (limit : UInt64) (free : Except Error α × Machine) :
    Except Error α × Machine → Prop where
  | same (affordable : free.2.meter.count ≤ limit) :
      Agrees limit free (free.1, ⟨⟨free.2.meter.count, some limit⟩, free.2.clock⟩)
  | stopped {machine : Machine} (exceeded : limit < free.2.meter.count)
      (count_eq : machine.meter.count.toNat = limit.toNat + 1) :
      Agrees limit free (.error (.budget limit), machine)

/--
A computation that never takes operations back, keeps the absence of a budget, and agrees with
itself under every budget that its start is still within.
-/
structure Metered (computation : Evaluation α) : Prop where
  count_le : ∀ machine : Machine,
    machine.meter.count ≤ (computation.run machine).2.meter.count
  limit_eq : ∀ machine : Machine,
    (computation.run machine).2.meter.limit = machine.meter.limit
  agrees : ∀ (count limit : UInt64) (clock : Clock), count ≤ limit →
    Agrees limit (computation.run ⟨⟨count, none⟩, clock⟩)
      (computation.run ⟨⟨count, some limit⟩, clock⟩)

namespace Metered

/-- A computation that leaves the meter alone and does not look at it is metered. -/
theorem of_clock (result : Clock → Except Error α × Clock) {computation : Evaluation α}
    (run_eq : ∀ machine : Machine, computation.run machine =
      ((result machine.clock).1, { machine with clock := (result machine.clock).2 })) :
    Metered computation where
  count_le machine := by rw [run_eq]; exact UInt64.le_refl _
  limit_eq machine := by rw [run_eq]
  agrees count limit clock enough := by
    rw [run_eq, run_eq]
    exact .same enough

theorem ofResult (result : Except Error α) : Metered (Evaluation.ofResult result) :=
  of_clock (fun clock => (result, clock)) (fun _ => rfl)

theorem pure (value : α) : Metered (Pure.pure value : Evaluation α) :=
  ofResult (.ok value)

theorem ofAction (action : Action α) : Metered (Evaluation.ofAction action) :=
  of_clock (fun clock => action.run clock) (fun _ => rfl)

theorem charge : Metered Evaluation.charge where
  count_le machine := machine.meter.count_le_advance
  limit_eq machine := rfl
  agrees count limit clock enough := by
    have grows := Meter.toNat_advance_le ⟨count, none⟩
    rw [run_charge, run_charge]
    by_cases exceeded : limit < (Meter.advance ⟨count, none⟩).count
    · have refused : (Meter.advance ⟨count, some limit⟩).check = .error (.budget limit) :=
        if_pos exceeded
      rw [refused]
      refine .stopped exceeded ?_
      change (Meter.advance ⟨count, none⟩).count.toNat = limit.toNat + 1
      rw [UInt64.lt_iff_toNat_lt] at exceeded
      rw [UInt64.le_iff_toNat_le] at enough
      dsimp only at grows
      omega
    · have admitted : (Meter.advance ⟨count, some limit⟩).check = .ok () := if_neg exceeded
      rw [admitted]
      exact .same (UInt64.not_lt.mp exceeded)

/-- The error of a budget keeps no trail, so that marking errors does not change it. -/
theorem within (node : Node) {computation : Evaluation α} (metered : Metered computation) :
    Metered (Evaluation.within node computation) where
  count_le machine := metered.count_le machine
  limit_eq machine := metered.limit_eq machine
  agrees count limit clock enough := by
    have agrees := metered.agrees count limit clock enough
    rw [run_within, run_within]
    generalize computation.run ⟨⟨count, some limit⟩, clock⟩ = bounded at agrees ⊢
    cases agrees with
    | same affordable => exact .same affordable
    | stopped exceeded count_eq => exact .stopped exceeded count_eq

theorem bind {computation : Evaluation α} {next : α → Evaluation β}
    (first : Metered computation) (rest : ∀ value, Metered (next value)) :
    Metered (computation >>= next) where
  count_le machine := by
    have start := first.count_le machine
    rcases ended : computation.run machine with ⟨error | value, left⟩
    · rw [run_bind_error ended]
      rwa [ended] at start
    · rw [run_bind_ok ended]
      rw [ended] at start
      exact UInt64.le_trans start ((rest value).count_le left)
  limit_eq machine := by
    have start := first.limit_eq machine
    rcases ended : computation.run machine with ⟨error | value, left⟩
    · rw [run_bind_error ended]
      rwa [ended] at start
    · rw [run_bind_ok ended, (rest value).limit_eq left]
      rwa [ended] at start
  agrees count limit clock enough := by
    have start := first.agrees count limit clock enough
    have unlimited := first.limit_eq ⟨⟨count, none⟩, clock⟩
    rcases free : computation.run ⟨⟨count, none⟩, clock⟩ with ⟨result, ⟨⟨spent, budget⟩, after⟩⟩
    rw [free] at start unlimited
    obtain rfl : budget = none := unlimited
    generalize bounded : computation.run ⟨⟨count, some limit⟩, clock⟩ = ended at start
    cases start with
    | same affordable =>
        cases result with
        | error error =>
            rw [run_bind_error free, run_bind_error bounded]
            exact .same affordable
        | ok value =>
            rw [run_bind_ok free, run_bind_ok bounded]
            exact (rest value).agrees spent limit after affordable
    | stopped exceeded count_eq =>
        rw [run_bind_error bounded]
        refine .stopped ?_ count_eq
        cases result with
        | error error => rwa [run_bind_error free]
        | ok value =>
            rw [run_bind_ok free]
            exact UInt64.lt_of_lt_of_le exceeded ((rest value).count_le _)

end Metered

end Evaluation

open Evaluation (Metered)

theorem Scope.metered_call (scope : Scope) (callee : Value) (arguments : List Value) :
    Metered (scope.call callee arguments) := by
  cases callee with
  | callable function => exact .ofAction _
  | _ => exact .ofResult _

namespace Node

variable {scope : Scope}

theorem metered_evalAll {nodes : List Node} (parts : ∀ node ∈ nodes, Metered (node.eval scope)) :
    Metered (evalAll scope nodes) := by
  induction nodes with
  | nil => exact .pure _
  | cons node nodes ih =>
      rw [List.forall_mem_cons] at parts
      rw [evalAll]
      apply Metered.bind parts.1
      intro value
      apply Metered.bind (ih parts.2)
      intro values
      exact .pure _

theorem metered_evalAnd {nodes : List Node} (parts : ∀ node ∈ nodes, Metered (node.eval scope))
    (last : Value) : Metered (evalAnd scope last nodes) := by
  induction nodes generalizing last with
  | nil => exact .pure _
  | cons node nodes ih =>
      rw [List.forall_mem_cons] at parts
      rw [evalAnd]
      apply Metered.bind parts.1
      intro value
      split
      · exact ih parts.2 value
      · exact .pure _

theorem metered_evalOr {nodes : List Node} (parts : ∀ node ∈ nodes, Metered (node.eval scope))
    (last : Value) : Metered (evalOr scope last nodes) := by
  induction nodes generalizing last with
  | nil => exact .pure _
  | cons node nodes ih =>
      rw [List.forall_mem_cons] at parts
      rw [evalOr]
      apply Metered.bind parts.1
      intro value
      split
      · exact .pure _
      · exact ih parts.2 value

/-- Tests and consequents come in pairs; an odd last expression is never reached. -/
theorem metered_evalCond :
    ∀ {nodes : List Node}, (∀ node ∈ nodes, Metered (node.eval scope)) →
      Metered (evalCond scope nodes)
  | [], _ => .pure _
  | [_], _ => .pure _
  | test :: consequent :: rest, parts => by
      rw [List.forall_mem_cons, List.forall_mem_cons] at parts
      rw [evalCond]
      apply Metered.bind parts.1
      intro value
      split
      · exact parts.2.1
      · exact metered_evalCond parts.2.2

theorem metered_evalHead {head : Node} (part : Metered (head.eval scope)) :
    Metered (head.evalHead scope) := by
  cases head with
  | symbol name => exact .ofResult _
  | _ => exact part

theorem metered_evalSpecial (operation : Operation) {arguments : List Node}
    (parts : ∀ argument ∈ arguments, Metered (argument.eval scope)) :
    Metered (evalSpecial scope operation arguments) := by
  fun_cases evalSpecial scope operation arguments with
  | case1 => exact metered_evalAnd parts _
  | case2 => exact metered_evalOr parts _
  | case3 condition consequent alternative =>
      apply Metered.bind (parts condition (by simp))
      intro value
      split
      · exact parts consequent (by simp)
      · exact parts alternative (by simp)
  | case4 => exact .ofResult _
  | case5 => exact metered_evalCond parts
  | case6 => exact .ofResult _
  | case7 => exact .ofResult _

theorem metered_eval (scope : Scope) (node : Node) : Metered (node.eval scope) := by
  induction node using Node.induction with
  | atom value =>
      rw [eval]
      exact .pure _
  | symbol name =>
      rw [eval]
      exact .ofResult _
  | form elements parts =>
      cases elements with
      | nil =>
          rw [eval_form_nil]
          exact .bind .charge fun _ => .within _ (.ofResult _)
      | cons head arguments =>
          rw [List.forall_mem_cons] at parts
          rw [eval_form_cons]
          apply Metered.bind .charge
          intro _
          apply Metered.within
          apply Metered.bind (metered_evalHead parts.1)
          intro callee
          apply Metered.bind (metered_evalAll parts.2)
          intro values
          exact scope.metered_call callee values
  | special operation arguments parts =>
      rw [eval_special]
      exact .bind .charge fun _ => .within _ (metered_evalSpecial operation parts)

theorem metered_evalProgram (scope : Scope) (last : Value) (nodes : List Node) :
    Metered (evalProgram scope last nodes) := by
  induction nodes generalizing last with
  | nil => exact .pure _
  | cons node nodes ih =>
      rw [evalProgram]
      exact .bind (metered_eval scope node) ih

end Node

/--
A budget that is at least the cost of an evaluation without a budget changes nothing: result, cost
and clock are the same. A smaller one is exceeded by exactly one operation, and the error that the
evaluation then fails with names the budget and no expression.
-/
theorem Outcome.ofNodes_some_limit (scope : Scope) (nodes : List Node) (clock : Clock)
    (limit : UInt64) :
    ((ofNodes scope none nodes clock).charged ≤ limit →
      ofNodes scope (some limit) nodes clock = ofNodes scope none nodes clock) ∧
    (limit < (ofNodes scope none nodes clock).charged →
      (ofNodes scope (some limit) nodes clock).result = .error (.budget limit) ∧
      (ofNodes scope (some limit) nodes clock).charged.toNat = limit.toNat + 1) := by
  have agrees := (Node.metered_evalProgram scope .nil nodes).agrees 0 limit clock UInt64.zero_le
  simp only [ofNodes, Meter.ofLimit]
  generalize (Node.evalProgram scope .nil nodes).run ⟨⟨0, none⟩, clock⟩ = free at agrees ⊢
  generalize (Node.evalProgram scope .nil nodes).run ⟨⟨0, some limit⟩, clock⟩ = bounded
    at agrees ⊢
  cases agrees with
  | same affordable =>
      refine ⟨fun _ => rfl, fun exceeded => ?_⟩
      exact absurd affordable (UInt64.not_le.mpr exceeded)
  | stopped exceeded count_eq =>
      refine ⟨fun affordable => ?_, fun _ => ⟨rfl, count_eq⟩⟩
      exact absurd affordable (UInt64.not_le.mpr exceeded)

/-- A conjunction with a call in it costs two operations, one more than a budget of one admits. -/
theorem Outcome.ofNodes_some_one :
    1 < (ofNodes ⟨fun _ _ => .ofResult (.ok .nil), .empty⟩ none
      [.special (.form .and) [.form [.symbol "not", .atom .nil]]] (.still .epoch)).charged ∧
    (ofNodes ⟨fun _ _ => .ofResult (.ok .nil), .empty⟩ (some 1)
      [.special (.form .and) [.form [.symbol "not", .atom .nil]]] (.still .epoch)).result =
        .error (.budget 1) := by
  have costly : 1 < (ofNodes ⟨fun _ _ => .ofResult (.ok .nil), .empty⟩ none
      [.special (.form .and) [.form [.symbol "not", .atom .nil]]] (.still .epoch)).charged := by
    decide
  exact ⟨costly, ((ofNodes_some_limit _ _ _ 1).2 costly).1⟩

end MeteredRules
