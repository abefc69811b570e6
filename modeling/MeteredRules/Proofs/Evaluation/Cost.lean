import MeteredRules.Program
import MeteredRules.Proofs.Evaluation.Budget
import MeteredRules.Proofs.Evaluation.Conformance
import MeteredRules.Proofs.Reader.Spelling

/-!
# What an evaluation costs

No form is evaluated twice. An evaluation therefore charges at most one operation for each form of
the program, and exactly one for each if it gives a value and no special form could leave a part
out. The forms of a program that was read are charged to opening parentheses of the source text, one
for each form. A budget of that size is never used up.

The counter of the meter stays at its greatest value once it is there; an exact cost is exact up to
this value.
-/

namespace MeteredRules

variable {α β : Type}

/-! ## Counting forms -/

namespace Node

mutual

/-- The number of forms in an expression, special forms included. -/
def formCount : Node → Nat
  | .atom _ | .symbol _ => 0
  | .form elements => totalFormCount elements + 1
  | .special _ arguments => totalFormCount arguments + 1

/-- The number of forms in a list of expressions. -/
def totalFormCount : List Node → Nat
  | [] => 0
  | node :: nodes => node.formCount + totalFormCount nodes

end

mutual

/-- The number of special forms in an expression. -/
def specialCount : Node → Nat
  | .atom _ | .symbol _ => 0
  | .form elements => totalSpecialCount elements
  | .special _ arguments => totalSpecialCount arguments + 1

/-- The number of special forms in a list of expressions. -/
def totalSpecialCount : List Node → Nat
  | [] => 0
  | node :: nodes => node.specialCount + totalSpecialCount nodes

end

end Node

namespace Reader

variable {comments : Bool} {options : Options} {depth : Nat} {text rest : List Char}
  {nodes : List Node}

theorem Trivia.count_opening_le (trivia : Trivia comments text rest) :
    rest.count '(' ≤ text.count '(' := by
  induction trivia with
  | none => exact Nat.le_refl _
  | blank _ _ ih => exact Nat.le_trans ih List.count_le_count_cons
  | comment _ _ _ _ ih =>
      apply Nat.le_trans ih
      simp only [← List.cons_append, List.count_append]
      exact Nat.le_add_left _ _

theorem Single.count_opening_le {node : Node} (single : Single comments text node rest) :
    rest.count '(' ≤ text.count '(' := by
  cases single with
  | string => simp
  | instant => simp
  | word => simp

theorem Single.formCount_eq_zero {node : Node} (single : Single comments text node rest) :
    node.formCount = 0 := by
  cases single with
  | string | instant => rfl
  | word _ _ _ _ means => cases means <;> rfl

theorem Formed.formCount_eq {elements : List Node} {node : Node} (formed : Formed elements node) :
    node.formCount = Node.totalFormCount elements + 1 := by
  cases formed with
  | special accepted => simp [Node.formCount, Node.totalFormCount]
  | call notSpecial => simp [Node.formCount]

/-- Every form takes an opening parenthesis of its own out of the text. -/
theorem Sequence.totalFormCount_add_le (derived : Sequence options depth text nodes rest) :
    Node.totalFormCount nodes + rest.count '(' ≤ text.count '(' := by
  induction derived with
  | done trivia =>
      simp only [Node.totalFormCount, Nat.zero_add]
      exact trivia.count_opening_le
  | single trivia item _ ih =>
      have skipped := trivia.count_opening_le
      have taken := item.count_opening_le
      simp only [Node.totalFormCount, item.formCount_eq_zero]
      omega
  | form trivia _ _ formed _ ihContent ihMore =>
      have skipped := trivia.count_opening_le
      simp only [List.count_cons_self] at skipped
      simp only [Node.totalFormCount, formed.formCount_eq]
      simp at ihContent
      omega

end Reader

/-! ## Charging operations -/

theorem Meter.toNat_advance (meter : Meter) :
    meter.advance.count.toNat = min (meter.count.toNat + 1) (UInt64.size - 1) := by
  have bound := meter.count.toNat_lt_size
  simp only [advance]
  split
  · rename_i fits
    have next_eq : (meter.count + 1).toNat = meter.count.toNat + 1 := by
      rw [UInt64.toNat_add, UInt64.toNat_one, Nat.mod_eq_of_lt fits]
    omega
  · omega

namespace Evaluation

/--
A computation that charges at most a number of operations, and exactly that number if it gives a
value under a condition that it is `exact`.
-/
structure Priced (cost : Nat) (exact : Prop) (computation : Evaluation α) : Prop where
  atMost : ∀ machine : Machine,
    (computation.run machine).2.meter.count.toNat ≤ machine.meter.count.toNat + cost
  exactly : exact → ∀ (machine left : Machine) (value : α),
    computation.run machine = (.ok value, left) →
      left.meter.count.toNat = min (machine.meter.count.toNat + cost) (UInt64.size - 1)

namespace Priced

variable {cost more : Nat} {exact stricter : Prop} {computation : Evaluation α}

/-- A computation that leaves the count alone is free. -/
theorem of_count_eq (count_eq : ∀ machine : Machine,
    (computation.run machine).2.meter.count = machine.meter.count) :
    Priced 0 True computation where
  atMost machine := by
    rw [count_eq]
    exact Nat.le_refl _
  exactly _ machine left value ended := by
    have same : left.meter.count = machine.meter.count := by
      simpa [ended] using count_eq machine
    have bound := machine.meter.count.toNat_lt_size
    rw [same]
    omega

theorem ofResult (result : Except Error α) : Priced 0 True (Evaluation.ofResult result) :=
  of_count_eq fun _ => rfl

theorem pure (value : α) : Priced 0 True (Pure.pure value : Evaluation α) :=
  of_count_eq fun _ => rfl

theorem ofAction (action : Action α) : Priced 0 True (Evaluation.ofAction action) :=
  of_count_eq fun _ => rfl

theorem charge : Priced 1 True Evaluation.charge where
  atMost machine := machine.meter.toNat_advance_le
  exactly _ machine left value ended := by
    obtain rfl : { machine with meter := machine.meter.advance } = left :=
      congrArg Prod.snd ended
    exact machine.meter.toNat_advance

theorem congr (priced : Priced cost exact computation) (cost_eq : cost = more)
    (isExact : stricter → exact) : Priced more stricter computation where
  atMost machine := by
    subst cost_eq
    exact priced.atMost machine
  exactly strict machine left value ended := by
    subst cost_eq
    exact priced.exactly (isExact strict) machine left value ended

/-- A greater price is a price that is never claimed to be exact. -/
theorem loose (priced : Priced cost exact computation) (cost_le : cost ≤ more) :
    Priced more False computation where
  atMost machine := Nat.le_trans (priced.atMost machine) (Nat.add_le_add_left cost_le _)
  exactly impossible := impossible.elim

theorem within (node : Node) (priced : Priced cost exact computation) :
    Priced cost exact (Evaluation.within node computation) where
  atMost machine := priced.atMost machine
  exactly isExact machine left value ended := by
    apply priced.exactly isExact machine left value
    -- Marking turns no error into a value, so that the unmarked run gives the value too.
    rw [run_within] at ended
    generalize computation.run machine = unmarked at ended ⊢
    rcases unmarked with ⟨error | given, after⟩
    · cases ended
    · exact ended

theorem bind {next : α → Evaluation β} (first : Priced cost exact computation)
    (rest : ∀ value, Priced more stricter (next value)) :
    Priced (cost + more) (exact ∧ stricter) (computation >>= next) where
  atMost machine := by
    have paid := first.atMost machine
    rcases ended : computation.run machine with ⟨error | value, left⟩
    · rw [run_bind_error ended]
      rw [ended] at paid
      exact Nat.le_trans paid (by omega)
    · rw [run_bind_ok ended]
      rw [ended] at paid
      have paidAfter := (rest value).atMost left
      dsimp only at paid
      omega
  exactly both machine final value finished := by
    rcases ended : computation.run machine with ⟨error | given, left⟩
    · rw [run_bind_error ended] at finished
      cases finished
    · rw [run_bind_ok ended] at finished
      have paid := first.exactly both.1 machine left given ended
      have paidAfter := (rest given).exactly both.2 left final value finished
      omega

theorem bind_loose {next : α → Evaluation β} (first : Priced cost exact computation)
    (rest : ∀ value, Priced more False (next value)) :
    Priced (cost + more) False (computation >>= next) :=
  (bind first rest).loose (Nat.le_refl _)

end Priced

end Evaluation

open Evaluation (Priced)

variable {scope : Scope}

theorem Scope.priced_call (scope : Scope) (callee : Value) (arguments : List Value) :
    Priced 0 True (scope.call callee arguments) := by
  cases callee with
  | callable function => exact .ofAction _
  | _ => exact .ofResult _

namespace Node

theorem priced_evalAll {nodes : List Node}
    (parts : ∀ node ∈ nodes, Priced node.formCount (node.specialCount = 0) (node.eval scope)) :
    Priced (totalFormCount nodes) (totalSpecialCount nodes = 0) (evalAll scope nodes) := by
  induction nodes with
  | nil => exact (Priced.pure []).congr rfl fun _ => trivial
  | cons node nodes ih =>
      simp only [List.forall_mem_cons] at parts
      simp only [evalAll]
      have sequence := Priced.bind parts.1 fun value =>
        Priced.bind (ih parts.2) fun values => Priced.pure (value :: values)
      apply sequence.congr
      · simp [totalFormCount]
      · intro plain
        simp only [totalSpecialCount, Nat.add_eq_zero_iff] at plain
        exact ⟨plain.1, plain.2, trivial⟩

/-! Special forms leave parts out, so that their price is never exact. -/

theorem priced_evalAnd {nodes : List Node}
    (parts : ∀ node ∈ nodes, Priced node.formCount (node.specialCount = 0) (node.eval scope))
    (last : Value) : Priced (totalFormCount nodes) False (evalAnd scope last nodes) := by
  induction nodes generalizing last with
  | nil => exact (Priced.pure last).loose (Nat.le_refl 0)
  | cons node nodes ih =>
      simp only [List.forall_mem_cons] at parts
      simp only [evalAnd, totalFormCount]
      apply Priced.bind_loose parts.1
      intro value
      split
      · exact ih parts.2 value
      · exact (Priced.pure value).loose (Nat.zero_le _)

theorem priced_evalOr {nodes : List Node}
    (parts : ∀ node ∈ nodes, Priced node.formCount (node.specialCount = 0) (node.eval scope))
    (last : Value) : Priced (totalFormCount nodes) False (evalOr scope last nodes) := by
  induction nodes generalizing last with
  | nil => exact (Priced.pure last).loose (Nat.le_refl 0)
  | cons node nodes ih =>
      simp only [List.forall_mem_cons] at parts
      simp only [evalOr, totalFormCount]
      apply Priced.bind_loose parts.1
      intro value
      split
      · exact (Priced.pure value).loose (Nat.zero_le _)
      · exact ih parts.2 value

theorem priced_evalCond :
    ∀ {nodes : List Node},
      (∀ node ∈ nodes, Priced node.formCount (node.specialCount = 0) (node.eval scope)) →
        Priced (totalFormCount nodes) False (evalCond scope nodes)
  | [], _ => (Priced.pure Value.nil).loose (Nat.zero_le _)
  | [_], _ => (Priced.pure Value.nil).loose (Nat.zero_le _)
  | test :: consequent :: rest, parts => by
      simp only [List.forall_mem_cons] at parts
      simp only [evalCond, totalFormCount]
      apply Priced.bind_loose parts.1
      intro value
      split
      · exact parts.2.1.loose (Nat.le_add_right _ _)
      · exact (priced_evalCond parts.2.2).loose (Nat.le_add_left _ _)

theorem priced_evalSpecial (operation : Operation) {arguments : List Node}
    (parts : ∀ argument ∈ arguments,
      Priced argument.formCount (argument.specialCount = 0) (argument.eval scope)) :
    Priced (totalFormCount arguments) False (evalSpecial scope operation arguments) := by
  apply evalSpecial_cases
  case and => exact priced_evalAnd parts _
  case or => exact priced_evalOr parts _
  case ite =>
    intro condition consequent alternative equal
    simp only [equal, List.forall_mem_cons] at parts
    simp only [equal, totalFormCount]
    apply Priced.bind_loose parts.1
    intro value
    split
    · exact parts.2.1.loose (Nat.le_add_right _ _)
    · exact parts.2.2.1.loose (by omega)
  case cond => exact priced_evalCond parts
  case arity =>
    intro expected
    exact (Priced.ofResult _).loose (Nat.zero_le _)
  case function =>
    intro builtin
    exact (Priced.ofResult _).loose (Nat.zero_le _)

theorem priced_evalHead {head : Node}
    (part : Priced head.formCount (head.specialCount = 0) (head.eval scope)) :
    Priced head.formCount (head.specialCount = 0) (head.evalHead scope) := by
  cases head with
  | symbol name => exact (Priced.ofResult _).congr rfl fun _ => trivial
  | _ => exact part

/-- An expression costs one operation for each of its forms. -/
theorem priced_eval (scope : Scope) (node : Node) :
    Priced node.formCount (node.specialCount = 0) (node.eval scope) := by
  induction node using Node.induction with
  | atom value =>
      simp only [eval]
      exact (Priced.pure value).congr rfl fun _ => trivial
  | symbol name =>
      simp only [eval]
      exact (Priced.ofResult _).congr rfl fun _ => trivial
  | form elements parts =>
      cases elements with
      | nil =>
          simp only [eval_form_nil]
          have sequence := Priced.bind .charge fun _ =>
            Priced.within (.form []) (.ofResult (.error (.refuse .emptyForm) : Except Error Value))
          exact sequence.congr rfl fun _ => ⟨trivial, trivial⟩
      | cons head arguments =>
          simp only [List.forall_mem_cons] at parts
          simp only [eval_form_cons]
          have sequence := Priced.bind .charge fun _ =>
            Priced.within (.form (head :: arguments)) <|
              Priced.bind (priced_evalHead parts.1) fun callee =>
                Priced.bind (priced_evalAll parts.2) fun values =>
                  scope.priced_call callee values
          apply sequence.congr
          · simp only [formCount, totalFormCount]
            omega
          · intro plain
            simp only [specialCount, totalSpecialCount, Nat.add_eq_zero_iff] at plain
            exact ⟨trivial, plain.1, plain.2, trivial⟩
  | special operation arguments parts =>
      simp only [eval_special]
      have sequence := Priced.bind .charge fun _ =>
        Priced.within (.special operation arguments) (priced_evalSpecial operation parts)
      apply sequence.congr
      · simp only [formCount]
        omega
      · simp [specialCount]

theorem priced_evalProgram (scope : Scope) (last : Value) (nodes : List Node) :
    Priced (totalFormCount nodes) (totalSpecialCount nodes = 0)
      (evalProgram scope last nodes) := by
  induction nodes generalizing last with
  | nil => exact (Priced.pure last).congr rfl fun _ => trivial
  | cons node nodes ih =>
      simp only [evalProgram, totalFormCount]
      apply (Priced.bind (priced_eval scope node) ih).congr rfl
      intro plain
      simpa only [totalSpecialCount, Nat.add_eq_zero_iff] using plain

end Node

/-! ## Programs -/

namespace Outcome

variable {nodes : List Node} {limit : Option UInt64} {clock : Clock}

theorem toNat_charged_le (scope : Scope) (limit : Option UInt64) (nodes : List Node)
    (clock : Clock) :
    (ofNodes scope limit nodes clock).charged.toNat ≤ Node.totalFormCount nodes := by
  have paid := (Node.priced_evalProgram scope .nil nodes).atMost ⟨Meter.ofLimit limit, clock⟩
  have start : (Meter.ofLimit limit).count.toNat = 0 := rfl
  rwa [start, Nat.zero_add] at paid

theorem toNat_charged_eq (plain : Node.totalSpecialCount nodes = 0) {value : Value}
    (succeeded : (ofNodes scope limit nodes clock).result = .ok value) :
    (ofNodes scope limit nodes clock).charged.toNat =
      min (Node.totalFormCount nodes) (UInt64.size - 1) := by
  have ended : (Node.evalProgram scope .nil nodes).run ⟨Meter.ofLimit limit, clock⟩ =
      (.ok value, _) := Prod.ext succeeded rfl
  have paid := (Node.priced_evalProgram scope .nil nodes).exactly plain _ _ value ended
  have start : (Meter.ofLimit limit).count.toNat = 0 := rfl
  rwa [start, Nat.zero_add] at paid

end Outcome

/-- An error that is not one of an exceeded budget. -/
def Error.IsNoBudget (error : Error) : Prop :=
  ∀ limit, error ≠ .budget limit

theorem Error.isNoBudget_of_isOfCall {error : Error} (ofCall : error.isOfCall) :
    error.IsNoBudget := by
  rintro limit rfl
  simp [isOfCall] at ofCall

theorem Scope.conforms_lookup_isNoBudget (scope : Scope) (use : Use) :
    Conforms (fun _ => True) Error.IsNoBudget (scope.lookup use) := by
  have gives := scope.gives_lookup use
  generalize scope.lookup use = result at gives ⊢
  cases gives with
  | bound | builtin => trivial
  | reserved | unbound => exact fun _ => nofun

/-- Without a budget, and with host functions that report none, no evaluation is over budget. -/
theorem Outcome.isNoBudget_of_result {scope : Scope}
    (unreported : ∀ key arguments,
      Action.Conforms (fun _ => True) Error.IsNoBudget (scope.host key arguments))
    (nodes : List Node) (clock : Clock) :
    Conforms (fun _ => True) Error.IsNoBudget (ofNodes scope none nodes clock).result := by
  have keeps : scope.Keeps none (fun _ => True) Error.IsNoBudget := by
    constructor
    · nofun
    · exact fun _ ofCall => Error.isNoBudget_of_isOfCall ofCall
    · intro node error noBudget
      cases error with
      | argument | evaluation => exact fun _ => nofun
      | _ => exact noBudget
    · trivial
    · trivial
    · intro function arguments _
      apply Callable.conforms_call_of_host
      · exact fun _ ofCall => Error.isNoBudget_of_isOfCall ofCall
      · exact unreported
  apply conforms_ofNodes keeps
  · exact fun _ _ => trivial
  · exact fun use _ => scope.conforms_lookup_isNoBudget use

/-- A budget of one operation for each form is never exceeded. -/
theorem Outcome.isNoBudget_of_affordable {scope : Scope}
    (unreported : ∀ key arguments,
      Action.Conforms (fun _ => True) Error.IsNoBudget (scope.host key arguments))
    {nodes : List Node} {limit : UInt64} (affordable : Node.totalFormCount nodes ≤ limit.toNat)
    (clock : Clock) :
    Conforms (fun _ => True) Error.IsNoBudget (ofNodes scope (some limit) nodes clock).result := by
  have agrees := (Node.metered_evalProgram scope .nil nodes).agrees 0 limit clock UInt64.zero_le
  have charged : ((Node.evalProgram scope .nil nodes).run ⟨⟨0, none⟩, clock⟩).2.meter.count.toNat ≤
      Node.totalFormCount nodes := toNat_charged_le scope none nodes clock
  have free : Conforms (fun _ => True) Error.IsNoBudget
      ((Node.evalProgram scope .nil nodes).run ⟨⟨0, none⟩, clock⟩).1 :=
    isNoBudget_of_result unreported nodes clock
  change Conforms _ _ ((Node.evalProgram scope .nil nodes).run ⟨⟨0, some limit⟩, clock⟩).1
  generalize (Node.evalProgram scope .nil nodes).run ⟨⟨0, none⟩, clock⟩ = unbounded
    at agrees charged free
  generalize (Node.evalProgram scope .nil nodes).run ⟨⟨0, some limit⟩, clock⟩ = bounded
    at agrees ⊢
  cases agrees with
  | same affordable => exact free
  | stopped exceeded count_eq =>
      -- The run without a budget would have to charge more operations than there are forms.
      rw [UInt64.lt_iff_toNat_lt] at exceeded
      omega

theorem evaluate_of_read {source : String} {nodes : List Node}
    (accepted : Reader.read .standard source = .ok nodes) (host : Host) (environment : Environment)
    (limit : Option UInt64) (clock : Clock) :
    evaluate host source environment limit clock =
      .ofNodes ⟨host, environment⟩ limit nodes clock := by
  simp only [evaluate, accepted]

/--
The cost of a source text. An evaluation without a budget charges at most one operation for each
form that was read, and there are at most as many forms as opening parentheses in the text. A budget
of one operation for each form is therefore never exceeded, unless a host function says so. An
evaluation that gives a value and contains no special form charges each form exactly once; the
counter shows this number as long as it can, which is always the case for a text with fewer
characters than the counter has values.
-/
theorem evaluate_charged_le {source : String} {nodes : List Node}
    (accepted : Reader.read .standard source = .ok nodes) (host : Host) (environment : Environment)
    (clock : Clock) :
    (evaluate host source environment none clock).charged.toNat ≤ Node.totalFormCount nodes ∧
    Node.totalFormCount nodes ≤ source.toList.count '(' ∧
    ((∀ key arguments clock exceeded,
        ((host key arguments).run clock).1 ≠ .error (.budget exceeded)) →
      ∀ limit : UInt64, Node.totalFormCount nodes ≤ limit.toNat → ∀ exceeded,
        (evaluate host source environment (some limit) clock).result ≠
          .error (.budget exceeded)) ∧
    (Node.totalSpecialCount nodes = 0 → ∀ value,
      (evaluate host source environment none clock).result = .ok value →
        (evaluate host source environment none clock).charged.toNat =
          min (Node.totalFormCount nodes) (UInt64.size - 1) ∧
        (source.toList.length < UInt64.size →
          (evaluate host source environment none clock).charged.toNat =
            Node.totalFormCount nodes)) := by
  have opened : Node.totalFormCount nodes ≤ source.toList.count '(' := by
    simpa using (Reader.sequence_of_read accepted).totalFormCount_add_le
  simp only [evaluate_of_read accepted]
  refine ⟨Outcome.toNat_charged_le _ _ _ _, opened, ?_, ?_⟩
  · intro unreported limit affordable exceeded failed
    have conforms : Conforms (fun _ => True) Error.IsNoBudget
        (Outcome.ofNodes ⟨host, environment⟩ (some limit) nodes clock).result := by
      apply Outcome.isNoBudget_of_affordable _ affordable
      intro key arguments clock
      cases given : ((host key arguments).run clock).1 with
      | ok value => trivial
      | error error =>
          rintro exceeded rfl
          exact unreported key arguments clock exceeded given
    rw [failed] at conforms
    exact conforms exceeded rfl
  · intro plain value succeeded
    have exactly := Outcome.toNat_charged_eq plain succeeded
    refine ⟨exactly, ?_⟩
    intro short
    have count_le : source.toList.count '(' ≤ source.toList.length := List.count_le_length
    omega

/-- The text `(not (array))` costs two operations and is evaluated under a budget of two. -/
theorem evaluate_charged_le_not_array :
    let source := "(not (array))"
    let nodes := [Node.form [.symbol "not", .form [.symbol "array"]]]
    let host : Host := fun _ _ => .ofResult (.ok .nil)
    let clock := Clock.still .epoch
    Reader.read .standard source = .ok nodes ∧ Node.totalSpecialCount nodes = 0 ∧
      (evaluate host source .empty none clock).result = .ok (.boolean false) ∧
      (evaluate host source .empty none clock).charged.toNat = 2 ∧
      ∀ exceeded, (evaluate host source .empty (some 2) clock).result ≠
        .error (.budget exceeded) := by
  intro source nodes host clock
  have accepted : Reader.read .standard source = .ok nodes := by
    have spelled : Reader.Spells .standard 0
        (Node.form [.symbol "not", .form [.symbol "array"]]).display.toList
        (.form [.symbol "not", .form [.symbol "array"]]) := by
      apply Reader.spells_call rfl (by decide) (Reader.spells_name (by decide) (by decide)
        (Reader.undelimited_of_all rfl) rfl)
      simp only [List.forall_mem_singleton]
      apply Reader.spells_call rfl (by decide) (Reader.spells_name (by decide) (by decide)
        (Reader.undelimited_of_all rfl) rfl)
      simp
    exact spelled.read_eq
  have succeeded : (evaluate host source .empty none clock).result = .ok (.boolean false) := by
    rw [evaluate_of_read accepted]
    rfl
  have priced := evaluate_charged_le accepted host .empty clock
  refine ⟨accepted, rfl, succeeded, ?_, ?_⟩
  · exact (priced.2.2.2 rfl _ succeeded).2 (by decide)
  · apply priced.2.2.1 _ 2 (by decide)
    intro key arguments clock exceeded
    nofun

end MeteredRules
