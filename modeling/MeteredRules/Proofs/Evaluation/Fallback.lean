import MeteredRules.Proofs.Evaluation.Run
import MeteredRules.Proofs.Node.Induction
import MeteredRules.Proofs.Reader.Spelling

/-!
# What evaluation need not be prepared for

Evaluation answers to every tree, also to those that the reader never builds: forms without a head,
functions in the place of special forms, and special forms with numbers of arguments that they do
not accept. What it does with these trees is collected here as a fallback, and the evaluation of an
expression is restated with the fallback as a parameter. All trees that were read are well formed,
at every depth, and their evaluation visits nothing but their parts; so it is the same whatever the
fallback is.
-/

namespace MeteredRules

/-! ## Well-formed expressions -/

/-- Every form has a head, and every special form is one of the four with an accepted arity. -/
inductive Node.WellFormed : Node → Prop where
  | atom (value : Value) : WellFormed (.atom value)
  | symbol (name : String) : WellFormed (.symbol name)
  | form {head : Node} {arguments : List Node}
      (parts : ∀ element ∈ head :: arguments, WellFormed element) :
      WellFormed (.form (head :: arguments))
  | special {form : SpecialForm} {arguments : List Node}
      (accepted : form.arity.accepts arguments.length = true)
      (parts : ∀ argument ∈ arguments, WellFormed argument) :
      WellFormed (.special (.form form) arguments)

namespace Reader

theorem Single.wellFormed {comments : Bool} {text rest : List Char} {node : Node}
    (single : Single comments text node rest) : node.WellFormed := by
  cases single with
  | string | instant => exact .atom _
  | word _ _ _ _ means =>
      cases means with
      | integer | float | keyword => exact .atom _
      | symbol => exact .symbol _

theorem Formed.wellFormed {elements : List Node} {node : Node} (formed : Formed elements node)
    (parts : ∀ element ∈ elements, element.WellFormed) : node.WellFormed := by
  cases formed with
  | special accepted =>
      simp only [List.forall_mem_cons] at parts
      exact .special accepted parts.2
  | call => exact .form parts

theorem Sequence.wellFormed {options : Options} {depth : Nat} {text rest : List Char}
    {nodes : List Node} (derived : Sequence options depth text nodes rest) :
    ∀ node ∈ nodes, node.WellFormed := by
  induction derived with
  | done => simp
  | single _ item _ ih =>
      simp only [List.forall_mem_cons]
      exact ⟨item.wellFormed, ih⟩
  | form _ _ _ formed _ ihContent ihMore =>
      simp only [List.forall_mem_cons]
      exact ⟨formed.wellFormed ihContent, ihMore⟩

end Reader

/-! ## Evaluation with a fallback -/

/-- What is done with the expressions that are not well formed. -/
structure Fallback where
  /-- With a form that has no head. -/
  emptyForm : Evaluation Value
  /-- With a function in the place of a special form. -/
  function : Builtin → List Node → Evaluation Value
  /-- With a conjunction of no operands. -/
  emptyAnd : Evaluation Value
  /-- With a disjunction of no operands. -/
  emptyOr : Evaluation Value
  /-- With a choice that does not have three parts. -/
  ite : List Node → Evaluation Value
  /-- With tests and consequents that do not come in pairs. -/
  cond : List Node → Evaluation Value

/-- What evaluation does with them. -/
def Fallback.standard : Fallback where
  emptyForm := .ofResult (.error (.refuse .emptyForm))
  function builtin _ := .ofResult (.error (.fail (.notSpecialForm (.function builtin))))
  emptyAnd := pure (.boolean true)
  emptyOr := pure .nil
  ite arguments := .ofResult (.error (.arity 3 arguments.length none))
  cond arguments := .ofResult (.error (.arity (arguments.length + 1) arguments.length none))

namespace Node

mutual

/-- The value of an expression, where expressions that are not well formed are left to a fallback. -/
def evalWith (fallback : Fallback) (scope : Scope) : Node → Evaluation Value
  | .atom value => pure value
  | .symbol name => .ofResult (scope.resolve name)
  | .form elements => do
    Evaluation.charge
    Evaluation.within (.form elements) <|
      match elements with
      | [] => fallback.emptyForm
      | head :: arguments => do
        let callee ← match head with
          | .symbol name => .ofResult (scope.resolveHead name)
          | _ => head.evalWith fallback scope
        let values ← evalAllWith fallback scope arguments
        scope.call callee values
  | .special operation arguments => do
    Evaluation.charge
    Evaluation.within (.special operation arguments) <|
      match operation, arguments with
      | .form .and, [] => fallback.emptyAnd
      | .form .and, arguments => evalAndWith fallback scope (.boolean true) arguments
      | .form .or, [] => fallback.emptyOr
      | .form .or, arguments => evalOrWith fallback scope .nil arguments
      | .form .ite, [condition, consequent, alternative] => do
        if (← condition.evalWith fallback scope).isTruthy then consequent.evalWith fallback scope
        else alternative.evalWith fallback scope
      | .form .ite, arguments => fallback.ite arguments
      | .form .cond, arguments =>
        if arguments.length % 2 = 0 then evalCondWith fallback scope arguments
        else fallback.cond arguments
      | .function builtin, arguments => fallback.function builtin arguments

/-- The values of the arguments of a form, from left to right. -/
def evalAllWith (fallback : Fallback) (scope : Scope) : List Node → Evaluation (List Value)
  | [] => pure []
  | node :: nodes => do
    let value ← node.evalWith fallback scope
    let values ← evalAllWith fallback scope nodes
    return value :: values

/-- The first false value of the operands, or the last value. -/
def evalAndWith (fallback : Fallback) (scope : Scope) (last : Value) :
    List Node → Evaluation Value
  | [] => pure last
  | node :: nodes => do
    let value ← node.evalWith fallback scope
    if value.isTruthy then evalAndWith fallback scope value nodes else return value

/-- The first true value of the operands, or the last value. -/
def evalOrWith (fallback : Fallback) (scope : Scope) (last : Value) :
    List Node → Evaluation Value
  | [] => pure last
  | node :: nodes => do
    let value ← node.evalWith fallback scope
    if value.isTruthy then return value else evalOrWith fallback scope value nodes

/-- The value after the first test that is true, or `nil`. -/
def evalCondWith (fallback : Fallback) (scope : Scope) : List Node → Evaluation Value
  | test :: consequent :: rest => do
    if (← test.evalWith fallback scope).isTruthy then consequent.evalWith fallback scope
    else evalCondWith fallback scope rest
  | _ => pure .nil

end

/-- Evaluates expressions in order; the result is the last value, or a given one if there is none. -/
def evalProgramWith (fallback : Fallback) (scope : Scope) (last : Value) :
    List Node → Evaluation Value
  | [] => pure last
  | node :: nodes => do
    let value ← node.evalWith fallback scope
    evalProgramWith fallback scope value nodes

end Node

/-- Evaluates expressions with a fresh meter and a fallback. -/
def Outcome.ofNodesWith (fallback : Fallback) (scope : Scope) (limit : Option UInt64)
    (nodes : List Node) (clock : Clock) : Outcome :=
  let (result, machine) :=
    (Node.evalProgramWith fallback scope .nil nodes).run ⟨Meter.ofLimit limit, clock⟩
  ⟨result, machine.meter.count, machine.clock⟩

/-! ## Where the fallback does not matter -/

namespace Node

variable {fallback : Fallback} {scope : Scope}

theorem evalAllWith_eq {nodes : List Node}
    (parts : ∀ node ∈ nodes, node.evalWith fallback scope = node.eval scope) :
    evalAllWith fallback scope nodes = evalAll scope nodes := by
  induction nodes with
  | nil => rfl
  | cons node nodes ih =>
      simp only [List.forall_mem_cons] at parts
      simp only [evalAllWith, evalAll, parts.1, ih parts.2]

theorem evalAndWith_eq {nodes : List Node}
    (parts : ∀ node ∈ nodes, node.evalWith fallback scope = node.eval scope) (last : Value) :
    evalAndWith fallback scope last nodes = evalAnd scope last nodes := by
  induction nodes generalizing last with
  | nil => rfl
  | cons node nodes ih =>
      simp only [List.forall_mem_cons] at parts
      simp only [evalAndWith, evalAnd, parts.1, ih parts.2]

theorem evalOrWith_eq {nodes : List Node}
    (parts : ∀ node ∈ nodes, node.evalWith fallback scope = node.eval scope) (last : Value) :
    evalOrWith fallback scope last nodes = evalOr scope last nodes := by
  induction nodes generalizing last with
  | nil => rfl
  | cons node nodes ih =>
      simp only [List.forall_mem_cons] at parts
      simp only [evalOrWith, evalOr, parts.1, ih parts.2]

theorem evalCondWith_eq :
    ∀ {nodes : List Node}, (∀ node ∈ nodes, node.evalWith fallback scope = node.eval scope) →
      evalCondWith fallback scope nodes = evalCond scope nodes
  | [], _ => rfl
  | [_], _ => rfl
  | test :: consequent :: rest, parts => by
      simp only [List.forall_mem_cons] at parts
      simp only [evalCondWith, evalCond, parts.1, parts.2.1, evalCondWith_eq parts.2.2]

theorem evalWith_form_cons {head : Node} {arguments : List Node}
    (parts : ∀ element ∈ head :: arguments, element.evalWith fallback scope = element.eval scope) :
    (form (head :: arguments)).evalWith fallback scope = (form (head :: arguments)).eval scope := by
  simp only [List.forall_mem_cons] at parts
  simp only [evalWith, eval_form_cons, evalAllWith_eq parts.2]
  cases head with
  | symbol name => rfl
  | _ => simp only [parts.1, evalHead]

/-- A special form evaluates alike if its arity is accepted or the fallback is the standard one. -/
theorem evalWith_special {form : SpecialForm} {arguments : List Node}
    (usable : fallback = .standard ∨ form.arity.accepts arguments.length = true)
    (parts : ∀ argument ∈ arguments, argument.evalWith fallback scope = argument.eval scope) :
    (special (.form form) arguments).evalWith fallback scope =
      (special (.form form) arguments).eval scope := by
  simp only [eval_special]
  cases form with
  | and =>
      cases arguments with
      | nil =>
          rcases usable with rfl | accepted
          · rfl
          · simp [SpecialForm.arity, Arity.accepts] at accepted
      | cons argument arguments => simp only [evalWith, evalAndWith_eq parts, evalSpecial]
  | or =>
      cases arguments with
      | nil =>
          rcases usable with rfl | accepted
          · rfl
          · simp [SpecialForm.arity, Arity.accepts] at accepted
      | cons argument arguments => simp only [evalWith, evalOrWith_eq parts, evalSpecial]
  | ite =>
      match arguments with
      | [condition, consequent, alternative] =>
          simp only [List.forall_mem_cons] at parts
          simp only [evalWith, parts.1, parts.2.1, parts.2.2.1, evalSpecial]
      | [] | [_] | [_, _] | _ :: _ :: _ :: _ :: _ =>
          rcases usable with rfl | accepted
          · rfl
          · simp [SpecialForm.arity, Arity.accepts] at accepted
  | cond =>
      simp only [evalWith, evalCondWith_eq parts, evalSpecial]
      split
      · rfl
      · rename_i unpaired
        rcases usable with rfl | accepted
        · rfl
        · simp [SpecialForm.arity, Arity.accepts, unpaired] at accepted

/-- An expression evaluates alike if it is well formed or the fallback is the standard one. -/
theorem evalWith_eq (node : Node) (usable : fallback = .standard ∨ node.WellFormed) :
    node.evalWith fallback scope = node.eval scope := by
  induction node using Node.induction with
  | atom value => simp only [evalWith, eval]
  | symbol name => simp only [evalWith, eval]
  | form elements parts =>
      rcases usable with rfl | wellFormed
      · cases elements with
        | nil => rfl
        | cons head arguments =>
            apply evalWith_form_cons
            exact fun element elementMem => parts element elementMem (.inl rfl)
      · cases wellFormed with
        | form partsWellFormed =>
            apply evalWith_form_cons
            exact fun element elementMem =>
              parts element elementMem (.inr (partsWellFormed element elementMem))
  | special operation arguments parts =>
      rcases usable with rfl | wellFormed
      · cases operation with
        | form form =>
            apply evalWith_special (.inl rfl)
            exact fun argument argumentMem => parts argument argumentMem (.inl rfl)
        | function builtin => rfl
      · cases wellFormed with
        | special accepted partsWellFormed =>
            apply evalWith_special (.inr accepted)
            exact fun argument argumentMem =>
              parts argument argumentMem (.inr (partsWellFormed argument argumentMem))

theorem evalProgramWith_eq {nodes : List Node}
    (usable : fallback = .standard ∨ ∀ node ∈ nodes, node.WellFormed) (last : Value) :
    evalProgramWith fallback scope last nodes = evalProgram scope last nodes := by
  induction nodes generalizing last with
  | nil => rfl
  | cons node nodes ih =>
      simp only [List.forall_mem_cons] at usable
      have first : node.evalWith fallback scope = node.eval scope :=
        evalWith_eq node (usable.imp_right And.left)
      simp only [evalProgramWith, evalProgram, first, ih (usable.imp_right And.right)]

end Node

/--
The standard fallback is what evaluation does with any expressions. With every other fallback, the
outcome of a program that was read is the same: its evaluation never falls back.
-/
theorem Outcome.ofNodesWith_eq {options : Reader.Options} {source : String} {nodes : List Node}
    (accepted : Reader.read options source = .ok nodes) (scope : Scope) (limit : Option UInt64)
    (clock : Clock) :
    (∀ anyNodes : List Node,
      ofNodesWith .standard scope limit anyNodes clock = ofNodes scope limit anyNodes clock) ∧
    ∀ fallback : Fallback,
      ofNodesWith fallback scope limit nodes clock = ofNodes scope limit nodes clock := by
  refine ⟨?_, ?_⟩
  · intro anyNodes
    simp only [ofNodesWith, Node.evalProgramWith_eq (.inl rfl)]
    rfl
  · intro fallback
    have wellFormed := (Reader.sequence_of_read accepted).wellFormed
    simp only [ofNodesWith, Node.evalProgramWith_eq (.inr wellFormed)]
    rfl

/--
A fallback to `nil` changes the outcome of a conjunction without operands, but not the one of the
text `(and x)`.
-/
theorem Outcome.ofNodesWith_eq_and :
    let nil : Evaluation Value := pure .nil
    let fallback : Fallback := ⟨nil, fun _ _ => nil, nil, nil, fun _ => nil, fun _ => nil⟩
    let scope : Scope := ⟨fun _ _ => .ofResult (.ok .nil), Environment.empty.define "x" (.int 1)⟩
    let nodes := [Node.special (.form .and) [.symbol "x"]]
    let clock := Clock.still .epoch
    Reader.read .standard "(and x)" = .ok nodes ∧
      (ofNodesWith fallback scope none [.special (.form .and) []] clock).result = .ok .nil ∧
      (ofNodes scope none [.special (.form .and) []] clock).result = .ok (.boolean true) ∧
      (ofNodesWith fallback scope none nodes clock).result = .ok (.int 1) := by
  intro nil fallback scope nodes clock
  have accepted : Reader.read .standard "(and x)" = .ok nodes := Reader.read_eq_of_display rfl rfl
  refine ⟨accepted, rfl, rfl, ?_⟩
  rw [(ofNodesWith_eq accepted scope none clock).2 fallback]
  rfl

end MeteredRules
