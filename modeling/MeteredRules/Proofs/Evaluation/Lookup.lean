import MeteredRules.Program
import MeteredRules.Proofs.Node.Use
import MeteredRules.Proofs.Reader.Spelling

/-!
# Which bindings matter

Two scopes with the same host in which every use of a name gives the same result evaluate an
expression in the same way: not only to the same value, but as the same computation. What a use
gives depends on the binding of its name alone, and not even on that in two cases. A name of a
special form is refused as an operand whatever it is bound to, and the reader puts none of them at
the head of a form. A built-in function at the head of a form gives way only to a binding that is a
function.
-/

namespace MeteredRules

/-! ## Evaluation reaches the bindings through lookups -/

namespace Node

variable {left right : Scope}

theorem evalAll_congr {nodes : List Node} (parts : ∀ node ∈ nodes, node.eval left = node.eval right) :
    evalAll left nodes = evalAll right nodes := by
  induction nodes with
  | nil => rfl
  | cons node nodes ih =>
      simp only [List.forall_mem_cons] at parts
      simp only [evalAll, parts.1, ih parts.2]

theorem evalAnd_congr {nodes : List Node} (parts : ∀ node ∈ nodes, node.eval left = node.eval right)
    (last : Value) : evalAnd left last nodes = evalAnd right last nodes := by
  induction nodes generalizing last with
  | nil => rfl
  | cons node nodes ih =>
      simp only [List.forall_mem_cons] at parts
      simp only [evalAnd, parts.1, ih parts.2]

theorem evalOr_congr {nodes : List Node} (parts : ∀ node ∈ nodes, node.eval left = node.eval right)
    (last : Value) : evalOr left last nodes = evalOr right last nodes := by
  induction nodes generalizing last with
  | nil => rfl
  | cons node nodes ih =>
      simp only [List.forall_mem_cons] at parts
      simp only [evalOr, parts.1, ih parts.2]

theorem evalCond_congr :
    ∀ {nodes : List Node}, (∀ node ∈ nodes, node.eval left = node.eval right) →
      evalCond left nodes = evalCond right nodes
  | [], _ => rfl
  | [_], _ => rfl
  | test :: consequent :: rest, parts => by
      simp only [List.forall_mem_cons] at parts
      simp only [evalCond, parts.1, parts.2.1, evalCond_congr parts.2.2]

theorem evalSpecial_congr (operation : Operation) {arguments : List Node}
    (parts : ∀ argument ∈ arguments, argument.eval left = argument.eval right) :
    evalSpecial left operation arguments = evalSpecial right operation arguments := by
  fun_cases evalSpecial left operation arguments with
  | case1 => exact evalAnd_congr parts _
  | case2 => exact evalOr_congr parts _
  | case3 condition consequent alternative =>
      simp only [List.forall_mem_cons] at parts
      simp only [evalSpecial, parts.1, parts.2.1, parts.2.2.1]
  | case4 => simp [evalSpecial]
  | case5 _ paired => simp [evalSpecial, paired, evalCond_congr parts]
  | case6 _ unpaired => simp [evalSpecial, unpaired]
  | case7 => rfl

theorem evalHead_congr {head : Node}
    (same : ∀ use ∈ head.headUses, left.lookup use = right.lookup use)
    (part : (∀ use ∈ head.uses, left.lookup use = right.lookup use) →
      head.eval left = head.eval right) :
    head.evalHead left = head.evalHead right := by
  cases head with
  | symbol name =>
      have found : left.resolveHead name = right.resolveHead name :=
        same (.head name) (by simp [headUses])
      simp only [evalHead, found]
  | _ => exact part same

end Node

theorem Scope.call_congr {left right : Scope} (sameHost : left.host = right.host) (callee : Value)
    (arguments : List Value) : left.call callee arguments = right.call callee arguments := by
  cases callee with
  | callable function => simp only [call, sameHost]
  | _ => rfl

namespace Node

variable {left right : Scope}

/-- Scopes in which every use of a name gives the same result evaluate an expression alike. -/
theorem eval_congr (sameHost : left.host = right.host) (node : Node)
    (same : ∀ use ∈ node.uses, left.lookup use = right.lookup use) :
    node.eval left = node.eval right := by
  induction node using Node.induction with
  | atom value => simp only [eval]
  | symbol name =>
      have found : left.resolve name = right.resolve name :=
        same (.operand name) (by simp [uses])
      simp only [eval, found]
  | form elements parts =>
      cases elements with
      | nil => simp only [eval_form_nil]
      | cons head arguments =>
          simp only [List.forall_mem_cons] at parts
          simp only [uses_form_cons, List.forall_mem_append] at same
          have sameArguments : evalAll left arguments = evalAll right arguments := by
            apply evalAll_congr
            intro argument argumentMem
            apply parts.2 argument argumentMem
            intro use useMem
            exact same.2 use (mem_allUses.mpr ⟨argument, argumentMem, useMem⟩)
          simp only [eval_form_cons, evalHead_congr same.1 parts.1, sameArguments,
            Scope.call_congr sameHost]
  | special operation arguments parts =>
      have sameArguments : ∀ argument ∈ arguments, argument.eval left = argument.eval right := by
        intro argument argumentMem
        apply parts argument argumentMem
        intro use useMem
        apply same
        simp only [uses]
        exact mem_allUses.mpr ⟨argument, argumentMem, useMem⟩
      simp only [eval_special, evalSpecial_congr operation sameArguments]

theorem evalProgram_congr (sameHost : left.host = right.host) {nodes : List Node}
    (same : ∀ use ∈ allUses nodes, left.lookup use = right.lookup use) (last : Value) :
    evalProgram left last nodes = evalProgram right last nodes := by
  induction nodes generalizing last with
  | nil => rfl
  | cons node nodes ih =>
      simp only [allUses, List.forall_mem_append] at same
      simp only [evalProgram, eval_congr sameHost node same.1, ih same.2]

end Node

theorem Outcome.ofNodes_congr {left right : Scope} (sameHost : left.host = right.host)
    {nodes : List Node} (same : ∀ use ∈ Node.allUses nodes, left.lookup use = right.lookup use)
    (limit : Option UInt64) (clock : Clock) :
    ofNodes left limit nodes clock = ofNodes right limit nodes clock := by
  simp only [ofNodes, Node.evalProgram_congr sameHost same]

/-! ## What a use of a name depends on -/

namespace Scope

variable {left right : Scope} {name : String}

theorem resolve_congr (same : SpecialForm.ofName? name = none →
    left.environment.get? name = right.environment.get? name) :
    left.resolve name = right.resolve name := by
  simp only [resolve]
  cases reserved : SpecialForm.ofName? name with
  | some form => rfl
  | none => simp only [same reserved]

/-- At the head of a form a built-in function is shadowed by functions only. -/
theorem resolveHead_of_builtin {scope : Scope} {function : Builtin}
    (found : Builtin.ofName? name = some function)
    (unshadowed : ∀ bound, scope.environment.get? name ≠ some (.callable bound)) :
    scope.resolveHead name = .ok (.callable (.builtin function)) := by
  unfold resolveHead
  split
  · rename_i bound isBound
    exact absurd isBound (unshadowed bound)
  · simp only [found]

theorem resolveHead_congr (same : left.environment.get? name = right.environment.get? name) :
    left.resolveHead name = right.resolveHead name := by
  have sameValue : left.resolve name = right.resolve name := resolve_congr fun _ => same
  simp only [resolveHead, same, sameValue]

end Scope

namespace Reader

/-- No form that was derived has the name of a special form at its head. -/
theorem Sequence.ofName?_of_head {options : Options} {depth : Nat} {text rest : List Char}
    {nodes : List Node} (derived : Sequence options depth text nodes rest) {name : String}
    (used : Use.head name ∈ Node.allUses nodes) : SpecialForm.ofName? name = none := by
  induction derived with
  | done => simp [Node.allUses] at used
  | single _ item _ ih =>
      simp only [Node.allUses, List.mem_append] at used
      rcases used with inItem | inRest
      · cases item with
        | string | instant => simp [Node.uses] at inItem
        | word _ _ _ _ means => cases means <;> simp [Node.uses] at inItem
      · exact ih inRest
  | form _ _ _ formed _ ihContent ihMore =>
      simp only [Node.allUses, List.mem_append] at used
      rcases used with inForm | inRest
      · cases formed with
        | special accepted =>
            apply ihContent
            simp only [Node.uses] at inForm
            simp [Node.allUses, inForm]
        | @call head arguments notSpecial =>
            simp only [Node.uses_form_cons, List.mem_append] at inForm
            rcases inForm with atHead | inArguments
            · cases head with
              | symbol other =>
                  obtain rfl : name = other := by simpa [Node.headUses] using atHead
                  cases found : SpecialForm.ofName? name with
                  | none => rfl
                  | some form =>
                      have isSpecial := notSpecial form
                      simp [SpecialForm.name_of_ofName? found] at isSpecial
              | _ =>
                  apply ihContent
                  simp only [Node.allUses, List.mem_append]
                  exact .inl atHead
            · apply ihContent
              simp only [Node.allUses, List.mem_append]
              exact .inr inArguments
      · exact ihMore inRest

end Reader

/--
Two environments that a program cannot tell apart: except for the names of special forms, they bind
every operand alike, and every head too, unless it names a built-in function that neither of them
shadows by a function.
-/
structure Environment.AgreeOn (nodes : List Node) (left right : Environment) : Prop where
  operand : ∀ name, Use.operand name ∈ Node.allUses nodes → SpecialForm.ofName? name = none →
    left.get? name = right.get? name
  head : ∀ name, Use.head name ∈ Node.allUses nodes → SpecialForm.ofName? name = none →
    left.get? name = right.get? name ∨
      ((Builtin.ofName? name).isSome ∧
        (∀ function, left.get? name ≠ some (.callable function)) ∧
        ∀ function, right.get? name ≠ some (.callable function))

theorem Environment.AgreeOn.lookup_eq {options : Reader.Options} {source : String}
    {nodes : List Node} {left right : Environment} (agree : AgreeOn nodes left right)
    (accepted : Reader.read options source = .ok nodes) (host : Host) :
    ∀ use ∈ Node.allUses nodes,
      (Scope.mk host left).lookup use = (Scope.mk host right).lookup use := by
  intro use used
  cases use with
  | operand name => exact Scope.resolve_congr (agree.operand name used)
  | head name =>
      -- A head is not checked for the names of special forms; that the program was read does it.
      have unreserved : SpecialForm.ofName? name = none :=
        (Reader.sequence_of_read accepted).ofName?_of_head used
      rcases agree.head name used unreserved with same | ⟨isBuiltin, leftFree, rightFree⟩
      · exact Scope.resolveHead_congr same
      · obtain ⟨function, found⟩ := Option.isSome_iff_exists.mp isBuiltin
        have leftFound : (Scope.mk host left).resolveHead name = _ :=
          Scope.resolveHead_of_builtin found leftFree
        have rightFound : (Scope.mk host right).resolveHead name = _ :=
          Scope.resolveHead_of_builtin found rightFree
        simp only [Scope.lookup, leftFound, rightFound]

theorem SpecialForm.ne_name_of_ofName?_eq_none {name : String} (unreserved : ofName? name = none)
    (form : SpecialForm) : form.name ≠ name := by
  rintro rfl
  simp [form.ofName?_name] at unreserved

/--
A program that was read gives the same outcome in all environments that it cannot tell apart. In
particular no binding of the name of a special form has any influence.
-/
theorem Outcome.ofNodes_eq_of_agreeOn {options : Reader.Options} {source : String}
    {nodes : List Node} (accepted : Reader.read options source = .ok nodes) (host : Host)
    (limit : Option UInt64) (clock : Clock) :
    (∀ left right : Environment, left.AgreeOn nodes right →
      ofNodes ⟨host, left⟩ limit nodes clock = ofNodes ⟨host, right⟩ limit nodes clock) ∧
    ∀ (environment : Environment) (form : SpecialForm) (value : Value),
      ofNodes ⟨host, environment.define form.name value⟩ limit nodes clock =
        ofNodes ⟨host, environment⟩ limit nodes clock := by
  have congruent : ∀ left right : Environment, Environment.AgreeOn nodes left right →
      ofNodes ⟨host, left⟩ limit nodes clock = ofNodes ⟨host, right⟩ limit nodes clock := by
    intro left right agree
    apply ofNodes_congr
    · rfl
    · exact agree.lookup_eq accepted host
  refine ⟨fun left right agree => congruent left right agree, ?_⟩
  intro environment form value
  have same : ∀ name, SpecialForm.ofName? name = none →
      (environment.define form.name value).get? name = environment.get? name := by
    intro name unreserved
    simp [Environment.get?_define, form.ne_name_of_ofName?_eq_none unreserved]
  apply congruent
  constructor
  · intro name _ unreserved
    exact same name unreserved
  · intro name _ unreserved
    exact .inl (same name unreserved)

/--
The program `(first xs)` does not notice that its head is bound to a number, nor that a name of a
special form is bound to a function.
-/
theorem Outcome.ofNodes_eq_of_agreeOn_first :
    let nodes := [Node.form [.symbol "first", .symbol "xs"]]
    let right := Environment.empty.define "xs" (.array [.int 1])
    let left := (right.define "first" (.int 2)).define "if" (.callable (.host "f" "f"))
    let host : Host := fun _ _ => .ofResult (.ok .nil)
    let clock := Clock.still .epoch
    Reader.read .standard "(first xs)" = .ok nodes ∧ left.AgreeOn nodes right ∧
      left.get? "first" ≠ right.get? "first" ∧ left.get? "if" ≠ right.get? "if" ∧
      (ofNodes ⟨host, right⟩ none nodes clock).result = .ok (.int 1) ∧
      (ofNodes ⟨host, left⟩ none nodes clock).result = .ok (.int 1) := by
  intro nodes right left host clock
  have spelled : Reader.Spells .standard 0
      (Node.form [.symbol "first", .symbol "xs"]).display.toList
      (.form [.symbol "first", .symbol "xs"]) := by
    apply Reader.spells_call rfl (by decide)
    · exact Reader.spells_name (by decide) (by decide) (Reader.undelimited_of_all rfl) rfl
    · simp only [List.forall_mem_singleton]
      exact Reader.spells_name (by decide) (by decide) (Reader.undelimited_of_all rfl) rfl
  have accepted : Reader.read .standard "(first xs)" = .ok nodes := spelled.read_eq
  have agree : left.AgreeOn nodes right := by
    constructor
    · intro name used _
      obtain rfl : name = "xs" := by simpa [nodes, Node.allUses, Node.uses] using used
      simp [left, right, Environment.get?_define]
    · intro name used _
      obtain rfl : name = "first" := by simpa [nodes, Node.allUses, Node.uses] using used
      refine .inr ⟨by decide, ?_, ?_⟩
      · intro function
        simp [left, Environment.get?_define, Value.int]
      · intro function
        simp [right, Environment.get?_define]
  have same := (ofNodes_eq_of_agreeOn accepted host none clock).1 left right agree
  have result : (ofNodes ⟨host, right⟩ none nodes clock).result = .ok (.int 1) := rfl
  refine ⟨accepted, agree, ?_, ?_, result, ?_⟩
  · simp [left, right, Environment.get?_define]
  · simp [left, right, Environment.get?_define]
  · rw [same]
    exact result

end MeteredRules
