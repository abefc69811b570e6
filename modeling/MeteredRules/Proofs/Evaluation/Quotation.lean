import MeteredRules.Proofs.Builtin.Call
import MeteredRules.Proofs.Evaluation.Cost
import MeteredRules.Proofs.Evaluation.Lookup
import MeteredRules.Proofs.Reader.Literal
import MeteredRules.Proofs.Value.Parts

/-!
# Displayed values as programs

The display of a value is a program for this value. Read as an expression, it is the quotation of
the value: a call of the built-in function `array` for each array, and literals otherwise. The depth
of a value is the depth of the forms of its quotation, so that the limit of the reader is a limit on
how deep arrays are nested. Evaluated, a quotation gives back the value and charges one operation
for each array.
-/

namespace MeteredRules

/-! ## Quotations -/

namespace Value

mutual

/-- The expression that the display of a value spells. -/
def quotation : Value → Node
  | .array items => .form (.symbol "array" :: quotations items)
  | value => .atom value

/-- The quotations of a list of values. -/
def quotations : List Value → List Node
  | [] => []
  | item :: items => item.quotation :: quotations items

end

theorem mem_quotations {node : Node} {items : List Value} :
    node ∈ quotations items ↔ ∃ item ∈ items, item.quotation = node := by
  induction items with
  | nil => simp [quotations]
  | cons item items ih => simp [quotations, ih, eq_comm]

mutual

theorem formCount_quotation : ∀ value : Value, value.quotation.formCount = value.arrayCount
  | .array items => by
      simp [quotation, Node.formCount, Node.totalFormCount, arrayCount,
        totalFormCount_quotations items]
  | .number _ | .string _ | .boolean _ | .nil | .instant _ | .callable _ => rfl

theorem totalFormCount_quotations :
    ∀ items : List Value, Node.totalFormCount (quotations items) = totalArrayCount items
  | [] => rfl
  | item :: items => by
      simp [quotations, Node.totalFormCount, totalArrayCount, formCount_quotation item,
        totalFormCount_quotations items]

end

mutual

theorem specialCount_quotation : ∀ value : Value, value.quotation.specialCount = 0
  | .array items => by
      simp [quotation, Node.specialCount, Node.totalSpecialCount,
        totalSpecialCount_quotations items]
  | .number _ | .string _ | .boolean _ | .nil | .instant _ | .callable _ => rfl

theorem totalSpecialCount_quotations :
    ∀ items : List Value, Node.totalSpecialCount (quotations items) = 0
  | [] => rfl
  | item :: items => by
      simp [quotations, Node.totalSpecialCount, specialCount_quotation item,
        totalSpecialCount_quotations items]

end

mutual

theorem display_quotation : ∀ value : Value, value.quotation.display = value.display
  | .array items => by
      simp [quotation, Node.display, display, displayArguments_quotations items]
  | .number _ | .string _ | .boolean _ | .nil | .instant _ | .callable _ => rfl

theorem displayArguments_quotations :
    ∀ items : List Value, Node.displayArguments (quotations items) = displayItems items
  | [] => rfl
  | item :: items => by
      simp [quotations, Node.displayArguments, displayItems, display_quotation item,
        displayArguments_quotations items]

end

end Value

/-! ## Reading a quotation -/

/--
Values with a notation of their own: integers, strings without a quote, instants that are read from
their text, the literal words, and arrays of such values.
-/
inductive Value.Notated : Value → Prop where
  | nil : Notated .nil
  | boolean (truth : Bool) : Notated (.boolean truth)
  | int (value : Int64) : Notated (.int value)
  | string {text : String} (noQuote : '\'' ∉ text.toList) : Notated (.string text)
  | instant {moment : Instant}
      (readsBack : Instant.read? moment.render.toList = some moment) : Notated (.instant moment)
  | array {items : List Value} (parts : ∀ item ∈ items, Notated item) : Notated (.array items)

namespace Reader

variable {options : Options} {depth : Nat}

theorem Keyword.undelimited {comments : Bool} {word : List Char} {value : Value}
    (isKeyword : Keyword word value) : Undelimited comments word := by
  cases isKeyword with
  | true | false | nil => cases comments <;> exact undelimited_of_all rfl

theorem read_display_keyword {word : List Char} {value : Value} (isKeyword : Keyword word value) :
    read options value.display = .ok [.atom value] := by
  simp only [isKeyword.display_eq]
  apply read_word _ _ isKeyword.undelimited (.keyword isKeyword)
  · cases isKeyword <;> decide
  · cases isKeyword <;> decide

/-- A literal that is read back from its display is spelled by it. -/
theorem spells_literal {value : Value}
    (readsBack : read options value.display = .ok [.atom value]) :
    Spells options depth (Node.atom value).display.toList (.atom value) := by
  rcases (sequence_of_read readsBack).exists_single with ⟨start, middle, single⟩
  apply single.spells_display
  simpa [Node.literals] using readsBack

theorem spells_array :
    Spells options depth (Node.symbol "array").display.toList (.symbol "array") := by
  apply spells_name
  · decide
  · decide
  · cases options.comments <;> exact undelimited_of_all rfl
  · rfl

/-- A notated value is spelled by its display as long as the reader allows its depth. -/
theorem spells_quotation {value : Value} (notated : value.Notated)
    (shallow : depth + value.depth ≤ options.maxDepth) :
    Spells options depth value.quotation.display.toList value.quotation := by
  induction notated generalizing depth with
  | nil => exact spells_literal (read_display_keyword .nil)
  | boolean truth =>
      cases truth with
      | false => exact spells_literal (read_display_keyword .false)
      | true => exact spells_literal (read_display_keyword .true)
  | int value => exact spells_literal (read_display_int value)
  | @string text noQuote =>
      have readsBack := @read_display_string options _ noQuote
      simp only [String.ofList_toList] at readsBack
      exact spells_literal readsBack
  | instant readsBack => exact spells_literal (read_display_instant_iff.mpr readsBack)
  | @array items parts ih =>
      simp only [Value.depth] at shallow
      simp only [Value.quotation]
      apply spells_call rfl (by omega) spells_array
      intro argument argumentMem
      rcases Value.mem_quotations.mp argumentMem with ⟨item, itemMem, rfl⟩
      -- An item stands one form deeper and is itself at least one array less deep.
      apply ih item itemMem
      have nested := Value.depth_le_of_mem itemMem
      omega

theorem read_display_notated {value : Value} (notated : value.Notated)
    (shallow : value.depth ≤ options.maxDepth) :
    read options value.display = .ok [value.quotation] := by
  have spelled : Spells options 0 value.quotation.display.toList value.quotation :=
    spells_quotation notated (by omega)
  have readsBack := spelled.read_eq
  rwa [value.display_quotation] at readsBack

end Reader

/-! ## Evaluating a quotation -/

open Evaluation (Yields)

namespace Value

variable {scope : Scope}

mutual

/-- A quotation gives back the value, unless a function takes the place of the built-in `array`. -/
theorem yields_eval_quotation
    (unshadowed : ∀ function, scope.environment.get? "array" ≠ some (.callable function)) :
    ∀ value : Value, Yields none (· = value) (fun _ => False) (value.quotation.eval scope)
  | .array items => by
      have found : scope.resolveHead "array" = .ok (.callable (.builtin (.primitive .array))) :=
        Scope.resolveHead_of_builtin (by decide) unshadowed
      simp only [quotation, Node.eval_form_cons, Node.evalHead, found]
      apply Yields.bind (Evaluation.yields_charge nofun)
      intro _ _
      apply Yields.within _ fun _ impossible => impossible
      apply Yields.bind (Evaluation.yields_pure rfl)
      rintro callee rfl
      apply Yields.bind (yields_evalAll_quotations unshadowed items)
      rintro values rfl
      simp only [Scope.call, Callable.call_array]
      exact Evaluation.yields_ofAction (Action.conforms_pure rfl)
  | .number _ | .string _ | .boolean _ | .nil | .instant _ | .callable _ => by
      simp only [quotation, Node.eval]
      exact Evaluation.yields_pure rfl

theorem yields_evalAll_quotations
    (unshadowed : ∀ function, scope.environment.get? "array" ≠ some (.callable function)) :
    ∀ items : List Value,
      Yields none (· = items) (fun _ => False) (Node.evalAll scope (quotations items))
  | [] => by
      simp only [quotations, Node.evalAll]
      exact Evaluation.yields_pure rfl
  | item :: items => by
      simp only [quotations, Node.evalAll]
      apply Yields.bind (yields_eval_quotation unshadowed item)
      rintro value rfl
      apply Yields.bind (yields_evalAll_quotations unshadowed items)
      rintro values rfl
      exact Evaluation.yields_pure rfl

end

end Value

theorem Outcome.ofNodes_quotation {scope : Scope}
    (unshadowed : ∀ function, scope.environment.get? "array" ≠ some (.callable function))
    (value : Value) (clock : Clock) :
    (ofNodes scope none [value.quotation] clock).result = .ok value := by
  have yields : Yields none (· = value) (fun _ => False)
      (Node.evalProgram scope .nil [value.quotation]) := by
    apply Yields.bind (Value.yields_eval_quotation unshadowed value)
    rintro given rfl
    exact Evaluation.yields_pure rfl
  exact (yields ⟨Meter.ofLimit none, clock⟩ rfl).1.eq_ok

/--
A notated value whose arrays are nested at most thirty-two deep is the result of its own display,
in every environment that does not bind `array` to a function. This charges one operation for each
array, as far as the counter shows.
-/
theorem evaluate_display {value : Value} (notated : value.Notated) (shallow : value.depth ≤ 32)
    (host : Host) {environment : Environment}
    (unshadowed : ∀ function, environment.get? "array" ≠ some (.callable function))
    (clock : Clock) :
    (evaluate host value.display environment none clock).result = .ok value ∧
    (evaluate host value.display environment none clock).charged.toNat =
      min value.arrayCount (UInt64.size - 1) ∧
    (value.arrayCount < UInt64.size →
      (evaluate host value.display environment none clock).charged.toNat = value.arrayCount) := by
  have accepted : Reader.read .standard value.display = .ok [value.quotation] :=
    Reader.read_display_notated notated shallow
  have succeeded : (Outcome.ofNodes ⟨host, environment⟩ none [value.quotation] clock).result =
      .ok value := Outcome.ofNodes_quotation unshadowed value clock
  have plain : Node.totalSpecialCount [value.quotation] = 0 := by
    simp [Node.totalSpecialCount, value.specialCount_quotation]
  have charged := Outcome.toNat_charged_eq plain succeeded
  simp only [Node.totalFormCount, value.formCount_quotation, Nat.add_zero] at charged
  simp only [evaluate_of_read accepted]
  refine ⟨succeeded, charged, ?_⟩
  intro countable
  omega

/--
An array that holds an empty array and a literal of each kind is the result of its own display,
although `array` is bound to a number.
-/
theorem evaluate_display_mixed :
    let value := Value.array [.array [], .string "a b", .int (-3), .nil, .boolean true,
      .instant .epoch]
    let environment := Environment.empty.define "array" (.int 1)
    let outcome := evaluate (fun _ _ => .ofResult (.ok .nil)) value.display environment none
      (.still .epoch)
    value.display = "(array (array) 'a b' -3 nil true #t\x7b1970-01-01T00:00:00Z\x7d)" ∧
      value.Notated ∧ value.depth = 2 ∧ outcome.result = .ok value ∧
      outcome.charged.toNat = 2 := by
  intro value environment outcome
  have notated : value.Notated := by
    apply Value.Notated.array
    simp only [List.forall_mem_cons, List.not_mem_nil, false_implies, implies_true, and_true]
    refine ⟨.array (by simp), .string (by decide), .int _, .nil, .boolean _, .instant ?_⟩
    exact (Instant.read?_render_iff _).mpr (by decide)
  have unshadowed : ∀ function, environment.get? "array" ≠ some (.callable function) := by
    intro function
    simp [environment, Environment.get?_define, Value.int]
  rcases evaluate_display notated (by decide) (fun _ _ => .ofResult (.ok .nil)) unshadowed
    (.still .epoch) with ⟨succeeded, charged, _⟩
  exact ⟨by decide +kernel, notated, rfl, succeeded, charged⟩

end MeteredRules
