import MeteredRules.Proofs.Evaluation.Quotation

/-!
# Instants in programs

An instant can stand in a program as a literal or as a call of the built-in function `time` on a
string. Both read the same texts, so the text that is written for an instant serves for both, as
long as its year is written without a sign. The call is evaluated like every call of a built-in
function on literals: one operation is charged, and nothing else is looked up than the function.
-/

namespace MeteredRules

/-! ## Calls on literals -/

section Literals

variable {scope : Scope} {machine : Machine} {clock after : Clock}

theorem Node.run_evalAll_literals (scope : Scope) (values : List Value) (machine : Machine) :
    (evalAll scope (values.map .atom)).run machine = (.ok values, machine) := by
  induction values with
  | nil => rfl
  | cons value values ih =>
      have first : ((Node.atom value).eval scope).run machine = (.ok value, machine) := by
        rw [Node.eval, Evaluation.run_pure]
      rw [List.map_cons, evalAll, Evaluation.run_bind_ok first, Evaluation.run_bind_ok ih]
      rfl

/-- A meter that counted nothing admits an operation unless its budget is zero. -/
theorem Meter.check_advance_ofLimit {limit : Option UInt64} (admitted : limit ≠ some 0) :
    (Meter.ofLimit limit).advance.check = .ok () := by
  cases limit with
  | none => rfl
  | some limit =>
      have enough : ¬limit < 1 := by
        rw [UInt64.lt_iff_toNat_lt]
        intro less
        apply admitted
        rw [Option.some_inj, ← UInt64.toNat_inj]
        exact Nat.lt_one_iff.mp less
      exact if_neg enough

/-- A call of a function on literals is the call of the function, for one operation. -/
theorem Outcome.ofNodes_call_literals {name : String} {function : Callable} {values : List Value}
    {result : Value} {limit : Option UInt64}
    (found : scope.resolveHead name = .ok (.callable function)) (admitted : limit ≠ some 0)
    (called : (function.call scope.host values).run clock = (.ok result, after)) :
    ofNodes scope limit [.form (.symbol name :: values.map .atom)] clock =
      ⟨.ok result, 1, after⟩ := by
  have charged : Evaluation.charge.run ⟨.ofLimit limit, clock⟩ =
      (.ok (), ⟨(Meter.ofLimit limit).advance, clock⟩) := by
    rw [Evaluation.run_charge, Meter.check_advance_ofLimit admitted]
  have head : (Node.evalHead scope (.symbol name)).run ⟨(Meter.ofLimit limit).advance, clock⟩ =
      (.ok (.callable function), ⟨(Meter.ofLimit limit).advance, clock⟩) := by
    rw [Node.evalHead, found, Evaluation.run_ofResult]
  have evaluated : ((Node.form (.symbol name :: values.map .atom)).eval scope).run
      ⟨.ofLimit limit, clock⟩ = (.ok result, ⟨(Meter.ofLimit limit).advance, after⟩) := by
    rw [Node.eval_form_cons, Evaluation.run_bind_ok charged, Evaluation.run_within,
      Evaluation.run_bind_ok head,
      Evaluation.run_bind_ok (Node.run_evalAll_literals scope values _), Scope.call,
      Evaluation.run_ofAction, called]
    rfl
  simp only [ofNodes, Node.evalProgram]
  rw [Evaluation.run_bind_ok evaluated]
  rfl

end Literals

/-! ## Instants -/

section Time

variable {instant : Instant}

theorem Instant.quote_not_mem_render (instant : Instant) : '\'' ∉ instant.render.toList := by
  intro quote
  rcases mem_render quote with digit | mark
  · simp at digit
  · revert mark
    decide

/-- A call of `time` on the text of an instant. -/
def Instant.call (instant : Instant) : Node :=
  .form (.symbol "time" :: [Value.string instant.render].map .atom)

theorem Instant.read_call (instant : Instant) :
    Reader.read .standard ("(time '" ++ instant.render ++ "')") = .ok [instant.call] := by
  have shown : instant.call.display = "(time '" ++ instant.render ++ "')" := by
    rw [← String.toList_inj]
    simp [Instant.call, Node.display, Node.displayArguments, Value.display]
  have literal : Reader.Spells .standard 1 (Node.atom (.string instant.render)).display.toList
      (.atom (.string instant.render)) := by
    apply Reader.spells_literal
    have readsBack := @Reader.read_display_string .standard _ instant.quote_not_mem_render
    rwa [String.ofList_toList] at readsBack
  have spelled : Reader.Spells .standard 0 instant.call.display.toList instant.call := by
    apply Reader.spells_call rfl (by decide) (Reader.spells_of_isName (by decide))
    simpa using literal
  rw [← shown]
  exact spelled.read_eq

theorem Callable.call_time (host : Host) {text : String}
    (isInstant : Instant.read? text.toList = some instant) :
    (Callable.builtin (.primitive .time)).call host [.string text] =
      .ofResult (.ok (.instant instant)) := by
  have converted : Conversion.toInstant text = .ok instant := by
    rw [Conversion.toInstant, isInstant]
  rw [call_primitive host rfl]
  change Primitive.give (Conversion.toInstant text) .instant = _
  rw [converted]
  rfl

end Time

/--
The text of an instant is read as this instant if its year is one of 0 to 9999, in a leap second as
well. Between the marks of a literal it is read as a source text for the instant, and a call of
`time` on it gives the instant for one operation, unless a function takes the place of `time`.
-/
theorem Instant.reads_back {instant : Instant} (early : 0 ≤ instant.date.year)
    (late : instant.date.year ≤ 9999) (host : Host) :
    read? instant.render.toList = some instant ∧
    (∀ options, Reader.read options ("#t\x7b" ++ instant.render ++ "\x7d") =
      .ok [.atom (.instant instant)]) ∧
    ∀ environment : Environment,
      (∀ function, environment.get? "time" ≠ some (.callable function)) →
      ∀ (limit : Option UInt64) (clock : Clock), limit ≠ some 0 →
        evaluate host ("(time '" ++ instant.render ++ "')") environment limit clock =
          ⟨.ok (.instant instant), 1, clock⟩ := by
  have readsBack := (read?_render_iff instant).mpr ⟨early, late⟩
  refine ⟨readsBack, ?_, ?_⟩
  · intro options
    have literal := (@Reader.read_display_instant_iff options _).mpr readsBack
    rwa [Value.display] at literal
  · intro environment unshadowed limit clock admitted
    rw [evaluate_of_read instant.read_call]
    apply Outcome.ofNodes_call_literals _ admitted
    · rw [Callable.call_time host readsBack]
      rfl
    · exact Scope.resolveHead_of_builtin (by decide) unshadowed

/-- A leap second at the end of a year is read back to the nanosecond. -/
theorem Instant.reads_back_leap :
    let instant : Instant := ⟨1483228799, 1500000000, by decide, by decide⟩
    let environment := Environment.empty.define "time" .nil
    instant.render = "2016-12-31T23:59:60.500Z" ∧ instant.date.year = 2016 ∧
    read? instant.render.toList = some instant ∧
    Reader.read ⟨true, 0⟩ ("#t\x7b" ++ instant.render ++ "\x7d") =
      .ok [.atom (.instant instant)] ∧
    evaluate (fun _ _ => .ofResult (.ok .nil)) ("(time '" ++ instant.render ++ "')") environment
      (some 1) (.still .epoch) = ⟨.ok (.instant instant), 1, .still .epoch⟩ := by
  intro instant environment
  have unshadowed : ∀ function, environment.get? "time" ≠ some (.callable function) := by
    intro function
    simp [environment, Environment.get?_define]
  have year : instant.date.year = 2016 := by decide
  rcases @reads_back instant (by omega) (by omega) (fun _ _ => .ofResult (.ok .nil)) with
    ⟨readsBack, literal, call⟩
  exact ⟨by decide +kernel, year, readsBack, literal _,
    call environment unshadowed (some 1) _ (by decide)⟩

end MeteredRules
