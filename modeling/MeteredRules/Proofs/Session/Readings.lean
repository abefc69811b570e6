import MeteredRules.Host.Basic
import MeteredRules.Proofs.Evaluation.Timeless
import MeteredRules.Session

/-!
# Readings of the clock

A computation takes the readings of the clock one after the other, and it depends on the readings
that it takes and on no others, in particular not on later ones. An answer can therefore be worked
out while time goes on: with the readings that are known, and again from the start once it takes one
more.
-/

namespace MeteredRules

variable {α β : Type}

namespace Clock

/-- Two clocks that stand at the same reading and agree on all readings before a given one. -/
structure AgreeUntil (last : Nat) (clock other : Clock) : Prop where
  taken_eq : other.taken = clock.taken
  reading_eq : ∀ count < last, other.reading count = clock.reading count

namespace AgreeUntil

variable {last later : Nat} {clock other : Clock}

theorem refl (last : Nat) (clock : Clock) : AgreeUntil last clock clock :=
  ⟨rfl, fun _ _ => rfl⟩

theorem mono (agree : AgreeUntil later clock other) (ordered : last ≤ later) :
    AgreeUntil last clock other :=
  ⟨agree.taken_eq, fun count before => agree.reading_eq count (Nat.lt_of_lt_of_le before ordered)⟩

/-- The clocks still agree after both have moved on to the same reading. -/
theorem advance (agree : AgreeUntil later clock other) (taken : Nat) :
    AgreeUntil later { clock with taken } { other with taken } :=
  ⟨rfl, agree.reading_eq⟩

end AgreeUntil

end Clock

/-! ## Actions -/

namespace Action

/--
From every clock, the action goes on to some later reading, and it does the same from all clocks
that agree until there.
-/
def Causal (action : Action α) : Prop :=
  ∀ clock : Clock, ∃ result last, clock.taken ≤ last ∧
    ∀ other, clock.AgreeUntil last other → action.run other = (result, { other with taken := last })

theorem causal_ofResult (result : Except Error α) : (ofResult result).Causal := by
  intro clock
  refine ⟨result, clock.taken, Nat.le_refl _, ?_⟩
  intro other agree
  rw [← agree.taken_eq]
  rfl

theorem causal_readClock : readClock.Causal := by
  intro clock
  refine ⟨.ok (clock.reading clock.taken), clock.taken + 1, Nat.le_succ _, ?_⟩
  intro other agree
  rw [← agree.reading_eq clock.taken (Nat.lt_succ_self _), ← agree.taken_eq]
  rfl

theorem Timeless.causal {action : Action α} (timeless : action.Timeless) : action.Causal := by
  rcases timeless with ⟨result, rfl⟩
  exact causal_ofResult result

theorem Causal.bind {first : Action α} {next : α → Action β} (causal : first.Causal)
    (rest : ∀ value, (next value).Causal) : (first >>= next).Causal := by
  intro clock
  rcases causal clock with ⟨error | value, last, ordered, same⟩
  · refine ⟨.error error, last, ordered, ?_⟩
    intro other agree
    rw [Error.run_bind, same other agree]
  · rcases rest value { clock with taken := last } with ⟨result, later, laterOrdered, sameAfter⟩
    refine ⟨result, later, Nat.le_trans ordered laterOrdered, ?_⟩
    intro other agree
    rw [Error.run_bind, same other (agree.mono laterOrdered)]
    exact sameAfter _ (agree.advance last)

end Action

namespace Primitive

theorem causal_relative (direction : Duration.Direction) (arguments : List Value) :
    (relative direction arguments).Causal := by
  match arguments with
  | [argument] =>
      apply (Action.causal_ofResult _).bind
      intro seconds
      apply Action.causal_readClock.bind
      intro present
      exact Action.causal_ofResult _
  | [] => exact Action.causal_ofResult _
  | _ :: _ :: _ => exact Action.causal_ofResult _

theorem causal_now (arguments : List Value) : (now.body arguments).Causal := by
  cases arguments with
  | nil =>
      apply Action.causal_readClock.bind
      intro present
      exact Action.causal_ofResult (.ok _)
  | cons argument arguments => exact Action.causal_ofResult _

theorem causal_call (primitive : Primitive) (arguments : List Value) :
    (primitive.call arguments).Causal := by
  cases clocked : primitive.readsClock with
  | false => exact (timeless_call clocked arguments).causal
  | true =>
      apply (Action.causal_ofResult _).bind
      intro _
      cases primitive with
      | now => exact causal_now arguments
      | ago => exact causal_relative .backward arguments
      | fromNow => exact causal_relative .forward arguments
      | _ => simp [readsClock] at clocked

end Primitive

/--
Functions of a host that depend on nothing but their arguments and the readings that they take.
-/
def Host.Causal (host : Host) : Prop :=
  ∀ key arguments, (host key arguments).Causal

theorem Host.causal_ofTable {table : List HostFunction}
    (each : ∀ entry ∈ table, ∀ arguments, (entry.function arguments).Causal) :
    (ofTable table).Causal := by
  intro key arguments
  unfold ofTable
  cases found : find? table key with
  | none => exact Action.causal_ofResult _
  | some entry => exact each entry (List.mem_of_find?_eq_some found) arguments

theorem Callable.causal_call {host : Host} (causal : host.Causal) (function : Callable)
    (arguments : List Value) : (function.call host arguments).Causal := by
  rw [call]
  fun_induction callWith host (.array arguments) function with
  | case1 items called ih => exact ih
  | case2 | case3 | case4 | case7 => exact Action.causal_ofResult _
  | case5 arguments primitive => exact primitive.causal_call arguments
  | case6 arguments id key => exact causal key arguments

/-! ## Evaluations -/

namespace Evaluation

/--
As for actions; the meter at the end is the same, too, and the value, if there is one, is good.
-/
def Causal (good : α → Prop) (computation : Evaluation α) : Prop :=
  ∀ (meter : Meter) (clock : Clock), ∃ result left last, Conforms good (fun _ => True) result ∧
    clock.taken ≤ last ∧ ∀ other, clock.AgreeUntil last other →
      computation.run ⟨meter, other⟩ = (result, ⟨left, { other with taken := last }⟩)

variable {good : α → Prop}

theorem causal_ofResult {result : Except Error α}
    (conforms : Conforms good (fun _ => True) result) : Causal good (ofResult result) := by
  intro meter clock
  refine ⟨result, meter, clock.taken, conforms, Nat.le_refl _, ?_⟩
  intro other agree
  rw [run_ofResult, ← agree.taken_eq]

theorem causal_ofAction {action : Action α} (causal : action.Causal) :
    Causal (fun _ => True) (ofAction action) := by
  intro meter clock
  rcases causal clock with ⟨result, last, ordered, same⟩
  refine ⟨result, meter, last, Conforms.any result, ordered, ?_⟩
  intro other agree
  rw [run_ofAction, same other agree]

theorem causal_charge : Causal (fun _ => True) charge := by
  intro meter clock
  refine ⟨meter.advance.check, meter.advance, clock.taken, Conforms.any _, Nat.le_refl _, ?_⟩
  intro other agree
  rw [run_charge, ← agree.taken_eq]

namespace Causal

theorem within {computation : Evaluation α} (node : Node) (causal : Causal good computation) :
    Causal good (Evaluation.within node computation) := by
  intro meter clock
  rcases causal meter clock with ⟨result, left, last, conforms, ordered, same⟩
  refine ⟨result.mapError (Error.within node), left, last, conforms.mapError _, ordered, ?_⟩
  intro other agree
  rw [run_within, same other agree]

theorem bind {final : β → Prop} {computation : Evaluation α} {next : α → Evaluation β}
    (causal : Causal good computation) (rest : ∀ value, good value → Causal final (next value)) :
    Causal final (computation >>= next) := by
  intro meter clock
  rcases causal meter clock with ⟨error | value, left, last, conforms, ordered, same⟩
  · refine ⟨.error error, left, last, trivial, ordered, ?_⟩
    intro other agree
    exact run_bind_error (same other agree) next
  · rcases rest value conforms left { clock with taken := last } with
      ⟨result, after, later, laterConforms, laterOrdered, sameAfter⟩
    refine ⟨result, after, later, laterConforms, Nat.le_trans ordered laterOrdered, ?_⟩
    intro other agree
    rw [run_bind_ok (same other (agree.mono laterOrdered))]
    exact sameAfter _ (agree.advance last)

end Causal

end Evaluation

theorem Scope.upholds_causal {scope : Scope} (causal : scope.host.Causal) :
    scope.Upholds (fun _ => Evaluation.Causal) (fun _ => True) where
  pure {_ _ value} valueGood := @Evaluation.causal_ofResult _ _ (.ok value) valueGood
  charge := Evaluation.causal_charge
  within := Evaluation.Causal.within
  bind := Evaluation.Causal.bind
  truth := trivial
  nil := trivial
  refusal error _ := @Evaluation.causal_ofResult _ _ (.error error) trivial
  call function arguments _ _ :=
    Evaluation.causal_ofAction (Callable.causal_call causal function arguments)

variable {host : Host} {clock other : Clock}

/--
Expressions have the same outcome by all clocks that agree until the last reading that they take.
-/
theorem Outcome.ofNodes_of_agreeUntil (causal : host.Causal) (environment : Environment)
    (limit : Option UInt64) (nodes : List Node)
    (agree : clock.AgreeUntil (ofNodes ⟨host, environment⟩ limit nodes clock).clock.taken other) :
    ofNodes ⟨host, environment⟩ limit nodes other =
      { ofNodes ⟨host, environment⟩ limit nodes clock with
        clock := { other with
          taken := (ofNodes ⟨host, environment⟩ limit nodes clock).clock.taken } } := by
  have evaluated : Evaluation.Causal (fun _ => True)
      (Node.evalProgram ⟨host, environment⟩ .nil nodes) := by
    apply Node.evalProgram_upholds (Scope.upholds_causal causal)
    · exact fun _ _ => trivial
    · exact fun _ _ => Evaluation.causal_ofResult (Conforms.any _)
    · trivial
  rcases evaluated (.ofLimit limit) clock with ⟨result, left, last, _, ordered, same⟩
  have ended := same clock (.refl last clock)
  simp only [ofNodes, ended] at agree ⊢
  rw [same other agree]

theorem Workspace.run_of_agreeUntil (causal : host.Causal) (workspace : Workspace) (source : String)
    (bindings : Environment) (limit : Option UInt64)
    (agree : clock.AgreeUntil (workspace.run host source bindings limit clock).clock.taken other) :
    workspace.run host source bindings limit other =
      { workspace.run host source bindings limit clock with
        clock := { other with
          taken := (workspace.run host source bindings limit clock).clock.taken } } := by
  unfold run at agree ⊢
  generalize workspace.compile source = compiled at agree ⊢
  cases compiled with
  | error error => simp [Outcome.ofError, ← agree.taken_eq]
  | ok program => exact Outcome.ofNodes_of_agreeUntil causal _ _ _ agree

namespace Session

variable {session : Session} {parse : Json.Parser} {line : String}

/-- A line has the same answer by all clocks that agree until the last reading that it takes. -/
theorem answer_of_agreeUntil (causal : host.Causal)
    (agree : clock.AgreeUntil (session.answer host parse clock line).clock.taken other) :
    session.answer host parse other line =
      { session.answer host parse clock line with
        clock := { other with taken := (session.answer host parse clock line).clock.taken } } := by
  unfold answer at agree ⊢
  generalize Line.read line = reading at agree ⊢
  cases reading with
  | blank => simp [← agree.taken_eq]
  | command command => simp [← agree.taken_eq]
  | expression source =>
      have same := Workspace.run_of_agreeUntil causal workspace source session.bindings
        session.limit agree
      simp only [runExpression, same]

/--
An answer with the first readings of a clock in place of all of them. If it takes no others then it
is the answer by this clock, and it takes no others once the readings suffice for the answer by the
clock.
-/
theorem answer_ofReadings (causal : host.Causal) {readings : List Instant} (fresh : clock.taken = 0)
    (shown : ∀ count (known : count < readings.length), clock.reading count = readings[count]) :
    ((session.answer host parse (.ofReadings readings) line).clock.taken ≤ readings.length →
      session.answer host parse clock line =
        { session.answer host parse (.ofReadings readings) line with
          clock := { clock with
            taken := (session.answer host parse (.ofReadings readings) line).clock.taken } }) ∧
    ((session.answer host parse clock line).clock.taken ≤ readings.length →
      (session.answer host parse (.ofReadings readings) line).clock.taken ≤ readings.length) := by
  have forth : Clock.AgreeUntil readings.length (.ofReadings readings) clock := by
    refine ⟨fresh, ?_⟩
    intro count known
    rw [shown count known]
    simp [Clock.ofReadings, known]
  have back : Clock.AgreeUntil readings.length clock (.ofReadings readings) :=
    ⟨forth.taken_eq.symm, fun count known => (forth.reading_eq count known).symm⟩
  constructor
  · intro enough
    exact answer_of_agreeUntil causal (forth.mono enough)
  · intro enough
    rw [answer_of_agreeUntil causal (back.mono enough)]
    exact enough

end Session

end MeteredRules
