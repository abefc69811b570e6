import Mathlib.Data.List.DropRight
import MeteredRules.Host.Basic
import MeteredRules.Proofs.Session.Line

/-!
# The history of a session

The state of a session is a function of what the lines that were answered so far mean. Its bindings
are those that were loaded since they were last removed, a later one of a name in place of an
earlier one; its budget is the last that was set; and values are printed as JSON after an odd number
of toggles. All other lines leave the state alone, whether they succeed or fail. A session ends with
its farewell, at a line that quits it or where its input ends.
-/

namespace MeteredRules

namespace Line

variable {parse : Json.Parser}

/-- The lines that have no effect on the state of a session. -/
inductive IsInert (parse : Json.Parser) : Line → Prop
  | blank : IsInert parse .blank
  | expression (source : String) : IsInert parse (.expression source)
  | unknown (name : String) : IsInert parse (.command (.unknown name))
  | listBindings : IsInert parse (.command .listBindings)
  | help : IsInert parse (.command .help)
  | showLimit : IsInert parse (.command .showLimit)
  | badLimit : IsInert parse (.command .badLimit)
  | failedLoad {text : String} {error : Error}
      (failed : Environment.ofJsonText parse text = .error error) :
      IsInert parse (.command (.load text))

theorem IsInert.ne_quit {line : Line} (inert : line.IsInert parse) : line ≠ .command .quit := by
  rintro rfl
  cases inert

end Line

namespace Session

/-! ## The state as a function of the history -/

variable {host : Host} {parse : Json.Parser} {clock left : Clock} {lines : List String}
  {line : String} {history : List Line} {meant : Line} {session : Session} {printed : List String}

theorem finished_answer_iff : (session.answer host parse clock line).finished ↔
    Line.read line = .command .quit := by
  rw [answer]
  cases Line.read line with
  | blank => simp
  | command command => simp
  | expression source => simp

/-! ## Sessions line by line -/

/-- Some lines have left a state and a clock, from which all that follows is answered. -/
def Stands (host : Host) (parse : Json.Parser) (clock : Clock) (lines : List String)
    (session : Session) (left : Clock) (printed : List String) : Prop :=
  ∀ rest ending, transcript host parse clock (lines ++ rest) ending =
    (session.answerAll host parse left ending rest).after printed

theorem Transcript.after_after (first second : List String) (transcript : Transcript) :
    (transcript.after second).after first = transcript.after (first ++ second) := by
  simp [Transcript.after]

/-- Each line that does not end the session leads on to where its answer leaves it. -/
theorem Stands.next (stands : Stands host parse clock lines session left printed)
    (goesOn : Line.read line ≠ .command .quit) :
    Stands host parse clock (lines ++ [line]) (session.answer host parse left line).session
      (session.answer host parse left line).clock
      (printed ++ (session.answer host parse left line).output) := by
  intro rest ending
  rw [List.append_assoc, List.singleton_append, stands (line :: rest), answerAll]
  have unfinished : ¬(session.answer host parse left line).finished := by
    rwa [finished_answer_iff]
  simp only [unfinished, Bool.false_eq_true, if_false]
  rw [Transcript.after_after]

/-- The line that shows what an expression gave. -/
def resultLine (session : Session) : Except Error Value → String
  | .ok value => session.valueLine value
  | .error error => errorLine error

/-- What can follow some lines that have left a state and a clock. -/
structure Following (host : Host) (parse : Json.Parser) (clock : Clock) (lines : List String)
    (session : Session) (left : Clock) (printed : List String) : Prop where
  stands : Stands host parse clock lines session left printed
  inert : ∀ line meant, Line.Means line meant → meant.IsInert parse →
    ∃ after shown, Stands host parse clock (lines ++ [line]) session after (printed ++ shown)
  expression : ∀ line source, Line.Means line (.expression source) →
    Stands host parse clock (lines ++ [line]) session
      (workspace.run host source session.bindings session.limit left).clock
      (printed ++
        [session.resultLine (workspace.run host source session.bindings session.limit left).result])
  quit : ∀ line, Line.Means line (.command .quit) → ∀ rest ending,
    transcript host parse clock (lines ++ line :: rest) ending = ⟨printed ++ [farewell], false⟩
  noMore : ∀ ending, transcript host parse clock lines ending = ending.transcript.after printed

theorem session_answer_of_isInert (inert : (Line.read line).IsInert parse) :
    (session.answer host parse clock line).session = session := by
  rw [answer]
  cases reads : Line.read line with
  | blank => rfl
  | expression source => rfl
  | command command =>
      rw [reads] at inert
      cases inert with
      | failedLoad failed => simp [runCommand, failed]
      | unknown | listBindings | help | showLimit | badLimit => rfl

theorem answer_of_expression {source : String} (reads : Line.read line = .expression source) :
    session.answer host parse clock line =
      ⟨session, (workspace.run host source session.bindings session.limit clock).clock,
        [session.resultLine
          (workspace.run host source session.bindings session.limit clock).result], false⟩ := by
  rw [answer, reads]
  rfl

theorem answer_of_quit (reads : Line.read line = .command .quit) :
    session.answer host parse clock line = ⟨session, clock, [farewell], true⟩ := by
  rw [answer, reads]
  rfl

theorem Stands.following (stands : Stands host parse clock lines session left printed) :
    Following host parse clock lines session left printed where
  stands := stands
  inert := by
    intro line meant means inert
    rw [← Line.read_eq_iff] at means
    subst means
    have next := stands.next inert.ne_quit
    rw [session_answer_of_isInert inert] at next
    exact ⟨_, _, next⟩
  expression := by
    intro line source means
    rw [← Line.read_eq_iff] at means
    have goesOn : Line.read line ≠ .command .quit := by simp [means]
    have next := stands.next goesOn
    rwa [answer_of_expression means] at next
  quit := by
    intro line means rest ending
    rw [← Line.read_eq_iff] at means
    rw [stands (line :: rest), answerAll]
    simp only [answer_of_quit means]
    rfl
  noMore := by
    intro ending
    rw [← List.append_nil lines, stands []]
    rfl

end Session

end MeteredRules
