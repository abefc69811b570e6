import MeteredRules.Proofs.Builtin.Arithmetic
import MeteredRules.Proofs.Instant.Shift

/-!
# Shifts by whole seconds

The functions `from-now` and `ago` take one reading of the clock and move it by a number of seconds.
An integer passes three checks on the way: its sign is taken, it must be a duration, and the moved
instant must be representable. The range of the durations is far wider than that of the instants, so
that only the last check decides whether there is an answer: it is the instant that lies as far from
the reading, if there is one.
-/

namespace MeteredRules

open Number (InRange inRange_iff)

/-! ## Durations of whole seconds -/

namespace Duration

open Instant (Representable)

/-- A number of seconds as one to be added. -/
def Direction.signed : Direction → Int → Int
  | .forward, seconds => seconds
  | .backward, seconds => -seconds

variable {base shifted : Instant} {direction : Direction} {seconds : Int64}

theorem Direction.natAbs_signed (direction : Direction) (seconds : Int) :
    (direction.signed seconds).natAbs = seconds.natAbs := by
  cases direction with
  | forward => rfl
  | backward => exact Int.natAbs_neg seconds

theorem nanoseconds?_of_le (short : seconds.toInt.natAbs ≤ mostSeconds) :
    nanoseconds? direction (.int seconds) =
      some (direction.signed seconds.toInt * 1000000000) := by
  have bounds : -mostSeconds ≤ seconds.toInt ∧ seconds.toInt ≤ mostSeconds := by omega
  simp only [nanoseconds?, if_pos bounds]
  cases direction <;> rfl

theorem nanoseconds?_of_lt (long : mostSeconds < seconds.toInt.natAbs) :
    nanoseconds? direction (.int seconds) = none := by
  have outside : ¬(-mostSeconds ≤ seconds.toInt ∧ seconds.toInt ≤ mostSeconds) := by omega
  simp only [nanoseconds?, if_neg outside]

/-- Two representable seconds are never further apart than the longest duration. -/
theorem natAbs_le_of_isShift (shift : base.IsShift (direction.signed seconds.toInt) shifted) :
    seconds.toInt.natAbs ≤ mostSeconds := by
  have apart := shift.seconds
  have here := base.inRange
  have there := shifted.inRange
  rw [← direction.natAbs_signed, mostSeconds]
  omega

theorem offset_eq_ok_iff (ordinary : base.isLeap = false) :
    offset base direction (.int seconds) = .ok shifted ↔
      base.IsShift (direction.signed seconds.toInt) shifted := by
  by_cases short : seconds.toInt.natAbs ≤ mostSeconds
  · rw [← Instant.move?_eq_some_iff ordinary]
    simp only [offset, nanoseconds?_of_le short]
    cases base.move? (direction.signed seconds.toInt * 1000000000) <;> simp
  · -- A number that is no duration leads to no instant, so that nothing is lost by the check.
    simp only [offset, nanoseconds?_of_lt (Int.not_le.mp short)]
    constructor
    · intro given
      cases given
    · intro shift
      exact absurd (natAbs_le_of_isShift shift) short

/-- What is refused: a number that is no duration, or else one that leads out of the instants. -/
def refusal (seconds : Int64) : Refusal :=
  if mostSeconds < seconds.toInt.natAbs then .durationRange (.int seconds)
  else .instantRange (.int seconds)

theorem offset_eq_error (ordinary : base.isLeap = false)
    (outside : ¬Representable (base.seconds + direction.signed seconds.toInt)) :
    offset base direction (.int seconds) = .error (.refuse (refusal seconds)) := by
  by_cases long : mostSeconds < seconds.toInt.natAbs
  · simp only [offset, nanoseconds?_of_lt long, refusal, if_pos long]
  · have unmoved : base.move? (direction.signed seconds.toInt * 1000000000) = none := by
      rw [Option.eq_none_iff_forall_ne_some]
      intro shifted moved
      exact outside ((Instant.move?_eq_some_iff ordinary).mp moved).representable
    simp only [offset, nanoseconds?_of_le (Int.not_lt.mp long), unmoved, refusal, if_neg long]

/-- Every number but the least has a negation, which leads as far in the other direction. -/
theorem toInt_neg_of_ne_minValue (notLeast : seconds ≠ Int64.minValue) :
    (-seconds).toInt = -seconds.toInt := by
  have inRange := inRange_iff.mp ((Number.inRange_negation_iff seconds).mpr notLeast)
  rw [Int64.toInt_neg]
  exact Int.bmod_eq_of_le_mul_two (by omega) (by omega)

end Duration

/-! ## Calls -/

/--
An action that takes one reading of the clock and gives the instant a number of seconds away from it
if that is representable, and refuses the number otherwise.
-/
structure Action.Shifts (action : Action Value) (clock : Clock) (direction : Duration.Direction)
    (seconds : Int64) : Prop where
  exact : Instant.Representable (clock.read.1.seconds + direction.signed seconds.toInt) →
    ∃ shifted, clock.read.1.IsShift (direction.signed seconds.toInt) shifted ∧
      action.run clock = (.ok (.instant shifted), clock.read.2)
  refused : ¬Instant.Representable (clock.read.1.seconds + direction.signed seconds.toInt) →
    action.run clock = (.error (.refuse (Duration.refusal seconds)), clock.read.2)

namespace Duration

variable {primitive : Primitive} {direction : Direction} {clock : Clock} {seconds : Int64}

theorem run_call_relative (host : Host) (defined : primitive.body = Primitive.relative direction)
    (accepted : primitive.arity.accepts 1 = true) (seconds : Int64) (clock : Clock) :
    ((Callable.builtin (.primitive primitive)).call host [.int seconds]).run clock =
      ((offset clock.read.1 direction (.int seconds)).map .instant, clock.read.2) := by
  rw [Callable.call_primitive host accepted, defined]
  rfl

theorem run_call_relative_eq_ok_iff (host : Host)
    (defined : primitive.body = Primitive.relative direction)
    (accepted : primitive.arity.accepts 1 = true) (ordinary : clock.read.1.isLeap = false)
    {value : Value} :
    (((Callable.builtin (.primitive primitive)).call host [.int seconds]).run clock).1 =
        .ok value ↔
      ∃ shifted, clock.read.1.IsShift (direction.signed seconds.toInt) shifted ∧
        value = .instant shifted := by
  simp only [run_call_relative host defined accepted, ← offset_eq_ok_iff ordinary]
  cases offset clock.read.1 direction (.int seconds) <;> simp [Except.map, eq_comm]

theorem shifts_call (host : Host) (defined : primitive.body = Primitive.relative direction)
    (accepted : primitive.arity.accepts 1 = true) (ordinary : clock.read.1.isLeap = false)
    (seconds : Int64) :
    ((Callable.builtin (.primitive primitive)).call host [.int seconds]).Shifts clock direction
      seconds := by
  refine ⟨?_, ?_⟩
  · intro representable
    rcases Instant.exists_isShift ordinary representable with ⟨shifted, shift⟩
    refine ⟨shifted, shift, ?_⟩
    rw [run_call_relative host defined accepted, (offset_eq_ok_iff ordinary).mpr shift]
    rfl
  · intro outside
    rw [run_call_relative host defined accepted, offset_eq_error ordinary outside]
    rfl

theorem computes_ofUnit (host : Host) {unit : DurationUnit}
    (defined : primitive.body = Primitive.duration unit)
    (accepted : primitive.arity.accepts 1 = true) (amount : Int64) :
    ((Callable.builtin (.primitive primitive)).call host [.int amount]).Computes
      (amount.toInt * unit.length) (InRange (amount.toInt * unit.length)) .duration := by
  have called : (Callable.builtin (.primitive primitive)).call host [.int amount] =
      Primitive.give (ofUnit unit (.int amount)) .number := by
    rw [Callable.call_primitive host accepted, defined]
    rfl
  rw [called]
  refine ⟨?_, ?_⟩
  · intro inRange
    rcases Number.exists_fit? inRange with ⟨result, fits, result_eq⟩
    refine ⟨result, result_eq, ?_⟩
    rw [ofUnit, fits]
    rfl
  · intro outside
    rw [ofUnit, Number.fit?_eq_none outside]
    rfl

end Duration

/--
At a reading outside of leap seconds `from-now` gives the instant a number of seconds later and
`ago` the one as many seconds earlier, at the same nanosecond, where instants reach that far, and
both refuse the number elsewhere. Counting back a number that has a negation is counting its
negation forward, and what was counted forward is counted back. A number of days, hours, minutes or
seconds is given in seconds exactly, unless that overflows.
-/
theorem Callable.shifts_whole_seconds {clock : Clock} (ordinary : clock.read.1.isLeap = false)
    (host : Host) (seconds : Int64) :
    let call := fun (primitive : Primitive) (number : Int64) =>
      (Callable.builtin (.primitive primitive)).call host [.int number]
    (call .fromNow seconds).Shifts clock .forward seconds ∧
    (call .ago seconds).Shifts clock .backward seconds ∧
    (seconds ≠ Int64.minValue → ∀ value,
      ((call .ago seconds).run clock).1 = .ok value ↔
        ((call .fromNow (-seconds)).run clock).1 = .ok value) ∧
    (∀ shifted, ((call .fromNow seconds).run clock).1 = .ok (.instant shifted) →
      ∀ later : Clock, later.read.1 = shifted →
        ((call .ago seconds).run later).1 = .ok (.instant clock.read.1)) ∧
    ∀ unit ∈ [(Primitive.days, 86400), (.hours, 3600), (.minutes, 60), (.seconds, 1)],
      ∀ amount : Int64, (call unit.1 amount).Computes (amount.toInt * unit.2)
        (InRange (amount.toInt * unit.2)) .duration := by
  intro call
  refine ⟨?_, ?_, ?_, ?_, ?_⟩
  · exact Duration.shifts_call host rfl rfl ordinary seconds
  · exact Duration.shifts_call host rfl rfl ordinary seconds
  · intro notLeast value
    rw [Duration.run_call_relative_eq_ok_iff host rfl rfl ordinary,
      Duration.run_call_relative_eq_ok_iff host rfl rfl ordinary,
      Duration.toInt_neg_of_ne_minValue notLeast]
    rfl
  · intro shifted forward later reads
    rcases (Duration.run_call_relative_eq_ok_iff host rfl rfl ordinary).mp forward with
      ⟨_, shift, ⟨⟩⟩
    have ordinaryLater : later.read.1.isLeap = false := by
      rw [reads, shift.isLeap_eq, ordinary]
    rw [Duration.run_call_relative_eq_ok_iff host rfl rfl ordinaryLater, reads]
    exact ⟨clock.read.1, shift.reverse, rfl⟩
  · intro unit listed amount
    simp only [List.mem_cons, List.not_mem_nil, or_false] at listed
    rcases listed with rfl | rfl | rfl | rfl
    · exact @Duration.computes_ofUnit .days host .days rfl rfl amount
    · exact @Duration.computes_ofUnit .hours host .hours rfl rfl amount
    · exact @Duration.computes_ofUnit .minutes host .minutes rfl rfl amount
    · exact @Duration.computes_ofUnit .seconds host .seconds rfl rfl amount

/-- A second before the last one there is room for one second, but for neither two nor the least. -/
theorem Callable.shifts_whole_seconds_last :
    let base : Instant := ⟨8210266876798, 999999999, by decide, by decide⟩
    let last : Instant := ⟨8210266876799, 999999999, by decide, by decide⟩
    let clock := Clock.still base
    let call := fun (primitive : Primitive) (number : Int64) =>
      (Callable.builtin (.primitive primitive)).call (fun _ _ => .ofResult (.ok .nil)) [.int number]
    clock.read.1.isLeap = false ∧
    (∃ shifted, base.IsShift 1 shifted ∧
      (call .fromNow 1).run clock = (.ok (.instant shifted), clock.read.2)) ∧
    ((call .ago 1).run (.still last)).1 = .ok (.instant base) ∧
    (((call .ago (-1)).run clock).1 = .ok (.instant last) ↔
      ((call .fromNow 1).run clock).1 = .ok (.instant last)) ∧
    (call .fromNow 2).run clock = (.error (.refuse (.instantRange (.int 2))), clock.read.2) ∧
    (call .ago Int64.minValue).run clock =
      (.error (.refuse (.durationRange (.int Int64.minValue))), clock.read.2) ∧
    call .days 106751991167301 = .ofResult (.error (.fail (.overflow .duration))) := by
  intro base last clock call
  have ordinary : clock.read.1.isLeap = false := by decide
  have shifts := @shifts_whole_seconds clock ordinary (fun _ _ => .ofResult (.ok .nil))
  have forward : ((call .fromNow 1).run clock).1 = .ok (.instant last) :=
    (Duration.run_call_relative_eq_ok_iff _ rfl rfl ordinary).mpr ⟨last, ⟨rfl, rfl⟩, rfl⟩
  refine ⟨ordinary, (shifts 1).1.exact (by decide), ?_, ?_, ?_, ?_, ?_⟩
  · exact (shifts 1).2.2.2.1 last forward (.still last) rfl
  · exact (shifts (-1)).2.2.1 (by decide) (.instant last)
  · exact (shifts 2).1.refused (by decide)
  · exact (shifts Int64.minValue).2.1.refused (by decide)
  · exact ((shifts 1).2.2.2.2 (.days, 86400) (by decide) 106751991167301).overflow (by decide)

end MeteredRules
