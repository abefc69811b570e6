import MeteredRules.Proofs.Builtin.Arithmetic

/-!
# Division of integers

The machine divides toward zero. A quotient that was rounded up is lowered by one, and a remainder
that has not the sign of the divisor is raised by it. The two corrections look at different signs,
that of the dividend and that of the remainder, but where there is a remainder these are the same.
So both corrections are made in the same cases, and they give a quotient to the floor and its
remainder without leaving 64 bits.
-/

namespace MeteredRules

open Number (InRange signsDiffer truncated? floorQuotient? floorRemainder?)

/-! ## Division of integers of any size -/

/-- A quotient to the floor and its remainder. -/
structure FloorDivision (dividend divisor quotient remainder : Int) : Prop where
  identity : dividend = quotient * divisor + remainder
  small : remainder.natAbs < divisor.natAbs
  sign : remainder = 0 ∨ remainder.sign = divisor.sign

namespace FloorDivision

variable {dividend divisor quotient remainder : Int}

theorem eq_fdiv (division : FloorDivision dividend divisor quotient remainder) :
    quotient = dividend.fdiv divisor := by
  rcases division with ⟨identity, small, sign⟩
  have arranged : remainder + divisor * quotient = dividend := by
    rw [identity, Int.mul_comm, Int.add_comm]
  rcases Int.lt_trichotomy divisor 0 with negative | zero | positive
  · have bounds : divisor < remainder ∧ remainder ≤ 0 := by
      rw [Int.sign_eq_neg_one_of_neg negative, Int.sign_eq_neg_one_iff_neg] at sign
      omega
    exact ((Int.fdiv_fmod_unique' negative).mpr ⟨arranged, bounds⟩).1.symm
  · omega
  · have bounds : 0 ≤ remainder ∧ remainder < divisor := by
      rw [Int.sign_eq_one_of_pos positive, Int.sign_eq_one_iff_pos] at sign
      omega
    exact ((Int.fdiv_fmod_unique positive).mpr ⟨arranged, bounds⟩).1.symm

end FloorDivision

/-- Whatever the dividend, the remainder to the floor is smaller than the divisor. -/
theorem natAbs_fmod_lt (dividend : Int) {divisor : Int} (nonzero : divisor ≠ 0) :
    (dividend.fmod divisor).natAbs < divisor.natAbs := by
  rcases Int.lt_or_gt_of_ne nonzero with negative | positive
  · have bounds : divisor < dividend.fmod divisor ∧ dividend.fmod divisor ≤ 0 :=
      ((Int.fdiv_fmod_unique' negative).mp ⟨rfl, rfl⟩).2
    omega
  · have bounds : 0 ≤ dividend.fmod divisor ∧ dividend.fmod divisor < divisor :=
      ((Int.fdiv_fmod_unique positive).mp ⟨rfl, rfl⟩).2
    omega

section Truncated

variable {dividend divisor : Int}

theorem sign_eq_of_neg_iff {left right : Int} (leftNonzero : left ≠ 0) (rightNonzero : right ≠ 0)
    (same : left < 0 ↔ right < 0) : left.sign = right.sign := by
  by_cases negative : left < 0
  · rw [Int.sign_eq_neg_one_of_neg negative, Int.sign_eq_neg_one_of_neg (same.mp negative)]
  · rw [Int.sign_eq_one_of_pos (by omega), Int.sign_eq_one_of_pos (by omega)]

theorem natAbs_tmod_lt (dividend : Int) (nonzero : divisor ≠ 0) :
    (dividend.tmod divisor).natAbs < divisor.natAbs := by
  rw [Int.natAbs_tmod]
  exact Nat.mod_lt _ (Int.natAbs_pos.mpr nonzero)

/-- A remainder toward zero has the sign of the dividend. -/
theorem tmod_neg_iff (inexact : dividend.tmod divisor ≠ 0) :
    dividend.tmod divisor < 0 ↔ dividend < 0 := by
  have sign := Int.sign_tmod dividend divisor
  rw [if_neg (mt Int.tmod_eq_zero_of_dvd inexact)] at sign
  rw [← Int.sign_eq_neg_one_iff_neg, sign, Int.sign_eq_neg_one_iff_neg]

theorem floorDivision_corrected (nonzero : divisor ≠ 0) (inexact : dividend.tmod divisor ≠ 0)
    (differ : ¬(dividend < 0 ↔ divisor < 0)) :
    FloorDivision dividend divisor (dividend.tdiv divisor - 1)
      (dividend.tmod divisor + divisor) := by
  have identity := Int.tdiv_mul_add_tmod dividend divisor
  have small := natAbs_tmod_lt dividend nonzero
  have sign := tmod_neg_iff inexact
  refine ⟨?_, by omega, .inr (sign_eq_of_neg_iff (by omega) nonzero (by omega))⟩
  rw [Int.sub_mul, Int.one_mul]
  omega

theorem floorDivision_truncated (nonzero : divisor ≠ 0)
    (same : dividend.tmod divisor ≠ 0 → (dividend < 0 ↔ divisor < 0)) :
    FloorDivision dividend divisor (dividend.tdiv divisor) (dividend.tmod divisor) := by
  refine ⟨(Int.tdiv_mul_add_tmod dividend divisor).symm, natAbs_tmod_lt dividend nonzero, ?_⟩
  by_cases inexact : dividend.tmod divisor = 0
  · exact .inl inexact
  · have sign := (tmod_neg_iff inexact).trans (same inexact)
    exact .inr (sign_eq_of_neg_iff inexact nonzero sign)

/-- An inexact quotient is smaller than the dividend. -/
theorem natAbs_tdiv_lt (inexact : dividend.tmod divisor ≠ 0) (nonzero : divisor ≠ 0) :
    (dividend.tdiv divisor).natAbs < dividend.natAbs := by
  have rest : dividend.natAbs % divisor.natAbs ≠ 0 := by
    rwa [← Int.natAbs_tmod, Int.natAbs_ne_zero]
  rw [Int.natAbs_tdiv]
  apply Nat.div_lt_self
  · apply Nat.pos_of_ne_zero
    intro zero
    rw [zero, Nat.zero_mod] at rest
    exact rest rfl
  · have notOne : divisor.natAbs ≠ 1 := by
      intro one
      rw [one, Nat.mod_one] at rest
      exact rest rfl
    omega

end Truncated

/-! ## Division of 64-bit integers -/

namespace Number

/-- A division with a result: not one by zero, and not one of the least integer by `-1`. -/
def IsDivision (dividend divisor : Int) : Prop :=
  divisor ≠ 0 ∧ ¬(dividend = Int64.minValue.toInt ∧ divisor = -1)

instance (dividend divisor : Int) : Decidable (IsDivision dividend divisor) :=
  inferInstanceAs (Decidable (_ ∧ _))

/-- The operations of a division, with its corrections, are exact in 64 bits. -/
structure DividesExactly (dividend divisor : Int64) : Prop where
  quotient : (dividend / divisor).toInt = dividend.toInt.tdiv divisor.toInt
  rest : (dividend % divisor).toInt = dividend.toInt.tmod divisor.toInt
  lowered : dividend % divisor ≠ 0 → signsDiffer dividend divisor →
    InRange ((dividend / divisor).toInt - 1)
  raised : dividend % divisor ≠ 0 → signsDiffer (dividend % divisor) divisor →
    (dividend % divisor + divisor).toInt = (dividend % divisor).toInt + divisor.toInt

variable {dividend divisor : Int64}

theorem signsDiffer_iff {left right : Int64} :
    signsDiffer left right = true ↔ ¬(left.toInt < 0 ↔ right.toInt < 0) := by
  simp [signsDiffer, Int64.lt_iff_toInt_lt]

theorem mod_ne_zero_iff : dividend % divisor ≠ 0 ↔ dividend.toInt.tmod divisor.toInt ≠ 0 := by
  rw [Ne, ← Int64.toInt_inj, Int64.toInt_mod, Int64.toInt_zero]

/-- The two corrections look at different signs but are made in the same cases. -/
theorem corrected_iff :
    (dividend % divisor ≠ 0 ∧ signsDiffer (dividend % divisor) divisor = true) ↔
      (dividend % divisor ≠ 0 ∧ signsDiffer dividend divisor = true) := by
  apply and_congr_right
  intro inexact
  rw [signsDiffer_iff, signsDiffer_iff, Int64.toInt_mod, tmod_neg_iff (mod_ne_zero_iff.mp inexact)]

theorem toInt_add_of_inRange {left right : Int64} (inRange : InRange (left.toInt + right.toInt)) :
    (left + right).toInt = left.toInt + right.toInt := by
  rw [inRange_iff] at inRange
  rw [Int64.toInt_add]
  apply Int.bmod_eq_of_le
  · omega
  · omega

theorem isDivision_iff :
    IsDivision dividend.toInt divisor.toInt ↔
      divisor ≠ 0 ∧ ¬(dividend = Int64.minValue ∧ divisor = -1) := by
  rw [← Int64.toInt_inj, ← Int64.toInt_inj, Ne, ← Int64.toInt_inj]
  rfl

theorem truncated?_of_isDivision (regular : IsDivision dividend.toInt divisor.toInt)
    (operation : Int64 → Int64 → Int64) :
    truncated? operation dividend divisor = some (operation dividend divisor) := by
  rw [truncated?, if_neg]
  rw [not_or]
  exact isDivision_iff.mp regular

theorem toInt_div_of_isDivision (regular : IsDivision dividend.toInt divisor.toInt) :
    (dividend / divisor).toInt = dividend.toInt.tdiv divisor.toInt := by
  by_cases least : dividend = Int64.minValue
  · apply Int64.toInt_div_of_ne_right
    exact fun minusOne => (isDivision_iff.mp regular).2 ⟨least, minusOne⟩
  · exact Int64.toInt_div_of_ne_left dividend divisor least

theorem dividesExactly (regular : IsDivision dividend.toInt divisor.toInt) :
    DividesExactly dividend divisor := by
  have quotient := toInt_div_of_isDivision regular
  have rest := Int64.toInt_mod dividend divisor
  refine ⟨quotient, rest, ?_, ?_⟩
  · intro inexact _
    have smaller := natAbs_tdiv_lt (mod_ne_zero_iff.mp inexact) regular.1
    have bounds := inRange_iff.mp (inRange_toInt dividend)
    rw [inRange_iff, quotient]
    omega
  · intro _ differ
    have restBounds := inRange_iff.mp (inRange_toInt (dividend % divisor))
    have bounds := inRange_iff.mp (inRange_toInt divisor)
    have opposite := signsDiffer_iff.mp differ
    apply toInt_add_of_inRange
    rw [inRange_iff]
    omega

/-- The corrected quotient and remainder are those of a division to the floor. -/
theorem exists_floorDivision (regular : IsDivision dividend.toInt divisor.toInt) :
    ∃ quotient remainder : Int64, floorQuotient? dividend divisor = some quotient ∧
      floorRemainder? dividend divisor = some remainder ∧
      FloorDivision dividend.toInt divisor.toInt quotient.toInt remainder.toInt := by
  have operations := dividesExactly regular
  simp only [floorQuotient?, floorRemainder?, truncated?_of_isDivision regular, Option.bind_eq_bind,
    Option.bind_some]
  by_cases corrected : dividend % divisor ≠ 0 ∧ signsDiffer dividend divisor = true
  · -- The quotient is lowered by one exactly where the remainder is raised by the divisor.
    rcases corrected with ⟨inexact, differ⟩
    have both := corrected_iff.mpr ⟨inexact, differ⟩
    rcases exists_fit? (operations.lowered inexact differ) with ⟨quotient, fits, quotient_eq⟩
    refine ⟨quotient, dividend % divisor + divisor, ?_, if_pos both, ?_⟩
    · rw [if_pos ⟨inexact, differ⟩]
      exact fits
    · rw [quotient_eq, operations.raised inexact both.2, operations.quotient, operations.rest]
      exact floorDivision_corrected regular.1 (mod_ne_zero_iff.mp inexact)
        (signsDiffer_iff.mp differ)
  · refine ⟨dividend / divisor, dividend % divisor, if_neg corrected,
      if_neg (mt corrected_iff.mp corrected), ?_⟩
    rw [operations.quotient, operations.rest]
    apply floorDivision_truncated regular.1
    intro inexact
    have alike : ¬signsDiffer dividend divisor = true :=
      fun differ => corrected ⟨mod_ne_zero_iff.mpr inexact, differ⟩
    rwa [signsDiffer_iff, Decidable.not_not] at alike

end Number

open Number (IsDivision DividesExactly)

/-! ## Calls -/

namespace Arithmetic

theorem divide_int {dividend divisor : Int64} (nonzero : divisor ≠ 0) :
    divide (.int dividend) (.int divisor) =
      orOverflow .division ((floorQuotient? dividend divisor).map .int) := by
  have notZero : (Number.int divisor).isZero = false := beq_false_of_ne nonzero
  rw [divide, notZero]
  rfl

theorem modulo_int {dividend divisor : Int64} (nonzero : divisor ≠ 0) :
    modulo (.int dividend) (.int divisor) =
      orOverflow .modulo ((floorRemainder? dividend divisor).map .int) := by
  have notZero : (Number.int divisor).isZero = false := beq_false_of_ne nonzero
  rw [modulo, notZero]
  rfl

/-- How a division without a result fails. -/
def divisionError (_ divisor : Int) : Error :=
  if divisor = 0 then .refuse .divisionByZero else .fail (.overflow .division)

theorem divisionError_cases {dividend : Int} {divisor : Int64}
    (irregular : ¬IsDivision dividend divisor.toInt) :
    divisor = 0 ∧ divisionError dividend divisor.toInt = .refuse .divisionByZero ∨
      dividend = Int64.minValue.toInt ∧ divisor = -1 ∧
        divisionError dividend divisor.toInt = .fail (.overflow .division) := by
  by_cases zero : divisor = 0
  · left
    rw [zero]
    exact ⟨rfl, rfl⟩
  · right
    have nonzero : divisor.toInt ≠ 0 := fun same => zero (Int64.toInt_inj.mp same)
    rw [IsDivision, not_and, Decidable.not_not] at irregular
    rcases irregular nonzero with ⟨least, minusOne⟩
    exact ⟨least, Int64.toInt_inj.mp minusOne, if_neg nonzero⟩

theorem checks_divide : Checks divide Int.fdiv IsDivision divisionError where
  exact dividend divisor regular := by
    rcases Number.exists_floorDivision regular with ⟨quotient, _, quotient_eq, _, division⟩
    refine ⟨quotient, division.eq_fdiv, ?_⟩
    rw [divide_int (Number.isDivision_iff.mp regular).1, quotient_eq]
    rfl
  refused dividend divisor irregular := by
    rcases divisionError_cases irregular with ⟨rfl, error⟩ | ⟨least, rfl, error⟩
    · rw [error]
      rfl
    · rw [error, Int64.toInt_inj.mp least]
      rfl

variable {first divisor : Int64} {divisors : List Int64}

theorem call_quotient (host : Host) (first divisor : Int64) (divisors : List Int64) :
    (Callable.builtin (.primitive .divide)).call host ((first :: divisor :: divisors).map .int) =
      Primitive.give (quotient (.int first) ((divisor :: divisors).map .int)) Value.number :=
  Callable.call_variadicAfter host quotient rfl first (divisor :: divisors) rfl

theorem call_quotient_of_allowed (host : Host)
    (steps : StepsAllowed IsDivision Int.fdiv first.toInt (divisor :: divisors)) :
    ∃ result : Int64, result.toInt = exactly Int.fdiv first.toInt (divisor :: divisors) ∧
      (Callable.builtin (.primitive .divide)).call host ((first :: divisor :: divisors).map .int) =
        .ofResult (.ok (.int result)) := by
  rcases checks_divide.foldlM_of_allowed steps with ⟨result, result_eq, folded⟩
  refine ⟨result, result_eq, ?_⟩
  rw [call_quotient, quotient, folded]
  rfl

theorem exists_call_quotient_eq_error (host : Host)
    (notAllowed : ¬StepsAllowed IsDivision Int.fdiv first.toInt (divisor :: divisors)) :
    ∃ before next after, divisor :: divisors = before ++ next :: after ∧
      StepsAllowed IsDivision Int.fdiv first.toInt before ∧
      ¬IsDivision (exactly Int.fdiv first.toInt before) next.toInt ∧
      (Callable.builtin (.primitive .divide)).call host ((first :: divisor :: divisors).map .int) =
        .ofResult (.error (divisionError (exactly Int.fdiv first.toInt before) next.toInt)) := by
  rcases checks_divide.exists_foldlM_eq_error notAllowed with
    ⟨before, next, after, split, earlier, irregular, failed⟩
  refine ⟨before, next, after, split, earlier, irregular, ?_⟩
  rw [call_quotient, quotient, failed]
  rfl

theorem call_modulo (host : Host) (dividend divisor : Int64) :
    (Callable.builtin (.primitive .modulo)).call host [.int dividend, .int divisor] =
      Primitive.give (modulo (.int dividend) (.int divisor)) Value.number := by
  rw [Callable.call_primitive host rfl]
  rfl

/-- The least integer modulo `-1` has no result, since its quotient toward zero has none. -/
theorem call_modulo_eq_error (host : Host) {dividend divisor : Int64}
    (least : dividend = Int64.minValue) (minusOne : divisor = -1) :
    (Callable.builtin (.primitive .modulo)).call host [.int dividend, .int divisor] =
      .ofResult (.error (.fail (.overflow .modulo))) := by
  subst least minusOne
  rw [call_modulo]
  rfl

/-- The two calls give a quotient to the floor and its remainder. -/
theorem exists_call_division (host : Host) {dividend divisor : Int64}
    (regular : IsDivision dividend.toInt divisor.toInt) :
    ∃ quotient remainder : Int64,
      (Callable.builtin (.primitive .divide)).call host [.int dividend, .int divisor] =
        .ofResult (.ok (.int quotient)) ∧
      (Callable.builtin (.primitive .modulo)).call host [.int dividend, .int divisor] =
        .ofResult (.ok (.int remainder)) ∧
      FloorDivision dividend.toInt divisor.toInt quotient.toInt remainder.toInt := by
  have nonzero := (Number.isDivision_iff.mp regular).1
  rcases Number.exists_floorDivision regular with
    ⟨quotient, remainder, quotient_eq, remainder_eq, division⟩
  refine ⟨quotient, remainder, ?_, ?_, division⟩
  · have called := call_quotient host dividend divisor []
    rw [Arithmetic.quotient, List.map_singleton, List.foldlM_cons, divide_int nonzero, quotient_eq]
      at called
    exact called
  · rw [call_modulo, modulo_int nonzero, remainder_eq]
    rfl

end Arithmetic

open Arithmetic (exactly StepsAllowed)

/--
On integers the quotient is the left fold of the division to the floor. Otherwise the first step
without a result decides: a zero is refused, and the least integer divided by `-1` overflows.
With two arguments, the quotient and the remainder are those of one division, and no operation on
the way to them leaves 64 bits.
-/
theorem Callable.divides_integers (host : Host) :
    let call := fun primitive (numbers : List Int64) =>
      (Callable.builtin (.primitive primitive)).call host (numbers.map .int)
    (∀ first divisor divisors,
      let quotient := call .divide (first :: divisor :: divisors)
      (StepsAllowed IsDivision Int.fdiv first.toInt (divisor :: divisors) →
        ∃ result : Int64, result.toInt = exactly Int.fdiv first.toInt (divisor :: divisors) ∧
          quotient = .ofResult (.ok (.int result))) ∧
      (¬StepsAllowed IsDivision Int.fdiv first.toInt (divisor :: divisors) →
        ∃ before next after, divisor :: divisors = before ++ next :: after ∧
          StepsAllowed IsDivision Int.fdiv first.toInt before ∧
          (next = 0 ∧ quotient = .ofResult (.error (.refuse .divisionByZero)) ∨
            exactly Int.fdiv first.toInt before = Int64.minValue.toInt ∧ next = -1 ∧
              quotient = .ofResult (.error (.fail (.overflow .division)))))) ∧
    ∀ dividend divisor, divisor ≠ 0 → ¬(dividend = Int64.minValue ∧ divisor = -1) →
      ∃ quotient remainder : Int64,
        call .divide [dividend, divisor] = .ofResult (.ok (.int quotient)) ∧
        call .modulo [dividend, divisor] = .ofResult (.ok (.int remainder)) ∧
        FloorDivision dividend.toInt divisor.toInt quotient.toInt remainder.toInt ∧
        DividesExactly dividend divisor := by
  intro call
  refine ⟨?_, ?_⟩
  · intro first divisor divisors quotient
    refine ⟨Arithmetic.call_quotient_of_allowed host, ?_⟩
    intro notAllowed
    rcases Arithmetic.exists_call_quotient_eq_error host notAllowed with
      ⟨before, next, after, split, earlier, irregular, failed⟩
    refine ⟨before, next, after, split, earlier, ?_⟩
    rcases Arithmetic.divisionError_cases irregular with ⟨zero, error⟩ | ⟨least, minusOne, error⟩
    · rw [error] at failed
      exact .inl ⟨zero, failed⟩
    · rw [error] at failed
      exact .inr ⟨least, minusOne, failed⟩
  · intro dividend divisor nonzero notLeast
    have regular := Number.isDivision_iff.mpr ⟨nonzero, notLeast⟩
    rcases Arithmetic.exists_call_division host regular with
      ⟨quotient, remainder, divided, taken, division⟩
    exact ⟨quotient, remainder, divided, taken, division, Number.dividesExactly regular⟩

/--
The quotient of the least integer and `2` is divided by `-1` but the least integer itself is not,
and a zero behind that is never reached. The corrections of `-7` by `2` are those of one division.
-/
theorem Callable.divides_integers_least :
    let host : Host := fun _ _ => .ofResult (.ok .nil)
    let call := fun primitive (numbers : List Int64) =>
      (Callable.builtin (.primitive primitive)).call host (numbers.map .int)
    (∃ result : Int64, result.toInt = 4611686018427387904 ∧
      call .divide [Int64.minValue, 2, -1] = .ofResult (.ok (.int result))) ∧
    call .divide [Int64.minValue, -1, 0] = .ofResult (.error (.fail (.overflow .division))) ∧
    ∃ quotient remainder : Int64,
      call .divide [-7, 2] = .ofResult (.ok (.int quotient)) ∧
      call .modulo [-7, 2] = .ofResult (.ok (.int remainder)) ∧
      FloorDivision (-7) 2 quotient.toInt remainder.toInt := by
  intro host call
  rcases divides_integers host with ⟨folds, divisions⟩
  refine ⟨(folds Int64.minValue 2 [-1]).1 (by decide), ?_, ?_⟩
  · rcases (folds Int64.minValue (-1) [0]).2 (by decide) with
      ⟨before, next, after, split, earlier, ⟨zero, _⟩ | ⟨_, _, failed⟩⟩
    · cases before with
      | nil => exact absurd ((List.cons.inj split).1.trans zero) (by decide)
      | cons number before =>
          rw [← (List.cons.inj split).1] at earlier
          exact absurd (Arithmetic.stepsAllowed_cons.mp earlier).1 (by decide)
    · exact failed
  · rcases divisions (-7) 2 (by decide) (by decide) with
      ⟨quotient, remainder, divided, taken, division, _⟩
    exact ⟨quotient, remainder, divided, taken, division⟩

/--
The remainder of two integers always has 64 bits, since it is smaller than the divisor, and the call
gives it with one exception: the least integer modulo `-1` is reported as an overflow, because its
quotient has no 64 bits.
-/
theorem Callable.takes_remainders (host : Host) (dividend divisor : Int64)
    (nonzero : divisor ≠ 0) :
    let call := (Callable.builtin (.primitive .modulo)).call host [.int dividend, .int divisor]
    let remainder := dividend.toInt - divisor.toInt * dividend.toInt.fdiv divisor.toInt
    remainder.natAbs < divisor.toInt.natAbs ∧ Number.InRange remainder ∧
      ((∃ result : Int64, result.toInt = remainder ∧ call = .ofResult (.ok (.int result))) ↔
        ¬(dividend = Int64.minValue ∧ divisor = -1)) ∧
      (call = .ofResult (.error (.fail (.overflow .modulo))) ↔
        dividend = Int64.minValue ∧ divisor = -1) := by
  intro call remainder
  have remainder_eq : remainder = dividend.toInt.fmod divisor.toInt :=
    (Int.fmod_def dividend.toInt divisor.toInt).symm
  have nonzeroInt : divisor.toInt ≠ 0 := fun zero => nonzero (Int64.toInt_inj.mp zero)
  have small : remainder.natAbs < divisor.toInt.natAbs := by
    rw [remainder_eq]
    exact natAbs_fmod_lt dividend.toInt nonzeroInt
  have fits : Number.InRange remainder := by
    have bounds := Number.inRange_iff.mp (Number.inRange_toInt divisor)
    rw [Number.inRange_iff]
    omega
  refine ⟨small, fits, ?_⟩
  by_cases irregular : dividend = Int64.minValue ∧ divisor = -1
  · have failed : call = .ofResult (.error (.fail (.overflow .modulo))) :=
      Arithmetic.call_modulo_eq_error host irregular.1 irregular.2
    refine ⟨iff_of_false ?_ (not_not_intro irregular), iff_of_true failed irregular⟩
    rintro ⟨result, _, given⟩
    cases Action.ofResult_inj (failed.symm.trans given)
  · have regular := Number.isDivision_iff.mpr ⟨nonzero, irregular⟩
    rcases Arithmetic.exists_call_division host regular with ⟨_, result, _, given, division⟩
    have result_eq : result.toInt = remainder := by
      have identity := division.identity
      rw [division.eq_fdiv, Int.mul_comm] at identity
      omega
    refine ⟨iff_of_true ⟨result, result_eq, given⟩ irregular, iff_of_false ?_ irregular⟩
    intro failed
    cases Action.ofResult_inj (failed.symm.trans given)

/-- The least integer has the remainder zero modulo `-1`, but an overflow is reported. -/
theorem Callable.takes_remainders_least :
    let host : Host := fun _ _ => .ofResult (.ok .nil)
    let call := fun dividend divisor : Int64 =>
      (Callable.builtin (.primitive .modulo)).call host [.int dividend, .int divisor]
    Int64.minValue.toInt - (-1 : Int64).toInt * Int64.minValue.toInt.fdiv (-1 : Int64).toInt = 0 ∧
    call Int64.minValue (-1) = .ofResult (.error (.fail (.overflow .modulo))) ∧
    (Error.fail (.overflow .modulo)).render = "EvaluationError: Integer overflow in modulo" ∧
    ∃ result : Int64, result.toInt = 1 ∧ call (-7) 2 = .ofResult (.ok (.int result)) := by
  intro host call
  rcases takes_remainders host Int64.minValue (-1) (by decide) with ⟨_, _, _, overflows⟩
  rcases takes_remainders host (-7) 2 (by decide) with ⟨_, _, gives, _⟩
  exact ⟨by decide, overflows.mpr ⟨rfl, rfl⟩, by decide, gives.mpr (by decide)⟩

end MeteredRules
