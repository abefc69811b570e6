import MeteredRules.Proofs.Binary64.Encoding
import Mathlib.Tactic.FieldSimp
import Mathlib.Tactic.Linarith
import Mathlib.Tactic.Positivity
import Mathlib.Tactic.Ring

/-!
# Division rounds to the nearest float

The quotient of two finite floats is computed with two residual bits and then rounded. The residual
bits say where the exact quotient lies, and shifting keeps what they say. So a float whose interval
of rounding holds the exact quotient is the result of the division.
-/

namespace MeteredRules.Binary64

open Float.Model
open Float.Model.UnpackedFloat

/-! ## Residual bits -/

/--
A mantissa is the integral part of a number, the round bit tells whether the rest is a half or
more, and the sticky bit whether there is anything besides.
-/
structure Approximates (extended : ExtendedMantissa) (exact : ℚ) : Prop where
  mantissa_le : extended.mantissa ≤ exact
  lt_mantissa_add_one : exact < extended.mantissa + 1
  roundBit_iff : extended.roundBit = true ↔ extended.mantissa + 1 / 2 ≤ exact
  stickyBit_iff : extended.stickyBit = false ↔
    exact = extended.mantissa ∨ exact = extended.mantissa + 1 / 2

/-- The integer that a number is rounded to: the nearest one, and of two of them the even one. -/
structure RoundsTo (integer : Nat) (exact : ℚ) : Prop where
  lower : (integer : ℚ) - 1 / 2 ≤ exact
  upper : exact ≤ (integer : ℚ) + 1 / 2
  tie : exact = integer - 1 / 2 ∨ exact = integer + 1 / 2 → integer % 2 = 0

namespace Approximates

variable {extended : ExtendedMantissa} {exact : ℚ}

theorem exact_iff (approximates : Approximates extended exact) :
    (extended.roundBit || extended.stickyBit) = false ↔ exact = extended.mantissa := by
  rw [Bool.or_eq_false_iff, approximates.stickyBit_iff, ← Bool.not_eq_true,
    approximates.roundBit_iff]
  constructor
  · rintro ⟨small, equal | half⟩
    · exact equal
    · exact absurd half.ge small
  · intro equal
    exact ⟨by linarith, .inl equal⟩

/-- The bit that is shifted out becomes the round bit, and the others are collected behind it. -/
theorem shiftRightOne (approximates : Approximates extended exact) :
    Approximates extended.shiftRightOne (exact / 2) := by
  have exact_iff := approximates.exact_iff
  have le := approximates.mantissa_le
  have lt := approximates.lt_mantissa_add_one
  have parted : ((extended.mantissa / 2 : Nat) : ℚ) * 2 + (extended.mantissa % 2 : Nat) =
      extended.mantissa := by
    exact_mod_cast Nat.div_add_mod' extended.mantissa 2
  rcases Nat.mod_two_eq_zero_or_one extended.mantissa with even | odd
  · rw [even, Nat.cast_zero] at parted
    refine ⟨?_, ?_, ?_, ?_⟩ <;> simp only [ExtendedMantissa.shiftRightOne, even]
    · linarith
    · linarith
    · simp only [bne_self_eq_false, Bool.false_eq_true, false_iff, not_le]
      linarith
    · rw [exact_iff]
      constructor
      · intro equal
        left
        linarith
      · rintro (equal | half) <;> linarith
  · rw [odd, Nat.cast_one] at parted
    refine ⟨?_, ?_, ?_, ?_⟩ <;> simp only [ExtendedMantissa.shiftRightOne, odd]
    · linarith
    · linarith
    · simp only [bne_iff_ne, ne_eq, one_ne_zero, not_false_eq_true, true_iff]
      linarith
    · rw [exact_iff]
      constructor
      · intro equal
        right
        linarith
      · rintro (equal | half) <;> linarith

theorem shiftRight (approximates : Approximates extended exact) (amount : Nat) :
    Approximates (extended >>> amount) (exact / 2 ^ amount) := by
  induction amount with
  | zero =>
      rw [pow_zero, div_one]
      exact approximates
  | succ amount ih =>
      rw [pow_succ, ← div_div]
      exact ih.shiftRightOne

/-- A mantissa is rounded to the integer that the number is rounded to. -/
theorem roundedMantissa_eq {integer : Nat} (approximates : Approximates extended exact)
    (rounds : RoundsTo integer exact) : extended.roundedMantissa = integer := by
  rcases extended with ⟨mantissa, roundBit, stickyBit⟩
  rcases approximates with ⟨mantissa_le, lt_mantissa_add_one, roundBit_iff, stickyBit_iff⟩
  rcases rounds with ⟨lower, upper, tie⟩
  dsimp only at mantissa_le lt_mantissa_add_one roundBit_iff stickyBit_iff
  have integer_le : integer ≤ mantissa + 1 := by
    have bound : (integer : ℚ) < mantissa + 2 := by linarith
    have bound : integer < mantissa + 2 := by exact_mod_cast bound
    omega
  have mantissa_le_integer : mantissa ≤ integer := by
    have bound : (mantissa : ℚ) < integer + 1 := by linarith
    have bound : mantissa < integer + 1 := by exact_mod_cast bound
    omega
  have cases : integer = mantissa ∨ integer = mantissa + 1 := by omega
  cases roundBit with
  | false =>
      have small : exact < mantissa + 1 / 2 := by simpa using roundBit_iff
      have integer_eq : integer = mantissa := by
        rcases cases with equal | rfl
        · exact equal
        · push_cast at lower
          linarith
      rw [integer_eq]
      cases stickyBit <;> rfl
  | true =>
      have large : mantissa + 1 / 2 ≤ exact := by simpa using roundBit_iff
      cases stickyBit with
      | false =>
          have half : exact = mantissa + 1 / 2 := by
            rcases stickyBit_iff.mp rfl with equal | half
            · linarith
            · exact half
          have even : integer % 2 = 0 := by
            apply tie
            rcases cases with rfl | rfl
            · exact .inr half
            · left
              push_cast
              linarith
          have rounded : ExtendedMantissa.roundedMantissa ⟨mantissa, true, false⟩ =
              mantissa + mantissa % 2 := rfl
          rw [rounded]
          omega
      | true =>
          have integer_eq : integer = mantissa + 1 := by
            rcases cases with rfl | equal
            · have half : exact = integer + 1 / 2 := by linarith
              exact absurd (stickyBit_iff.mpr (.inr half)) (by decide)
            · exact equal
          rw [integer_eq]
          rfl

end Approximates

theorem approximates_add {mantissa : Nat} {roundBit stickyBit : Bool} {rest : ℚ}
    (nonneg : 0 ≤ rest) (lt_one : rest < 1) (round_iff : roundBit = true ↔ 1 / 2 ≤ rest)
    (sticky_iff : stickyBit = false ↔ rest = 0 ∨ rest = 1 / 2) :
    Approximates ⟨mantissa, roundBit, stickyBit⟩ (mantissa + rest) where
  mantissa_le := by linarith
  lt_mantissa_add_one := by linarith
  roundBit_iff := by rw [round_iff, add_le_add_iff_left]
  stickyBit_iff := by rw [sticky_iff, add_eq_left, add_right_inj]

theorem approximates_exact (mantissa : Nat) :
    Approximates (.ofMantissaAndAccuracy mantissa .exact) mantissa := by
  rw [← add_zero (mantissa : ℚ)]
  exact approximates_add le_rfl one_pos (by norm_num) (by norm_num)

/-- A quotient with what its remainder says about it. -/
theorem approximates_quotient (dividend : Nat) {divisor : Nat} (positive : 0 < divisor) :
    Approximates (.ofMantissaAndAccuracy (dividend / divisor)
      (accuracyOfFraction (dividend % divisor) divisor)) (dividend / divisor : ℚ) := by
  have divisor_pos : (0 : ℚ) < divisor := by exact_mod_cast positive
  have parted : (dividend / divisor : ℚ) =
      (dividend / divisor : Nat) + (dividend % divisor : Nat) / (divisor : ℚ) := by
    have whole : ((divisor * (dividend / divisor) + dividend % divisor : Nat) : ℚ) = dividend := by
      exact_mod_cast Nat.div_add_mod dividend divisor
    rw [← whole]
    push_cast
    field_simp
  have remainder_lt := Nat.mod_lt dividend positive
  rw [parted]
  generalize dividend / divisor = quotient, dividend % divisor = remainder at remainder_lt ⊢
  have nonneg : (0 : ℚ) ≤ remainder / divisor := by positivity
  have lt_one : (remainder / divisor : ℚ) < 1 := by
    rw [div_lt_one divisor_pos]
    exact_mod_cast remainder_lt
  unfold accuracyOfFraction
  split
  · rename_i zero
    subst zero
    exact approximates_add nonneg lt_one (by norm_num) (by norm_num)
  · rename_i nonzero
    have rest_ne : ¬(remainder / divisor : ℚ) = 0 := by
      have remainder_ne : (remainder : ℚ) ≠ 0 := by exact_mod_cast nonzero
      positivity
    rcases Nat.lt_trichotomy (2 * remainder) divisor with less | equal | greater
    · have below : (remainder / divisor : ℚ) < 1 / 2 := by
        rw [div_lt_div_iff₀ divisor_pos two_pos, one_mul, mul_comm]
        exact_mod_cast less
      rw [Nat.compare_eq_lt.mpr less]
      exact approximates_add nonneg lt_one (by simpa using below)
        (by simpa [rest_ne] using below.ne)
    · have half : (remainder / divisor : ℚ) = 1 / 2 := by
        rw [div_eq_div_iff divisor_pos.ne' two_ne_zero, one_mul, mul_comm]
        exact_mod_cast equal
      rw [Nat.compare_eq_eq.mpr equal]
      exact approximates_add nonneg lt_one (by simp [half]) (by simp [half])
    · have above : 1 / 2 < (remainder / divisor : ℚ) := by
        rw [div_lt_div_iff₀ two_pos divisor_pos, one_mul, mul_comm]
        exact_mod_cast greater
      rw [Nat.compare_eq_gt.mpr greater]
      exact approximates_add nonneg lt_one (by simpa using above.le)
        (by simpa [rest_ne] using above.ne')

/-! ## Intervals of rounding -/

/-- Half way down to the next float; below a power of two the floats are twice as dense. -/
def lowerEnd (significand : Nat) (exponent : Int) : ℚ :=
  (significand - if significand = hiddenBit ∧ leastExponent < exponent then 1 / 4 else 1 / 2) *
    2 ^ exponent

/-- Half way up to the next float. -/
def upperEnd (significand : Nat) (exponent : Int) : ℚ :=
  (significand + 1 / 2) * 2 ^ exponent

/-- The numbers that are rounded to a float; the ends are if the significand is even. -/
structure Nearest (significand : Nat) (exponent : Int) (exact : ℚ) : Prop where
  lower : lowerEnd significand exponent ≤ exact
  upper : exact ≤ upperEnd significand exponent
  tie : exact = lowerEnd significand exponent ∨ exact = upperEnd significand exponent →
    significand % 2 = 0

/-! ## Exponents -/

theorem targetExponent_eq (position : Int) :
    Format.binary64.targetExponent position = max (position - 53) (-1074) := rfl

theorem zpow_eq_pow_mul {exponent unit : Int} (le : exponent ≤ unit) :
    (2 : ℚ) ^ unit = 2 ^ (unit - exponent).toNat * 2 ^ exponent := by
  rw [← zpow_natCast, ← zpow_add₀ two_ne_zero]
  congr 1
  omega

section Target

variable {mantissa : Nat} {exponent unit : Int} {exact : ℚ}

/-- A mantissa with enough digits has an exponent below the one that is rounded at. -/
theorem exponent_le_of_fine (floor_le : mantissa * 2 ^ exponent ≤ exact)
    (fine : exponent ≤ Format.binary64.targetExponent (totalExponent mantissa exponent))
    (least_le : -1074 ≤ unit) (upper : exact < 2 ^ 53 * 2 ^ unit) : exponent ≤ unit := by
  rw [targetExponent_eq, totalExponent] at fine
  by_cases deep : exponent ≤ -1074
  · omega
  have log_ge : 52 ≤ mantissa.log2 := by omega
  have mantissa_ne : mantissa ≠ 0 := by
    rintro rfl
    simp at log_ge
  have full : (2 ^ 52 : ℚ) ≤ mantissa := by
    exact_mod_cast (Nat.le_log2 mantissa_ne).mp log_ge
  have scaled : (2 : ℚ) ^ 52 * 2 ^ exponent < 2 ^ 52 * 2 ^ (unit + 1) :=
    calc (2 : ℚ) ^ 52 * 2 ^ exponent ≤ mantissa * 2 ^ exponent := by gcongr
      _ ≤ exact := floor_le
      _ < 2 ^ 53 * 2 ^ unit := upper
      _ = 2 ^ 52 * 2 ^ (unit + 1) := by rw [zpow_add_one₀ two_ne_zero]; ring
  have powers := lt_of_mul_lt_mul_left scaled (by positivity)
  have := (zpow_lt_zpow_iff_right₀ (by norm_num : (1 : ℚ) < 2)).mp powers
  omega

theorem mantissa_lt_of_lt (le : exponent ≤ unit) (floor_le : mantissa * 2 ^ exponent ≤ exact)
    (upper : exact < 2 ^ 53 * 2 ^ unit) : mantissa < 2 ^ (53 + (unit - exponent).toNat) := by
  rw [zpow_eq_pow_mul le, ← mul_assoc, ← pow_add] at upper
  have scaled := lt_of_mul_lt_mul_right (floor_le.trans_lt upper) (by positivity)
  exact_mod_cast scaled

theorem le_mantissa_of_le (le : exponent ≤ unit) (lt_floor : exact < (mantissa + 1) * 2 ^ exponent)
    (lower : 2 ^ 52 * 2 ^ unit ≤ exact) : 2 ^ (52 + (unit - exponent).toNat) ≤ mantissa := by
  rw [zpow_eq_pow_mul le, ← mul_assoc, ← pow_add] at lower
  have scaled := lt_of_mul_lt_mul_right (lower.trans_lt lt_floor) (by positivity)
  exact Nat.lt_succ_iff.mp (by exact_mod_cast scaled)

/-- The exponent that a number is rounded at, if it is a normal one. -/
theorem targetExponent_of_normal (floor_le : mantissa * 2 ^ exponent ≤ exact)
    (lt_floor : exact < (mantissa + 1) * 2 ^ exponent)
    (fine : exponent ≤ Format.binary64.targetExponent (totalExponent mantissa exponent))
    (least_le : -1074 ≤ unit) (lower : 2 ^ 52 * 2 ^ unit ≤ exact)
    (upper : exact < 2 ^ 53 * 2 ^ unit) :
    Format.binary64.targetExponent (totalExponent mantissa exponent) = unit := by
  have le := exponent_le_of_fine floor_le fine least_le upper
  have mantissa_ge := le_mantissa_of_le le lt_floor lower
  have mantissa_ne : mantissa ≠ 0 := (Nat.lt_of_lt_of_le (by positivity) mantissa_ge).ne'
  have log_ge := (Nat.le_log2 mantissa_ne).mpr mantissa_ge
  have log_lt := (Nat.log2_lt mantissa_ne).mpr (mantissa_lt_of_lt le floor_le upper)
  rw [targetExponent_eq, totalExponent]
  omega

theorem targetExponent_of_small (floor_le : mantissa * 2 ^ exponent ≤ exact)
    (fine : exponent ≤ Format.binary64.targetExponent (totalExponent mantissa exponent))
    (upper : exact < 2 ^ 53 * 2 ^ (-1074 : Int)) :
    Format.binary64.targetExponent (totalExponent mantissa exponent) = -1074 := by
  have le := exponent_le_of_fine floor_le fine le_rfl upper
  have mantissa_lt := mantissa_lt_of_lt le floor_le upper
  have log_lt : mantissa.log2 < 53 + (-1074 - exponent).toNat := by
    by_cases mantissa_eq : mantissa = 0
    · subst mantissa_eq
      simp
    · exact (Nat.log2_lt mantissa_eq).mpr mantissa_lt
  rw [targetExponent_eq, totalExponent]
  omega

end Target

/-! ## Rounding -/

theorem targetExponent_of_canonical {significand : Nat} {exponent : Int}
    (canonical : Canonical significand exponent) :
    Format.binary64.targetExponent (totalExponent significand exponent) = exponent := by
  rcases canonical with ⟨significand_lt, least_le, _, normal⟩
  simp only [hiddenBit_eq, leastExponent_eq] at significand_lt least_le normal
  have log_lt : significand.log2 < 53 := by
    by_cases zero : significand = 0
    · subst zero
      simp
    · exact (Nat.log2_lt zero).mpr (by omega)
  rw [targetExponent_eq, totalExponent]
  rcases normal with least | full
  · omega
  · have log_ge : 52 ≤ significand.log2 := (Nat.le_log2 (by omega)).mpr (by omega)
    omega

theorem shiftToTargetExponent_of_canonical {significand : Nat} {exponent : Int}
    (canonical : Canonical significand exponent) :
    shiftToTargetExponent Format.binary64 significand exponent .exact =
      (⟨significand, false, false⟩, exponent) := by
  simp only [shiftToTargetExponent, shiftToExponent, targetExponent_of_canonical canonical,
    sub_self, Int.toNat_zero, Int.natCast_zero, add_zero]
  rfl

/-- A significand that is rounded up to the next power of two is halved. -/
theorem shiftToTargetExponent_of_carry {exponent : Int} (least_le : -1074 ≤ exponent) :
    shiftToTargetExponent Format.binary64 (2 ^ 53) exponent .exact =
      (⟨hiddenBit, false, false⟩, exponent + 1) := by
  have target : (Format.binary64.targetExponent (totalExponent (2 ^ 53) exponent) -
      exponent).toNat = 1 := by
    rw [targetExponent_eq, totalExponent, Nat.log2_two_pow]
    omega
  simp only [shiftToTargetExponent, shiftToExponent, target]
  rfl

/-- Rounding takes place at the exponent that was found for the number. -/
theorem roundWithAccuracy_of_target {mantissa rounded : Nat} {exponent unit : Int} {exact : ℚ}
    {accuracy : Accuracy}
    (approximates : Approximates (.ofMantissaAndAccuracy mantissa accuracy) (exact / 2 ^ exponent))
    (le : exponent ≤ unit)
    (target : Format.binary64.targetExponent (totalExponent mantissa exponent) = unit)
    (rounds : RoundsTo rounded (exact / 2 ^ unit)) (sign : Sign) :
    roundWithAccuracy Format.binary64 sign mantissa exponent accuracy =
      let final := shiftToTargetExponent Format.binary64 rounded unit .exact
      if zero : final.1.mantissa = 0 then .zero sign
      else .finite sign final.1.mantissa final.2 (Nat.pos_of_ne_zero zero) := by
  have shifted := approximates.shiftRight (unit - exponent).toNat
  rw [div_div, mul_comm, ← zpow_eq_pow_mul le] at shifted
  have raised : exponent + ((unit - exponent).toNat : Int) = unit := by omega
  simp only [roundWithAccuracy]
  have first : shiftToTargetExponent Format.binary64 mantissa exponent accuracy =
      (ExtendedMantissa.ofMantissaAndAccuracy mantissa accuracy >>> (unit - exponent).toNat,
        unit) := by
    simp only [shiftToTargetExponent, shiftToExponent, target, raised]
  rw [first]
  simp only [shifted.roundedMantissa_eq rounds]

namespace Nearest

variable {significand : Nat} {unit : Int} {exact : ℚ}

theorem lt_double (canonical : Canonical significand unit)
    (nearest : Nearest significand unit exact) : exact < 2 ^ 53 * 2 ^ unit := by
  have significand_lt := canonical.significand_lt
  rw [hiddenBit_eq] at significand_lt
  have bound : (significand : ℚ) + 1 ≤ 2 ^ 53 := by
    have bound : significand + 1 ≤ 2 ^ 53 := by omega
    exact_mod_cast bound
  have unit_pos : (0 : ℚ) < 2 ^ unit := by positivity
  calc exact ≤ (significand + 1 / 2) * 2 ^ unit := nearest.upper
    _ < 2 ^ 53 * 2 ^ unit := by
      apply mul_lt_mul_of_pos_right _ unit_pos
      linarith

theorem roundsTo (nearest : Nearest significand unit exact) :
    RoundsTo significand (exact / 2 ^ unit) := by
  have unit_pos : (0 : ℚ) < 2 ^ unit := by positivity
  have lower := nearest.lower
  have upper := nearest.upper
  rw [lowerEnd, ← le_div_iff₀ unit_pos] at lower
  rw [upperEnd, ← div_le_iff₀ unit_pos] at upper
  refine ⟨?_, upper, ?_⟩
  · split at lower <;> linarith
  · rintro (atLower | atUpper)
    · apply nearest.tie
      left
      rw [lowerEnd, ← div_eq_iff unit_pos.ne', atLower]
      split
      · rename_i narrow
        rw [if_pos narrow] at lower
        linarith
      · rfl
    · apply nearest.tie
      right
      rw [upperEnd, ← div_eq_iff unit_pos.ne', atUpper]

/-- A number below the power of two that it is rounded to is rounded up to that power. -/
theorem roundsTo_of_carry (nearest : Nearest hiddenBit unit exact) (above : leastExponent < unit)
    (below : exact < 2 ^ 52 * 2 ^ unit) :
    2 ^ 52 * 2 ^ (unit - 1) ≤ exact ∧ exact < 2 ^ 53 * 2 ^ (unit - 1) ∧
      RoundsTo (2 ^ 53) (exact / 2 ^ (unit - 1)) := by
  have unit_pos : (0 : ℚ) < 2 ^ (unit - 1) := by positivity
  have lower := nearest.lower
  have double : (2 : ℚ) ^ unit = 2 * 2 ^ (unit - 1) := by
    rw [mul_comm, ← zpow_add_one₀ two_ne_zero, sub_add_cancel]
  rw [lowerEnd, if_pos ⟨rfl, above⟩, hiddenBit_eq, double, Nat.cast_ofNat] at lower
  rw [double] at below
  refine ⟨by linarith, by linarith, ?_⟩
  have scaledLower : (2 : ℚ) ^ 53 - 1 / 2 ≤ exact / 2 ^ (unit - 1) := by
    rw [le_div_iff₀ unit_pos]
    linarith
  have scaledUpper : exact / 2 ^ (unit - 1) < 2 ^ 53 := by
    rw [div_lt_iff₀ unit_pos]
    linarith
  exact ⟨by exact_mod_cast scaledLower, by push_cast; linarith, fun _ => by decide⟩

/-- Outside of this case the number is rounded in the units of the float. -/
theorem targetExponent_eq {mantissa : Nat} {exponent : Int} (canonical : Canonical significand unit)
    (nearest : Nearest significand unit exact)
    (floor_le : mantissa * 2 ^ exponent ≤ exact)
    (lt_floor : exact < (mantissa + 1) * 2 ^ exponent)
    (fine : exponent ≤ Format.binary64.targetExponent (totalExponent mantissa exponent))
    (noCarry : ¬(significand = hiddenBit ∧ leastExponent < unit ∧ exact < 2 ^ 52 * 2 ^ unit)) :
    Format.binary64.targetExponent (totalExponent mantissa exponent) = unit := by
  have upper := nearest.lt_double canonical
  have least_le := canonical.least_le
  rw [leastExponent_eq] at least_le noCarry
  by_cases normal : 2 ^ 52 * 2 ^ unit ≤ exact
  · exact targetExponent_of_normal floor_le lt_floor fine least_le normal upper
  rw [not_le] at normal
  by_cases least : unit = -1074
  · subst least
    exact targetExponent_of_small floor_le fine upper
  have full : hiddenBit ≤ significand := canonical.normal.resolve_left least
  have notHidden : significand ≠ hiddenBit := by
    intro equal
    exact noCarry ⟨equal, by omega, normal⟩
  have significand_gt : hiddenBit + 1 ≤ significand := by omega
  rw [hiddenBit_eq] at significand_gt
  have bound : (2 : ℚ) ^ 52 + 1 ≤ significand := by
    exact_mod_cast significand_gt
  have unit_pos : (0 : ℚ) < 2 ^ unit := by positivity
  have lower := nearest.lower
  rw [lowerEnd, if_neg (fun narrow => notHidden narrow.1)] at lower
  have contradiction : (2 : ℚ) ^ 52 * 2 ^ unit ≤ (significand - 1 / 2) * 2 ^ unit := by
    apply mul_le_mul_of_nonneg_right _ unit_pos.le
    linarith
  linarith

end Nearest

/-- Rounding gives the float whose interval holds the number. -/
theorem roundWithAccuracy_of_nearest {mantissa significand : Nat} {exponent unit : Int} {exact : ℚ}
    {accuracy : Accuracy}
    (approximates : Approximates (.ofMantissaAndAccuracy mantissa accuracy) (exact / 2 ^ exponent))
    (fine : exponent ≤ Format.binary64.targetExponent (totalExponent mantissa exponent))
    (canonical : Canonical significand unit) (positive : 0 < significand)
    (nearest : Nearest significand unit exact) (sign : Sign) :
    roundWithAccuracy Format.binary64 sign mantissa exponent accuracy =
      .finite sign significand unit positive := by
  have exponent_pos : (0 : ℚ) < 2 ^ exponent := by positivity
  have integral : (ExtendedMantissa.ofMantissaAndAccuracy mantissa accuracy).mantissa =
      mantissa := by
    unfold ExtendedMantissa.ofMantissaAndAccuracy
    split <;> rfl
  have floor_le := approximates.mantissa_le
  have lt_floor := approximates.lt_mantissa_add_one
  rw [integral, le_div_iff₀ exponent_pos] at floor_le
  rw [integral, div_lt_iff₀ exponent_pos] at lt_floor
  by_cases carry : significand = hiddenBit ∧ leastExponent < unit ∧ exact < 2 ^ 52 * 2 ^ unit
  · rcases carry with ⟨rfl, above, below⟩
    rcases nearest.roundsTo_of_carry above below with ⟨lower, upper, rounds⟩
    rw [leastExponent_eq] at above
    have target := targetExponent_of_normal floor_le lt_floor fine (by omega) lower upper
    have le := exponent_le_of_fine floor_le fine (by omega) upper
    rw [roundWithAccuracy_of_target approximates le target rounds,
      shiftToTargetExponent_of_carry (by omega)]
    simp only [sub_add_cancel, dif_neg positive.ne']
  · have target := nearest.targetExponent_eq canonical floor_le lt_floor fine carry
    have le := exponent_le_of_fine floor_le fine
      (leastExponent_eq ▸ canonical.least_le) (nearest.lt_double canonical)
    rw [roundWithAccuracy_of_target approximates le target nearest.roundsTo,
      shiftToTargetExponent_of_canonical canonical]
    simp only [dif_neg positive.ne']

/-! ## Division -/

/-- The quotient of mantissas is computed with at least as many digits as are kept. -/
theorem le_targetExponent_quotient {dividend divisor : Nat} (dividend_pos : 0 < dividend)
    (divisor_pos : 0 < divisor) {shift : Nat} {exponent : Int}
    (enough : exponent ≤ -1074 ∨
      exponent + 53 ≤ (dividend.log2 : Int) - divisor.log2 + shift + exponent) :
    exponent ≤ Format.binary64.targetExponent
      (totalExponent (dividend <<< shift / divisor) exponent) := by
  rw [targetExponent_eq, totalExponent]
  rcases enough with deep | digits
  · omega
  have divisor_lt : divisor < 2 ^ (divisor.log2 + 1) := Nat.lt_log2_self
  have le_dividend : 2 ^ dividend.log2 ≤ dividend := Nat.log2_self_le dividend_pos.ne'
  have quotient_ge : 2 ^ 52 ≤ dividend <<< shift / divisor := by
    rw [Nat.le_div_iff_mul_le divisor_pos, Nat.shiftLeft_eq]
    calc 2 ^ 52 * divisor ≤ 2 ^ 52 * 2 ^ (divisor.log2 + 1) := by gcongr
      _ = 2 ^ (52 + (divisor.log2 + 1)) := by rw [← pow_add]
      _ ≤ 2 ^ (dividend.log2 + shift) := Nat.pow_le_pow_right two_pos (by omega)
      _ = 2 ^ dividend.log2 * 2 ^ shift := by rw [pow_add]
      _ ≤ dividend * 2 ^ shift := by gcongr
  have quotient_ne : dividend <<< shift / divisor ≠ 0 := by
    intro zero
    simp [zero] at quotient_ge
  have log_ge := (Nat.le_log2 quotient_ne).mpr quotient_ge
  omega

/-- The quotient of two positive floats is the float whose interval holds it. -/
theorem div_of_nearest {dividend divisor significand : Nat} {exponent shift unit : Int}
    (dividend_pos : 0 < dividend) (divisor_pos : 0 < divisor)
    (canonical : Canonical significand unit) (positive : 0 < significand)
    (nearest : Nearest significand unit (dividend * 2 ^ exponent / (divisor * 2 ^ shift))) :
    UnpackedFloat.div Format.binary64 (.finite .positive dividend exponent dividend_pos)
        (.finite .positive divisor shift divisor_pos) =
      .finite .positive significand unit positive := by
  simp only [UnpackedFloat.div, divCore]
  generalize target_eq : min (exponent - shift) (Format.binary64.targetExponent
    (totalExponent dividend exponent - totalExponent divisor shift)) = target
  rw [targetExponent_eq, totalExponent, totalExponent] at target_eq
  have approximates := approximates_quotient (dividend <<< (exponent - shift - target).toNat)
    divisor_pos
  have scaled : ((dividend <<< (exponent - shift - target).toNat : Nat) / divisor : ℚ) =
      dividend * 2 ^ exponent / (divisor * 2 ^ shift) / 2 ^ target := by
    have split : (2 : ℚ) ^ (exponent - shift) =
        2 ^ (exponent - shift - target).toNat * 2 ^ target :=
      zpow_eq_pow_mul (by omega)
    rw [zpow_sub₀ two_ne_zero] at split
    rw [Nat.shiftLeft_eq, Nat.cast_mul, Nat.cast_pow, Nat.cast_ofNat]
    have target_ne : (2 : ℚ) ^ target ≠ 0 := by positivity
    have divisor_ne : (divisor : ℚ) ≠ 0 := by exact_mod_cast divisor_pos.ne'
    rw [mul_div_mul_comm, split]
    field_simp
  rw [scaled] at approximates
  have fine := @le_targetExponent_quotient dividend divisor dividend_pos divisor_pos
    (exponent - shift - target).toNat target (by omega)
  exact roundWithAccuracy_of_nearest approximates fine canonical positive nearest _

end MeteredRules.Binary64
