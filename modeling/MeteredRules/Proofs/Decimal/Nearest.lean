import MeteredRules.Decimal.Reading
import MeteredRules.Proofs.Binary64.Nearest
import MeteredRules.Proofs.Decimal.Digits

/-!
# Reading a decimal gives the nearest float

A decimal with places after the point is a quotient by a power of ten. Small decimals are divided
as floats, whose powers of ten come from a table, and all others as integers; both ways lead to the
float whose interval of rounding holds the decimal.
-/

namespace MeteredRules

namespace Binary64

open Float.Model
open Float.Model.UnpackedFloat

theorem nearest_self (significand : Nat) (exponent : Int) :
    Nearest significand exponent (significand * 2 ^ exponent) := by
  have unit_pos : (0 : ℚ) < 2 ^ exponent := by positivity
  have below : lowerEnd significand exponent < significand * 2 ^ exponent := by
    rw [lowerEnd]
    split <;> linarith
  have above : significand * 2 ^ exponent < upperEnd significand exponent := by
    rw [upperEnd]
    linarith
  refine ⟨below.le, above.le, ?_⟩
  rintro (equal | equal)
  · exact absurd equal below.ne'
  · exact absurd equal above.ne

/-! ## Exact conversions -/

/-- The significand of an integer, with all its digits. -/
def aligned (number : Nat) : Nat :=
  number <<< (52 - number.log2)

variable {number : Nat}

theorem aligned_mul (number_lt : number < 2 ^ 53) (number_pos : 0 < number) (exponent : Int) :
    (aligned number * 2 ^ (exponent + number.log2 - 52) : ℚ) = number * 2 ^ exponent := by
  have log_lt := (Nat.log2_lt number_pos.ne').mpr number_lt
  have split := @zpow_eq_pow_mul (exponent + number.log2 - 52) exponent (by omega)
  have amount : (exponent - (exponent + number.log2 - 52)).toNat = 52 - number.log2 := by omega
  rw [amount] at split
  rw [aligned, Nat.shiftLeft_eq, Nat.cast_mul, Nat.cast_pow, Nat.cast_ofNat, split]
  ring

theorem canonical_aligned (number_lt : number < 2 ^ 53) (number_pos : 0 < number) {exponent : Int}
    (least_le : -1022 ≤ exponent) (le_greatest : exponent ≤ 971) :
    Canonical (aligned number) (exponent + number.log2 - 52) := by
  have log_lt := (Nat.log2_lt number_pos.ne').mpr number_lt
  have le_number : 2 ^ number.log2 ≤ number := Nat.log2_self_le number_pos.ne'
  have lt_number : number < 2 ^ (number.log2 + 1) := Nat.lt_log2_self
  have full : 2 ^ number.log2 * 2 ^ (52 - number.log2) = hiddenBit := by
    rw [← pow_add, hiddenBit_eq, Nat.add_sub_cancel' (by omega)]
    norm_num
  refine ⟨?_, ?_, by omega, .inr ?_⟩
  · calc aligned number = number * 2 ^ (52 - number.log2) := Nat.shiftLeft_eq _ _
      _ < 2 ^ (number.log2 + 1) * 2 ^ (52 - number.log2) := by gcongr
      _ = 2 * hiddenBit := by rw [← full]; ring
  · rw [leastExponent_eq]
    omega
  · calc hiddenBit = 2 ^ number.log2 * 2 ^ (52 - number.log2) := full.symm
      _ ≤ number * 2 ^ (52 - number.log2) := by gcongr
      _ = aligned number := (Nat.shiftLeft_eq _ _).symm

theorem aligned_pos (number_pos : 0 < number) : 0 < aligned number :=
  Nat.shiftLeft_pos_iff.mpr number_pos

/-- An integer with few enough digits is converted exactly. -/
theorem toFloat_eq_ofParts (number_lt : number < 2 ^ 53) (number_pos : 0 < number) :
    number.toUInt64.toFloat = ofParts false (aligned number) (number.log2 - 52) := by
  have log_lt := (Nat.log2_lt number_pos.ne').mpr number_lt
  have converted : number.toUInt64.toNat = number := by
    rw [Nat.toUInt64, UInt64.toNat_ofNat_of_lt']
    exact number_lt.trans (by norm_num)
  have canonical : Canonical (aligned number) (0 + number.log2 - 52) :=
    canonical_aligned number_lt number_pos (by omega) (by omega)
  rw [zero_add] at canonical
  have normalized : UnpackedFloat.ofUInt64 Format.binary64 number.toUInt64 =
      unpacked false (aligned number) (number.log2 - 52) := by
    rw [UnpackedFloat.ofUInt64, converted, UnpackedFloat.ofNat, UnpackedFloat.ofInt,
      UnpackedFloat.normalize, Int.compare_eq_gt.mpr (by omega)]
    simp only [Int.toNat_natCast]
    have target : Format.binary64.targetExponent (totalExponent number 0) =
        (number.log2 : Int) - 52 := by
      rw [targetExponent_eq, totalExponent]
      omega
    have amount : (0 - ((number.log2 : Int) - 52)).toNat = 52 - number.log2 := by omega
    have lowered : (0 : Int) - ((52 - number.log2 : Nat) : Int) = number.log2 - 52 := by omega
    have unit_pos : (0 : ℚ) < 2 ^ ((number.log2 : Int) - 52) := by positivity
    have approximates := approximates_exact (aligned number)
    rw [← mul_div_cancel_right₀ (aligned number : ℚ) unit_pos.ne'] at approximates
    rw [unpacked, dif_pos (aligned_pos number_pos)]
    simp only [UnpackedFloat.round, decreaseExponent, target, amount, lowered]
    exact roundWithAccuracy_of_nearest approximates (targetExponent_of_canonical canonical).ge
      canonical (aligned_pos number_pos) (nearest_self _ _) _
  have model : number.toUInt64.toFloat =
      .ofModel (.pack (UnpackedFloat.ofUInt64 Format.binary64 number.toUInt64)) := rfl
  rw [model, normalized]
  rfl

theorem powersOfTen_eq_ofParts (index : Fin 23) :
    Float.exactlyRepresentablePowersOfTen[index] =
      ofParts false (aligned (5 ^ index.val)) (index.val + (5 ^ index.val).log2 - 52) := by
  revert index
  decide +kernel

/-! ## Division by a power of ten -/

section Division

variable {significand : Nat} {unit : Int}

theorem div_ofParts {dividend divisor : Nat} {exponent shift : Int}
    (dividend_canonical : Canonical dividend exponent) (dividend_pos : 0 < dividend)
    (divisor_canonical : Canonical divisor shift) (divisor_pos : 0 < divisor)
    (canonical : Canonical significand unit) (positive : 0 < significand)
    (nearest : Nearest significand unit (dividend * 2 ^ exponent / (divisor * 2 ^ shift))) :
    ofParts false dividend exponent / ofParts false divisor shift =
      ofParts false significand unit := by
  have model : ofParts false dividend exponent / ofParts false divisor shift =
      .ofModel (.pack (UnpackedFloat.div Format.binary64
        (Float.Model.pack (unpacked false dividend exponent)).unpack
        (Float.Model.pack (unpacked false divisor shift)).unpack)) := rfl
  rw [model, unpack_pack_unpacked dividend_canonical, unpack_pack_unpacked divisor_canonical,
    ofParts, unpacked, unpacked, unpacked, dif_pos dividend_pos, dif_pos divisor_pos,
    dif_pos positive]
  exact congrArg _ (congrArg _
    (div_of_nearest dividend_pos divisor_pos canonical positive nearest))

/-- A decimal with places after the point is read as the float whose interval holds it. -/
theorem ofScientific_of_nearest {coefficient places : Nat} (coefficient_pos : 0 < coefficient)
    (places_pos : 0 < places) (few : places ≤ 2048 + coefficient.log2)
    (canonical : Canonical significand unit) (positive : 0 < significand)
    (nearest : Nearest significand unit (coefficient / 10 ^ places)) :
    Float.ofScientific coefficient true places = ofParts false significand unit := by
  unfold Float.ofScientific
  split
  · rename_i small
    rcases small with ⟨coefficient_lt, places_le⟩
    have five_lt : 5 ^ places < 2 ^ 53 :=
      calc 5 ^ places ≤ 5 ^ 22 := Nat.pow_le_pow_right (by norm_num) places_le
        _ < 2 ^ 53 := by norm_num
    have five_pos : 0 < 5 ^ places := by positivity
    have table := powersOfTen_eq_ofParts ⟨places, by omega⟩
    have dividend : Canonical (aligned coefficient) (0 + coefficient.log2 - 52) :=
      canonical_aligned coefficient_lt coefficient_pos (by omega) (by omega)
    have divisor : Canonical (aligned (5 ^ places)) (places + (5 ^ places).log2 - 52) :=
      canonical_aligned five_lt five_pos (by omega) (by omega)
    have exact : (aligned coefficient * 2 ^ ((0 : Int) + coefficient.log2 - 52) /
        (aligned (5 ^ places) * 2 ^ ((places : Int) + (5 ^ places).log2 - 52)) : ℚ) =
        coefficient / 10 ^ places := by
      rw [aligned_mul coefficient_lt coefficient_pos, aligned_mul five_lt five_pos, zpow_zero,
        mul_one, zpow_natCast, Nat.cast_pow, ← mul_pow]
      norm_num
    rw [← exact] at nearest
    rw [zero_add] at dividend nearest
    simp only [if_true]
    rw [toFloat_eq_ofParts coefficient_lt coefficient_pos]
    exact (congrArg _ table).trans (div_ofParts dividend (aligned_pos coefficient_pos) divisor
      (aligned_pos five_pos) canonical positive nearest)
  · have exact : (coefficient * 2 ^ (0 : Int) / ((10 ^ places : Nat) * 2 ^ (0 : Int)) : ℚ) =
        coefficient / 10 ^ places := by
      push_cast
      rw [mul_one, mul_one]
    rw [← exact] at nearest
    have magnitude : (-(-(places : Int))).toNat = places := by omega
    have notHuge : ¬-(places : Int) > 2 ^ Format.binary64.exponentBits := by norm_num
    have notTiny : ¬-(places : Int) < -((2 ^ Format.binary64.exponentBits : Int) +
        coefficient.log2) := by
      norm_num
      omega
    have divided : UnpackedFloat.ofScientific Format.binary64 coefficient (-(places : Int)) =
        unpacked false significand unit := by
      rw [UnpackedFloat.ofScientific, dif_neg coefficient_pos.ne', if_neg notHuge, if_neg notTiny,
        if_neg (by omega), unpacked, dif_pos positive]
      simp only [magnitude]
      exact div_of_nearest coefficient_pos (by positivity) canonical positive nearest
    simp only [if_true, Int.negOfNat_eq, Int.ofNat_eq_natCast]
    rw [Float.Model.ofScientific, divided]
    rfl

end Division

end Binary64

namespace Decimal

theorem length_digits_le_iff {number length : Nat} (positive : 0 < length) :
    (digits number).length ≤ length ↔ number < 10 ^ length :=
  Nat.length_toDigits_le_iff (by decide) positive

/-- A decimal near the point, with places after it, is read as the float whose interval holds it. -/
theorem nearestFloat_of_nearest {coefficient places significand : Nat} {unit : Int}
    (coefficient_pos : 0 < coefficient) (places_pos : 0 < places)
    (lower : -330 ≤ leadingPosition coefficient (-(places : Int)))
    (upper : leadingPosition coefficient (-(places : Int)) ≤ 310)
    (canonical : Binary64.Canonical significand unit) (positive : 0 < significand)
    (nearest : Binary64.Nearest significand unit (coefficient / 10 ^ places)) :
    nearestFloat coefficient (-(places : Int)) = Binary64.ofParts false significand unit := by
  have few : places ≤ 2048 + coefficient.log2 := by
    have coefficient_lt : coefficient < 10 ^ (coefficient.log2 + 1) :=
      calc coefficient < 2 ^ (coefficient.log2 + 1) := Nat.lt_log2_self
        _ ≤ 10 ^ (coefficient.log2 + 1) := Nat.pow_le_pow_left (by norm_num) _
    have length_le := (length_digits_le_iff (Nat.succ_pos _)).mpr coefficient_lt
    rw [leadingPosition] at lower
    omega
  have inRange : (coefficient == 0 ||
      decide (leadingPosition coefficient (-(places : Int)) < -330)) = false := by
    simp only [Bool.or_eq_false_iff, beq_eq_false_iff_ne, decide_eq_false_iff_not]
    exact ⟨coefficient_pos.ne', by omega⟩
  have sign : decide (-(places : Int) < 0) = true := by
    rw [decide_eq_true_iff]
    omega
  rw [nearestFloat, inRange, if_neg Bool.false_ne_true, if_neg (by omega), sign, Int.natAbs_neg,
    Int.natAbs_natCast]
  exact Binary64.ofScientific_of_nearest coefficient_pos places_pos few canonical positive nearest

end Decimal

end MeteredRules
