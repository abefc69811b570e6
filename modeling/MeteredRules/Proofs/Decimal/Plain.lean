import MeteredRules.Proofs.Decimal.Layout
import MeteredRules.Proofs.Decimal.Nearest
import MeteredRules.Proofs.Decimal.Shortest

/-!
# Plain notation

A float is written plainly exactly if its magnitude is zero or lies between the two bounds of the
layout. What is written then has a point with digits on both sides, and these digits denote the
shortest decimal of the float.
-/

namespace MeteredRules

namespace Decimal

/-! ## Positions of the point -/

/-- The position of the point tells which powers of ten a decimal reaches. -/
theorem position_le_iff {coefficient : Nat} (positive : 0 < coefficient) {power bound : Int} :
    power + (digits coefficient).length ≤ bound ↔
      (coefficient * 10 ^ power : ℚ) < 10 ^ bound := by
  have power_pos : (0 : ℚ) < 10 ^ power := by positivity
  have length_pos : 0 < (digits coefficient).length := Nat.length_toDigits_pos
  rcases lt_or_ge power bound with above | below
  · have split : (10 : ℚ) ^ bound = (10 ^ (bound - power).toNat : Nat) * 10 ^ power := by
      push_cast
      rw [← zpow_natCast, ← zpow_add₀ (by norm_num)]
      congr 1
      omega
    have length_le : power + (digits coefficient).length ≤ bound ↔
        (digits coefficient).length ≤ (bound - power).toNat := by omega
    rw [split, mul_lt_mul_iff_left₀ power_pos, Nat.cast_lt, length_le]
    exact length_digits_le_iff (by omega)
  · have one_le : (1 : ℚ) ≤ coefficient := by exact_mod_cast positive
    have reached : (10 : ℚ) ^ bound ≤ coefficient * 10 ^ power :=
      calc (10 : ℚ) ^ bound ≤ 10 ^ power := zpow_le_zpow_right₀ (by norm_num) below
        _ = 1 * 10 ^ power := (one_mul _).symm
        _ ≤ coefficient * 10 ^ power := mul_le_mul_of_nonneg_right one_le power_pos.le
    constructor
    · intro position_le
      omega
    · intro less
      exact absurd less (not_lt.mpr reached)

theorem ofDigits_append_zeros (text : List Char) (amount : Nat) :
    ofDigits (text ++ List.replicate amount '0') = ofDigits text * 10 ^ amount := by
  rw [ofDigits, Nat.ofDigitChars_append, Nat.ofDigitChars_replicate_zero, ofDigits, mul_comm]

theorem ofDigits_zeros_append (amount : Nat) (text : List Char) :
    ofDigits (List.replicate amount '0' ++ text) = ofDigits text := by
  rw [ofDigits, Nat.ofDigitChars_append, Nat.ofDigitChars_replicate_zero, mul_zero, ofDigits]

theorem div_pow_eq_mul_zpow (coefficient : ℚ) {places : Nat} {power : Int}
    (opposite : power = -(places : Int)) :
    coefficient / 10 ^ places = coefficient * 10 ^ power := by
  rw [opposite, zpow_neg, zpow_natCast, div_eq_mul_inv]

/-- Digits in plain notation have a point in them that stands at its position. -/
theorem exists_plain_eq (coefficient : Nat) (power : Int) :
    ∃ whole fraction, isDigits whole = true ∧ isDigits fraction = true ∧
      plain (digits coefficient) (power + (digits coefficient).length) =
        whole ++ '.' :: fraction ∧
      (ofDigits (whole ++ fraction) / 10 ^ fraction.length : ℚ) = coefficient * 10 ^ power := by
  have value := ofDigits_digits coefficient
  have allDigits : ∀ character ∈ digits coefficient, character.isDigit = true :=
    fun _ => isDigit_of_mem_digits
  have length_pos : 0 < (digits coefficient).length := Nat.length_toDigits_pos
  generalize digits coefficient = text at value allDigits length_pos
  subst value
  have text_ne : text ≠ [] := List.ne_nil_of_length_pos length_pos
  have zeroDigit : ∀ {amount : Nat} {character : Char},
      character ∈ List.replicate amount '0' → character.isDigit = true := by
    intro amount character character_mem
    rw [List.eq_of_mem_replicate character_mem]
    rfl
  unfold plain
  split
  · rename_i nonpos
    refine ⟨['0'], List.replicate (-(power + text.length)).toNat '0' ++ text, rfl, ?_, rfl, ?_⟩
    · rw [isDigits_iff]
      exact ⟨by simp [text_ne], List.forall_mem_append.mpr ⟨fun _ => zeroDigit, allDigits⟩⟩
    · have opposite : power =
          -((List.replicate (-(power + text.length)).toNat '0' ++ text).length : Int) := by
        rw [List.length_append, List.length_replicate]
        omega
      have zero : ['0'] = List.replicate 1 '0' := rfl
      rw [zero, ofDigits_zeros_append, ofDigits_zeros_append]
      exact div_pow_eq_mul_zpow _ opposite
  split
  · rename_i pos long
    refine ⟨text ++ List.replicate ((power + text.length).toNat - text.length) '0', ['0'], ?_, rfl,
      by simp, ?_⟩
    · rw [isDigits_iff]
      exact ⟨by simp [text_ne], List.forall_mem_append.mpr ⟨allDigits, fun _ => zeroDigit⟩⟩
    · have exponent : ((power + text.length).toNat - text.length : Nat) = power.toNat := by omega
      have zero : ['0'] = List.replicate 1 '0' := rfl
      have whole : (power.toNat : Int) = power := by omega
      rw [zero, ofDigits_append_zeros, ofDigits_append_zeros, exponent, List.length_replicate]
      push_cast
      rw [pow_one, mul_div_cancel_right₀ _ (by norm_num), ← zpow_natCast, whole]
  · rename_i pos short
    have take_ne : text.take (power + text.length).toNat ≠ [] := by
      apply List.ne_nil_of_length_pos
      rw [List.length_take]
      omega
    have drop_length : (text.drop (power + text.length).toNat).length = (-power).toNat := by
      rw [List.length_drop]
      omega
    refine ⟨_, _, ?_, ?_, rfl, ?_⟩
    · rw [isDigits_iff]
      exact ⟨take_ne, fun character taken => allDigits character (List.mem_of_mem_take taken)⟩
    · rw [isDigits_iff]
      refine ⟨List.ne_nil_of_length_pos (by omega), ?_⟩
      exact fun character dropped => allDigits character (List.mem_of_mem_drop dropped)
    · rw [List.take_append_drop, drop_length]
      exact div_pow_eq_mul_zpow _ (by omega)

end Decimal

/-! ## Bounds of plain notation -/

namespace Binary64

variable {significand : Nat} {exponent : Int}

/--
A float below a bound has all of its interval below the bound, if no float comes nearer to the bound
than half of its last digit.
-/
theorem upperEnd_lt_of_lt (canonical : Canonical significand exponent) {bound : ℚ} {unit : Int}
    (above_least : leastExponent ≤ unit) (lower : 2 ^ 53 * 2 ^ (unit - 1) ≤ bound)
    (upper : bound ≤ 2 ^ 52 * 2 ^ (unit + 1))
    (apart : ∀ number : Nat, number * 2 ^ unit < bound → (number + 1 / 2) * 2 ^ unit < bound)
    (less : significand * 2 ^ exponent < bound) : upperEnd significand exponent < bound := by
  have significand_lt := canonical.significand_lt
  rw [hiddenBit_eq] at significand_lt
  rcases lt_trichotomy exponent unit with below | rfl | above
  · have short : (significand : ℚ) + 1 / 2 < 2 ^ 53 := by
      have short : (significand : ℚ) + 1 ≤ 2 ^ 53 := by
        have short : significand + 1 ≤ 2 ^ 53 := by omega
        exact_mod_cast short
      linarith
    have power_le : (2 : ℚ) ^ exponent ≤ 2 ^ (unit - 1) :=
      zpow_le_zpow_right₀ (by norm_num) (by omega)
    calc upperEnd significand exponent = (significand + 1 / 2) * 2 ^ exponent := rfl
      _ < 2 ^ 53 * 2 ^ exponent := mul_lt_mul_of_pos_right short (by positivity)
      _ ≤ 2 ^ 53 * 2 ^ (unit - 1) := by gcongr
      _ ≤ bound := lower
  · exact apart significand less
  · have full : hiddenBit ≤ significand := canonical.normal.resolve_left (by omega)
    rw [hiddenBit_eq] at full
    have full : (2 : ℚ) ^ 52 ≤ significand := by exact_mod_cast full
    have power_le : (2 : ℚ) ^ (unit + 1) ≤ 2 ^ exponent :=
      zpow_le_zpow_right₀ (by norm_num) (by omega)
    have reached : bound ≤ significand * 2 ^ exponent :=
      calc bound ≤ 2 ^ 52 * 2 ^ (unit + 1) := upper
        _ ≤ significand * 2 ^ exponent := by gcongr
    exact absurd less (not_lt.mpr reached)

theorem upperEnd_lt_ten_pow_sixteen (canonical : Canonical significand exponent)
    (less : (significand * 2 ^ exponent : ℚ) < 10 ^ (16 : Int)) :
    upperEnd significand exponent < 10 ^ (16 : Int) := by
  apply upperEnd_lt_of_lt canonical (by decide : leastExponent ≤ 1) (by norm_num) (by norm_num) _
    less
  intro number number_lt
  have number_le : number + 1 ≤ 5000000000000000 := by
    have scaled : (number : ℚ) < 5000000000000000 := by
      norm_num at number_lt
      linarith
    exact_mod_cast scaled
  have number_le : (number : ℚ) + 1 ≤ 5000000000000000 := by exact_mod_cast number_le
  norm_num
  linarith

theorem upperEnd_lt_ten_pow_neg_four (canonical : Canonical significand exponent)
    (less : (significand * 2 ^ exponent : ℚ) < 10 ^ (-4 : Int)) :
    upperEnd significand exponent < 10 ^ (-4 : Int) := by
  apply upperEnd_lt_of_lt canonical (by decide : leastExponent ≤ -66) (by norm_num) (by norm_num) _
    less
  intro number number_lt
  have number_le : number ≤ 7378697629483820 := by
    have scaled : (number : ℚ) < 7378697629483821 := by
      norm_num at number_lt
      linarith
    have scaled : number < 7378697629483821 := by exact_mod_cast scaled
    omega
  have number_le : (number : ℚ) ≤ 7378697629483820 := by exact_mod_cast number_le
  norm_num
  linarith

end Binary64

namespace Number

open Binary64 Decimal

/-- Floats that are written without an exponent: zeros, and from `0.0001` to below `1e16`. -/
def isPlain (value : Float) : Bool :=
  match Parts.ofFloat value with
  | .finite _ significand exponent =>
    significand == 0 ||
      Nat.pow 2 (-exponent).toNat ≤ Nat.pow 10 4 * (significand * Nat.pow 2 exponent.toNat) &&
        significand * Nat.pow 2 exponent.toNat < Nat.pow 10 16 * Nat.pow 2 (-exponent).toNat
  | _ => false

/-- The magnitudes that are written without an exponent. -/
def Between (significand : Nat) (exponent : Int) : Prop :=
  (10 : ℚ) ^ (-4 : Int) ≤ significand * 2 ^ exponent ∧
    (significand * 2 ^ exponent : ℚ) < 10 ^ (16 : Int)

variable {significand : Nat} {exponent : Int}

theorem le_scaled_iff :
    Nat.pow 2 (-exponent).toNat ≤ Nat.pow 10 4 * (significand * Nat.pow 2 exponent.toNat) ↔
      (10 : ℚ) ^ (-4 : Int) ≤ significand * 2 ^ exponent := by
  rw [Interval.zpow_eq_toNat_div two_ne_zero exponent, ← mul_div_assoc, le_div_iff₀ (by positivity)]
  simp only [Nat.pow_eq]
  rw [← @Nat.cast_le ℚ]
  push_cast
  norm_num
  constructor <;> intro bound <;> linarith

theorem scaled_lt_iff :
    significand * Nat.pow 2 exponent.toNat < Nat.pow 10 16 * Nat.pow 2 (-exponent).toNat ↔
      (significand * 2 ^ exponent : ℚ) < 10 ^ (16 : Int) := by
  rw [Interval.zpow_eq_toNat_div two_ne_zero exponent, ← mul_div_assoc, div_lt_iff₀ (by positivity)]
  simp only [Nat.pow_eq]
  rw [← @Nat.cast_lt ℚ]
  push_cast
  norm_num

/-- The point of a float is compared with a bound as the float is with the power of ten. -/
theorem shortest_position_le_iff (canonical : Canonical significand exponent)
    (positive : 0 < significand) (tie : Tie) {bound : Int}
    (closed : (significand * 2 ^ exponent : ℚ) < 10 ^ bound →
      upperEnd significand exponent < 10 ^ bound) :
    (shortest tie significand exponent).exponent +
        (digits (shortest tie significand exponent).coefficient).length ≤ bound ↔
      (significand * 2 ^ exponent : ℚ) < 10 ^ bound := by
  have holds := holds_shortest canonical positive tie
  rw [position_le_iff holds.positive]
  constructor
  · intro less
    by_contra reached
    exact absurd less (not_lt.mpr (holds.zpow_le (not_lt.mp reached)))
  · intro less
    exact (holds.nearest positive).upper.trans_lt (closed less)

/-- The layout chooses plain notation between the two bounds. -/
theorem between_iff (canonical : Canonical significand exponent) (positive : 0 < significand) :
    let decimal := shortest floatLayout.tie significand exponent
    let position := decimal.exponent + (digits decimal.coefficient).length
    (decide (floatLayout.leastPlain ≤ position) &&
      decide (position ≤ floatLayout.greatestPlain)) = true ↔ Between significand exponent := by
  intro decimal position
  have reaches : floatLayout.leastPlain ≤ position ↔
      (10 : ℚ) ^ (-4 : Int) ≤ significand * 2 ^ exponent := by
    have below : position ≤ -4 ↔ (significand * 2 ^ exponent : ℚ) < 10 ^ (-4 : Int) :=
      shortest_position_le_iff canonical positive floatLayout.tie
        (upperEnd_lt_ten_pow_neg_four canonical)
    have least : floatLayout.leastPlain ≤ position ↔ ¬position ≤ -4 := by
      have bound : floatLayout.leastPlain = -3 := rfl
      omega
    rw [least, below, not_lt]
  have stays : position ≤ floatLayout.greatestPlain ↔
      (significand * 2 ^ exponent : ℚ) < 10 ^ (16 : Int) :=
    shortest_position_le_iff canonical positive floatLayout.tie
      (upperEnd_lt_ten_pow_sixteen canonical)
  rw [Bool.and_eq_true, decide_eq_true_iff, decide_eq_true_iff, reaches, stays, Between]

theorem magnitude_of_between (canonical : Canonical significand exponent)
    (positive : 0 < significand) (between : Between significand exponent) :
    floatLayout.magnitude significand exponent =
      plain (digits (shortest floatLayout.tie significand exponent).coefficient)
        ((shortest floatLayout.tie significand exponent).exponent +
          (digits (shortest floatLayout.tie significand exponent).coefficient).length) := by
  have nonzero : (significand == 0) = false := by simpa using positive.ne'
  rw [Layout.magnitude, nonzero, if_neg Bool.false_ne_true]
  exact if_pos ((between_iff canonical positive).mpr between)

theorem mark_mem_magnitude (canonical : Canonical significand exponent) (positive : 0 < significand)
    (outside : ¬Between significand exponent) :
    'e' ∈ floatLayout.magnitude significand exponent := by
  have nonzero : (significand == 0) = false := by simpa using positive.ne'
  rw [Layout.magnitude, nonzero, if_neg Bool.false_ne_true]
  dsimp only
  rw [if_neg (mt (between_iff canonical positive).mp outside)]
  simp [scientific]

theorem nearestFloat_eq_ofParts {whole fraction : List Char}
    (canonical : Canonical significand exponent) (positive : 0 < significand)
    (between : Between significand exponent) (isFraction : isDigits fraction = true)
    (value_eq : (ofDigits (whole ++ fraction) / 10 ^ fraction.length : ℚ) =
      (shortest floatLayout.tie significand exponent).coefficient *
        10 ^ (shortest floatLayout.tie significand exponent).exponent) :
    nearestFloat (ofDigits (whole ++ fraction)) (-(fraction.length : Int)) =
      ofParts false significand exponent := by
  have holds := holds_shortest canonical positive floatLayout.tie
  have nearest := holds.nearest positive
  have least := holds.zpow_le between.1
  have greatest := nearest.upper.trans_lt (upperEnd_lt_ten_pow_sixteen canonical between.2)
  rw [← value_eq] at nearest least greatest
  have coefficient_pos : 0 < ofDigits (whole ++ fraction) := by
    rw [Nat.pos_iff_ne_zero]
    intro zero
    rw [zero, Nat.cast_zero, zero_div] at least
    exact absurd least (not_le.mpr (by positivity))
  have position_le : ∀ {bound : Int},
      leadingPosition (ofDigits (whole ++ fraction)) (-(fraction.length : Int)) ≤ bound ↔
        (ofDigits (whole ++ fraction) / 10 ^ fraction.length : ℚ) < 10 ^ bound := by
    intro bound
    rw [div_pow_eq_mul_zpow _ rfl, leadingPosition]
    exact position_le_iff coefficient_pos
  have lower := mt position_le.mp (not_lt.mpr least)
  have upper := position_le.mpr greatest
  exact nearestFloat_of_nearest coefficient_pos
    (List.length_pos_of_ne_nil (isDigits_iff.mp isFraction).1) (by omega) (by omega) canonical
    positive nearest

/-- A float that is written plainly is the float that its digits denote. -/
theorem exists_magnitude_eq (canonical : Canonical significand exponent)
    (plainly : significand = 0 ∨ Between significand exponent) :
    ∃ whole fraction, isDigits whole = true ∧ isDigits fraction = true ∧
      floatLayout.magnitude significand exponent = whole ++ '.' :: fraction ∧
      nearestFloat (ofDigits (whole ++ fraction)) (-(fraction.length : Int)) =
        ofParts false significand exponent := by
  rcases Nat.eq_zero_or_pos significand with rfl | positive
  · have least : exponent = -1074 := by
      rcases canonical.normal with least | full
      · exact least
      · exact absurd full (by decide)
    rw [least]
    exact ⟨['0'], ['0'], rfl, rfl, rfl, by decide +kernel⟩
  · have between := plainly.resolve_left positive.ne'
    have magnitude := magnitude_of_between canonical positive between
    obtain ⟨whole, fraction, isWhole, isFraction, text_eq, value_eq⟩ := exists_plain_eq
      (shortest floatLayout.tie significand exponent).coefficient
      (shortest floatLayout.tie significand exponent).exponent
    rw [text_eq] at magnitude
    exact ⟨whole, fraction, isWhole, isFraction, magnitude,
      nearestFloat_eq_ofParts canonical positive between isFraction value_eq⟩

theorem isPlain_iff {value : Float} {negative : Bool}
    (parts : Parts.ofFloat value = .finite negative significand exponent) :
    isPlain value = true ↔ significand = 0 ∨ Between significand exponent := by
  simp only [isPlain, parts, Bool.or_eq_true, Bool.and_eq_true, beq_iff_eq, decide_eq_true_iff,
    le_scaled_iff, scaled_lt_iff, Between]

end Number

end MeteredRules
