import MeteredRules.Decimal.Shortest
import MeteredRules.Proofs.Binary64.Nearest

/-!
# The shortest decimal lies in the interval of rounding

The decimal that is found for a float is rounded to that float. It is found on one of the grids that
are tried, because the last of them is finer than the interval. It also stays on the same side of
every power of ten that a float can be compared with: it is not below a power that the float
reaches.
-/

namespace MeteredRules.Decimal

open Binary64

/-! ## Points on a grid -/

namespace Interval

/-- The distance of the points of a grid, in the same units as the interval. -/
def step (interval : Interval) (power : Int) : Nat :=
  Nat.pow 10 power.toNat * interval.denominator

/-- The unit that the distances of an interval are counted in. -/
def unit (interval : Interval) (power : Int) : Nat :=
  Nat.pow 10 (-power).toNat * interval.numerator

/-- A point of a grid that lies in an interval, at most one step below its value. -/
structure Holds (interval : Interval) (power : Int) (coefficient : Nat) : Prop where
  positive : 0 < coefficient
  below_le : interval.below * interval.unit power ≤ coefficient * interval.step power
  le_above : coefficient * interval.step power ≤ interval.above * interval.unit power
  tie : coefficient * interval.step power = interval.below * interval.unit power ∨
    coefficient * interval.step power = interval.above * interval.unit power →
      interval.inclusive = true
  value_lt : interval.value * interval.unit power < (coefficient + 1) * interval.step power

variable {interval : Interval} {power : Int}

/-- What is found on a grid is the lower or the upper neighbour of the value, if it fits. -/
theorem onGrid?_cases {tie : Tie} {scaled : Scaled}
    (found : interval.onGrid? tie power = some scaled) :
    let lower := interval.value * interval.unit power / interval.step power
    let Contains (left right : Nat) := left < right ∨ (left = right ∧ interval.inclusive = true)
    (scaled = ⟨lower, power⟩ ∧ lower ≠ 0 ∧
      Contains (interval.below * interval.unit power) (lower * interval.step power)) ∨
    (scaled = ⟨lower + 1, power⟩ ∧
      Contains ((lower + 1) * interval.step power) (interval.above * interval.unit power)) := by
  intro lower Contains
  simp only [onGrid?] at found
  split at found
  · rename_i fits
    simp only [Bool.and_eq_true, bne_iff_ne, ne_eq, Bool.or_eq_true, decide_eq_true_eq,
      beq_iff_eq] at fits
    exact .inl ⟨(Option.some.inj found).symm, fits.1⟩
  split at found
  · rename_i fits
    simp only [Bool.or_eq_true, decide_eq_true_eq, Bool.and_eq_true, beq_iff_eq] at fits
    exact .inr ⟨(Option.some.inj found).symm, fits⟩
  · simp at found

theorem isSome_onGrid? {tie : Tie}
    (fits : (interval.value * interval.unit power / interval.step power + 1) *
      interval.step power < interval.above * interval.unit power) :
    (interval.onGrid? tie power).isSome = true := by
  rw [unit, step] at fits
  simp only [onGrid?, fits, decide_true, Bool.true_or]
  split <;> rfl

theorem holds_of_onGrid? {tie : Tie} {scaled : Scaled} (below_lt : interval.below < interval.value)
    (lt_above : interval.value < interval.above) (unit_pos : 0 < interval.unit power)
    (step_pos : 0 < interval.step power)
    (found : interval.onGrid? tie power = some scaled) :
    scaled.exponent = power ∧ interval.Holds power scaled.coefficient := by
  have below_unit : interval.below * interval.unit power < interval.value * interval.unit power :=
    Nat.mul_lt_mul_of_pos_right below_lt unit_pos
  have unit_above : interval.value * interval.unit power < interval.above * interval.unit power :=
    Nat.mul_lt_mul_of_pos_right lt_above unit_pos
  have floor_le := Nat.div_mul_le_self (interval.value * interval.unit power) (interval.step power)
  have lt_floor := Nat.lt_mul_of_div_lt
    (Nat.lt_add_one (interval.value * interval.unit power / interval.step power)) step_pos
  have cases := onGrid?_cases found
  generalize interval.value * interval.unit power / interval.step power = lower at *
  have next : (lower + 1 + 1) * interval.step power =
      (lower + 1) * interval.step power + interval.step power := Nat.succ_mul _ _
  rcases cases with ⟨rfl, nonzero, contains⟩ | ⟨rfl, contains⟩
  · refine ⟨rfl, Nat.pos_of_ne_zero nonzero, ?_, ?_, ?_, lt_floor⟩ <;> dsimp only
    · rcases contains with less | ⟨equal, _⟩ <;> omega
    · omega
    · rintro (atBelow | atAbove)
      · rcases contains with less | ⟨_, inclusive⟩
        · omega
        · exact inclusive
      · omega
  · refine ⟨rfl, Nat.succ_pos _, ?_, ?_, ?_, ?_⟩ <;> dsimp only
    · omega
    · rcases contains with less | ⟨equal, _⟩ <;> omega
    · rintro (atBelow | atAbove)
      · omega
      · rcases contains with less | ⟨_, inclusive⟩
        · omega
        · exact inclusive
    · omega

/-! ## Intervals of floats -/

variable {significand coefficient : Nat} {exponent : Int}

theorem zpow_eq_toNat_div {base : ℚ} (nonzero : base ≠ 0) (exponent : Int) :
    base ^ exponent = base ^ exponent.toNat / base ^ (-exponent).toNat := by
  rw [eq_div_iff (pow_ne_zero _ nonzero), ← zpow_natCast, ← zpow_natCast, ← zpow_add₀ nonzero]
  congr 1
  omega

/-- Units and steps are the quarter of the last binary digit and the power of ten, scaled alike. -/
theorem exists_ratio (significand : Nat) (exponent power : Int) :
    ∃ ratio : ℚ, 0 < ratio ∧
      (2 : ℚ) ^ (exponent - 2) = ratio * (ofParts significand exponent).unit power ∧
      (10 : ℚ) ^ power = ratio * (ofParts significand exponent).step power := by
  refine ⟨1 / (10 ^ (-power).toNat * 2 ^ (2 - exponent).toNat), by positivity, ?_, ?_⟩
  · have swapped : -(exponent - 2) = 2 - exponent := by omega
    rw [zpow_eq_toNat_div two_ne_zero, swapped, unit, ofParts]
    simp only [Nat.pow_eq]
    push_cast
    field_simp
  · rw [zpow_eq_toNat_div (by norm_num), step, ofParts]
    simp only [Nat.pow_eq]
    push_cast
    field_simp

theorem quarter_eq (exponent : Int) : (2 : ℚ) ^ exponent = 4 * 2 ^ (exponent - 2) := by
  have split : (2 : ℚ) ^ exponent = 2 ^ (2 : Int) * 2 ^ (exponent - 2) := by
    rw [← zpow_add₀ two_ne_zero]
    congr 1
    omega
  rw [split]
  norm_num

theorem lowerEnd_eq (positive : 0 < significand) :
    lowerEnd significand exponent =
      (ofParts significand exponent).below * 2 ^ (exponent - 2) := by
  rw [lowerEnd, quarter_eq, ofParts]
  simp only [Bool.and_eq_true, beq_iff_eq, decide_eq_true_eq, gt_iff_lt]
  split
  · rw [Nat.cast_sub (by omega)]
    push_cast
    ring
  · rw [Nat.cast_sub (by omega)]
    push_cast
    ring

theorem upperEnd_eq : upperEnd significand exponent =
    (ofParts significand exponent).above * 2 ^ (exponent - 2) := by
  rw [upperEnd, quarter_eq, ofParts]
  push_cast
  ring

/-- A decimal in the interval of a float is rounded to the float. -/
theorem Holds.nearest (positive : 0 < significand)
    (holds : (ofParts significand exponent).Holds power coefficient) :
    Nearest significand exponent (coefficient * 10 ^ power) := by
  rcases exists_ratio significand exponent power with ⟨ratio, ratio_pos, unit_eq, step_eq⟩
  have inclusive : (ofParts significand exponent).inclusive = true → significand % 2 = 0 := by
    simp [ofParts]
  have scaled : (coefficient * 10 ^ power : ℚ) =
      ratio * (coefficient * (ofParts significand exponent).step power : Nat) := by
    rw [step_eq]
    push_cast
    ring
  have lower : lowerEnd significand exponent = ratio * ((ofParts significand exponent).below *
      (ofParts significand exponent).unit power : Nat) := by
    rw [lowerEnd_eq positive, unit_eq]
    push_cast
    ring
  have upper : upperEnd significand exponent = ratio * ((ofParts significand exponent).above *
      (ofParts significand exponent).unit power : Nat) := by
    rw [upperEnd_eq, unit_eq]
    push_cast
    ring
  rw [scaled]
  refine ⟨?_, ?_, ?_⟩
  · rw [lower]
    exact mul_le_mul_of_nonneg_left (by exact_mod_cast holds.below_le) ratio_pos.le
  · rw [upper]
    exact mul_le_mul_of_nonneg_left (by exact_mod_cast holds.le_above) ratio_pos.le
  · rw [lower, upper, mul_right_inj' ratio_pos.ne', mul_right_inj' ratio_pos.ne', Nat.cast_inj,
      Nat.cast_inj]
    intro atEnd
    exact inclusive (holds.tie atEnd)

theorem Holds.lt_add_one (holds : (ofParts significand exponent).Holds power coefficient) :
    (significand * 2 ^ exponent : ℚ) < (coefficient + 1 : Nat) * 10 ^ power := by
  rcases exists_ratio significand exponent power with ⟨ratio, ratio_pos, unit_eq, step_eq⟩
  have value_lt := holds.value_lt
  rw [quarter_eq, unit_eq, step_eq]
  have cast : (((ofParts significand exponent).value *
      (ofParts significand exponent).unit power : Nat) : ℚ) <
      ((coefficient + 1) * (ofParts significand exponent).step power : Nat) := by
    exact_mod_cast value_lt
  have value_eq : (ofParts significand exponent).value = 4 * significand := rfl
  rw [value_eq] at cast
  have scaled := mul_lt_mul_of_pos_left cast ratio_pos
  push_cast at scaled ⊢
  linarith

/-- A grid that is finer than half the distance of the floats has a point in the interval. -/
theorem isSome_onGrid?_of_fine {tie : Tie} (fine : (10 : ℚ) ^ power < 2 ^ (exponent - 1)) :
    ((ofParts significand exponent).onGrid? tie power).isSome = true := by
  rcases exists_ratio significand exponent power with ⟨ratio, ratio_pos, unit_eq, step_eq⟩
  have double : (2 : ℚ) ^ (exponent - 1) = 2 * 2 ^ (exponent - 2) := by
    rw [mul_comm, ← zpow_add_one₀ two_ne_zero]
    congr 1
    omega
  rw [double, unit_eq, step_eq] at fine
  have step_lt : (ofParts significand exponent).step power <
      2 * (ofParts significand exponent).unit power := by
    have scaled : ratio * (ofParts significand exponent).step power <
        ratio * (2 * (ofParts significand exponent).unit power) := by linarith
    exact_mod_cast lt_of_mul_lt_mul_left scaled ratio_pos.le
  apply isSome_onGrid?
  have floor_le := Nat.div_mul_le_self ((ofParts significand exponent).value *
    (ofParts significand exponent).unit power) ((ofParts significand exponent).step power)
  have above_eq : (ofParts significand exponent).above *
      (ofParts significand exponent).unit power = (ofParts significand exponent).value *
        (ofParts significand exponent).unit power + 2 * (ofParts significand exponent).unit power :=
    Nat.add_mul _ _ _
  rw [above_eq, Nat.succ_mul]
  omega

/-- A decimal reaches every power of ten that the float reaches. -/
theorem Holds.zpow_le (holds : (ofParts significand exponent).Holds power coefficient)
    {bound : Int} (reached : (10 : ℚ) ^ bound ≤ significand * 2 ^ exponent) :
    (10 : ℚ) ^ bound ≤ coefficient * 10 ^ power := by
  have power_pos : (0 : ℚ) < 10 ^ power := by positivity
  rcases le_total power bound with coarse | fine
  · have split : (10 : ℚ) ^ bound = (10 ^ (bound - power).toNat : Nat) * 10 ^ power := by
      push_cast
      rw [← zpow_natCast, ← zpow_add₀ (by norm_num)]
      congr 1
      omega
    have multiple := reached.trans_lt holds.lt_add_one
    rw [split] at multiple ⊢
    have multiple_lt := lt_of_mul_lt_mul_right multiple power_pos.le
    have multiple_le : 10 ^ (bound - power).toNat ≤ coefficient :=
      Nat.lt_succ_iff.mp (by exact_mod_cast multiple_lt)
    exact mul_le_mul_of_nonneg_right (by exact_mod_cast multiple_le) power_pos.le
  · have one_le : (1 : ℚ) ≤ coefficient := by exact_mod_cast holds.positive
    calc (10 : ℚ) ^ bound ≤ 10 ^ power := zpow_le_zpow_right₀ (by norm_num) fine
      _ = 1 * 10 ^ power := (one_mul _).symm
      _ ≤ coefficient * 10 ^ power := mul_le_mul_of_nonneg_right one_le power_pos.le

end Interval

/-! ## The search -/

/-- The estimate for the number of decimal digits is at most a few binary digits too large. -/
theorem zpow_ten_le {exponent position : Int} (ratio : position * 100000 ≤ exponent * 30103)
    (lower : -1100 ≤ exponent) (upper : exponent ≤ 1100) :
    (10 : ℚ) ^ position ≤ 2 ^ (exponent + 4) := by
  rcases le_total 0 position with nonneg | nonpos
  · rw [← pow_le_pow_iff_left₀ (by positivity) (by positivity) (n := 3) (by norm_num)]
    calc ((10 : ℚ) ^ position) ^ 3 = (10 ^ 3) ^ position := by
          rw [← zpow_natCast, ← zpow_natCast, ← zpow_mul, ← zpow_mul, mul_comm]
      _ ≤ (2 ^ 10) ^ position := zpow_le_zpow_left₀ nonneg (by norm_num) (by norm_num)
      _ = 2 ^ (10 * position) := by rw [← zpow_natCast, ← zpow_mul]; norm_num
      _ ≤ 2 ^ ((exponent + 4) * 3) := zpow_le_zpow_right₀ (by norm_num) (by omega)
      _ = (2 ^ (exponent + 4)) ^ 3 := by rw [zpow_mul]; norm_cast
  · rw [← pow_le_pow_iff_left₀ (by positivity) (by positivity) (n := 28) (by norm_num)]
    have reversed : ((10 : ℚ) ^ 28) ^ position ≤ (2 ^ 93) ^ position := by
      obtain ⟨opposite, rfl⟩ : ∃ opposite, position = -opposite := ⟨-position, by omega⟩
      rw [zpow_neg, zpow_neg]
      apply inv_anti₀ (by positivity)
      exact zpow_le_zpow_left₀ (by omega) (by norm_num) (by norm_num)
    calc ((10 : ℚ) ^ position) ^ 28 = (10 ^ 28) ^ position := by
          rw [← zpow_natCast, ← zpow_natCast, ← zpow_mul, ← zpow_mul, mul_comm]
      _ ≤ (2 ^ 93) ^ position := reversed
      _ = 2 ^ (93 * position) := by rw [← zpow_natCast, ← zpow_mul]; norm_num
      _ ≤ 2 ^ ((exponent + 4) * 28) := zpow_le_zpow_right₀ (by norm_num) (by omega)
      _ = (2 ^ (exponent + 4)) ^ 28 := by rw [zpow_mul]; norm_cast

section Search

variable {significand : Nat} {exponent : Int}

/-- The last grid that is tried is fine enough. -/
theorem last_grid_fine (canonical : Canonical significand exponent) (positive : 0 < significand) :
    (10 : ℚ) ^ ((exponent + significand.log2 + 1) * 30103 / 100000 + 2 - (23 : Nat)) <
      2 ^ (exponent - 1) := by
  rcases canonical with ⟨significand_lt, least_le, le_greatest, _⟩
  rw [hiddenBit_eq] at significand_lt
  rw [leastExponent_eq] at least_le
  have log_lt : significand.log2 < 53 := (Nat.log2_lt positive.ne').mpr (by omega)
  generalize position_eq : (exponent + significand.log2 + 1) * 30103 / 100000 = position
  have estimate : (10 : ℚ) ^ position ≤ 2 ^ (exponent + significand.log2 + 1 + 4) :=
    zpow_ten_le (by omega) (by omega) (by omega)
  have split : (10 : ℚ) ^ (position + 2 - (23 : Nat)) = 10 ^ position * (10 ^ 21)⁻¹ := by
    rw [← zpow_natCast, ← zpow_neg, ← zpow_add₀ (by norm_num)]
    congr 1
    push_cast
    omega
  have small : ((10 : ℚ) ^ 21)⁻¹ < 2 ^ (-69 : Int) := by norm_num
  rw [split]
  calc (10 : ℚ) ^ position * (10 ^ 21)⁻¹
      ≤ 2 ^ (exponent + significand.log2 + 1 + 4) * (10 ^ 21)⁻¹ := by gcongr
    _ < 2 ^ (exponent + significand.log2 + 1 + 4) * 2 ^ (-69 : Int) := by gcongr
    _ = 2 ^ (exponent + significand.log2 + 1 + 4 + (-69)) := by rw [← zpow_add₀ two_ne_zero]
    _ ≤ 2 ^ (exponent - 1) := zpow_le_zpow_right₀ (by norm_num) (by omega)

/-- The shortest decimal of a float lies in its interval of rounding. -/
theorem holds_shortest (canonical : Canonical significand exponent) (positive : 0 < significand)
    (tie : Tie) :
    (Interval.ofParts significand exponent).Holds (shortest tie significand exponent).exponent
      (shortest tie significand exponent).coefficient := by
  have below_lt : (Interval.ofParts significand exponent).below <
      (Interval.ofParts significand exponent).value := by
    simp only [Interval.ofParts]
    split <;> omega
  have lt_above : (Interval.ofParts significand exponent).value <
      (Interval.ofParts significand exponent).above := by
    simp only [Interval.ofParts]
    omega
  have pow_pos : ∀ {base : Nat} (amount : Nat), 0 < base → 0 < Nat.pow base amount :=
    fun amount base_pos => Nat.pow_pos base_pos
  have unit_pos : ∀ power, 0 < (Interval.ofParts significand exponent).unit power :=
    fun power => Nat.mul_pos (pow_pos _ (by decide)) (pow_pos _ (by decide))
  have step_pos : ∀ power, 0 < (Interval.ofParts significand exponent).step power :=
    fun power => Nat.mul_pos (pow_pos _ (by decide)) (pow_pos _ (by decide))
  have last := @Interval.isSome_onGrid?_of_fine _ significand exponent tie
    (last_grid_fine canonical positive)
  obtain ⟨scaled, found⟩ : ∃ scaled, ((List.range 24).findSome? fun (step : Nat) =>
      (Interval.ofParts significand exponent).onGrid? tie
        ((exponent + significand.log2 + 1) * 30103 / 100000 + 2 - step)) = some scaled := by
    rw [← Option.isSome_iff_exists, List.findSome?_isSome_iff]
    exact ⟨23, by decide, last⟩
  rcases List.exists_of_findSome?_eq_some found with ⟨step, _, onGrid⟩
  obtain ⟨exponent_eq, holds⟩ :=
    Interval.holds_of_onGrid? below_lt lt_above (unit_pos _) (step_pos _) onGrid
  have result : shortest tie significand exponent = scaled := by
    simp only [shortest, found, Option.getD_some]
  rw [result, exponent_eq]
  exact holds

end Search

end MeteredRules.Decimal
