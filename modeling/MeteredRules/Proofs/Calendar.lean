import MeteredRules.Calendar

/-!
# Dates and their numbers

The date with a given number is a date of the calendar and has that number. The proof follows the
way the date is found: first the year and the day of the year, then the month and the day.
-/

namespace MeteredRules.Date

/-- The length of a year. -/
def daysInYear (year : Int) : Nat :=
  if isLeapYear year then 366 else 365

theorem sum_monthLengths (year : Int) : (monthLengths year).foldr (· + ·) 0 = daysInYear year := by
  unfold monthLengths daysInYear
  split <;> rfl

theorem isLeapYear_iff {year : Int} :
    isLeapYear year = true ↔ year % 4 = 0 ∧ (year % 100 ≠ 0 ∨ year % 400 = 0) := by
  simp [isLeapYear]

theorem daysInMonth_le (year : Int) (month : Nat) : daysInMonth year month ≤ 31 := by
  have lengths_le : ∀ length ∈ monthLengths year, length ≤ 31 := by
    unfold monthLengths
    cases isLeapYear year <;> decide
  unfold daysInMonth
  rw [List.getD_eq_getElem?_getD]
  rcases found : (monthLengths year)[month - 1]? with _ | length
  · exact Nat.zero_le 31
  · exact lengths_le length (List.mem_of_getElem? found)

theorem bounds_of_isValid {date : Date} (valid : date.isValid = true) :
    date.month < 100 ∧ date.day < 100 := by
  simp only [isValid, Bool.and_eq_true, decide_eq_true_eq] at valid
  have day_le := daysInMonth_le date.year date.month
  omega

/-- A day of the year is found in the month that holds it. -/
theorem exists_locate_eq {lengths : List Nat} {month dayOfYear : Nat}
    (inYear : dayOfYear < lengths.foldr (· + ·) 0) :
    ∃ index day, index < lengths.length ∧ locate lengths month dayOfYear = (month + index, day) ∧
      1 ≤ day ∧ day ≤ lengths.getD index 0 ∧
      (lengths.take index).foldr (· + ·) 0 + day = dayOfYear + 1 := by
  induction lengths generalizing month dayOfYear with
  | nil => simp at inYear
  | cons length lengths ih =>
      rw [locate]
      split
      · rename_i inMonth
        exact ⟨0, dayOfYear + 1, by simp, by simp, by omega, inMonth, by simp⟩
      · rename_i later
        have inRest : dayOfYear - length < lengths.foldr (· + ·) 0 := by
          rw [List.foldr_cons] at inYear
          omega
        obtain ⟨index, day, index_lt, located, day_pos, day_le, day_eq⟩ :=
          @ih (month + 1) (dayOfYear - length) inRest
        refine ⟨index + 1, day, by simpa using index_lt, ?_, day_pos, by simpa using day_le, ?_⟩
        · rw [located, Nat.add_assoc, Nat.add_comm 1]
        · rw [List.take_succ_cons, List.foldr_cons]
          omega

/-- The last year of four is a leap year, unless it ends a century that does not end a cycle. -/
theorem isLeapYear_of_last {cycle : Int} {century quadrennium : Nat}
    (quadrennium_le : quadrennium ≤ 24) (endsCycle : quadrennium = 24 → century = 3) :
    isLeapYear (400 * cycle + 100 * century + 4 * quadrennium + (3 : Nat) + 1) = true := by
  rw [isLeapYear_iff]
  omega

/-- The year of a number and the day in it. -/
theorem exists_dayOfYear (number : Int) :
    ∃ dayOfYear, dayOfYear < daysInYear (ofDayNumber number).year ∧
      daysBeforeYear (ofDayNumber number).year + dayOfYear = number + epoch ∧
      ((ofDayNumber number).month, (ofDayNumber number).day) =
        locate (monthLengths (ofDayNumber number).year) 1 dayOfYear := by
  simp only [ofDayNumber]
  generalize number + epoch = days
  have cycle_eq := Int.mul_ediv_add_emod days 146097
  have inCycle_nonneg := Int.emod_nonneg days (by decide : (146097 : Int) ≠ 0)
  have inCycle_lt := Int.emod_lt_of_pos days (by decide : (0 : Int) < 146097)
  generalize days / 146097 = cycle at *
  generalize days % 146097 = rest at *
  rcases Int.eq_ofNat_of_zero_le inCycle_nonneg with ⟨inCycle, rfl⟩
  rw [Int.toNat_natCast]
  generalize century_eq : min 3 (inCycle / 36524) = century
  generalize inCentury_eq : inCycle - 36524 * century = inCentury
  generalize quadrennium_eq : inCentury / 1461 = quadrennium
  generalize inQuadrennium_eq : inCentury % 1461 = inQuadrennium
  generalize ordinary_eq : min 3 (inQuadrennium / 365) = ordinary
  generalize dayOfYear_eq : inQuadrennium - 365 * ordinary = dayOfYear
  have century_le : century ≤ 3 := by omega
  have inCentury_le : inCentury ≤ 36524 := by omega
  have quadrennium_le : quadrennium ≤ 24 := by omega
  have ordinary_le : ordinary ≤ 3 := by omega
  refine ⟨dayOfYear, ?_, ?_, rfl⟩
  · rw [daysInYear]
    split
    · omega
    · rename_i notLeap
      apply Nat.lt_of_not_le
      intro late
      have dayOfYear_last : dayOfYear = 365 := by omega
      have ordinary_last : ordinary = 3 := by omega
      have endsCycle : quadrennium = 24 → century = 3 := by omega
      rw [ordinary_last] at notLeap
      exact notLeap (isLeapYear_of_last quadrennium_le endsCycle)
  · have leapYears : (400 * cycle + 100 * century + 4 * quadrennium + ordinary + 1 - 1) / 4 =
        100 * cycle + 25 * century + quadrennium := by omega
    have centuries : (400 * cycle + 100 * century + 4 * quadrennium + ordinary + 1 - 1) / 100 =
        4 * cycle + century := by omega
    have cycles : (400 * cycle + 100 * century + 4 * quadrennium + ordinary + 1 - 1) / 400 =
        cycle := by omega
    rw [daysBeforeYear, leapYears, centuries, cycles]
    omega

theorem isValid_ofDayNumber (number : Int) : (ofDayNumber number).isValid = true := by
  rcases exists_dayOfYear number with ⟨dayOfYear, inYear, _, found⟩
  rw [← sum_monthLengths] at inYear
  rcases exists_locate_eq inYear with ⟨index, day, index_lt, located, day_pos, day_le, _⟩
  rw [located] at found
  rcases Prod.mk.inj found with ⟨month_eq, day_eq⟩
  have length_eq : (monthLengths (ofDayNumber number).year).length = 12 := rfl
  have month_sub : 1 + index - 1 = index := by omega
  simp only [isValid, daysInMonth, month_eq, day_eq, month_sub, Bool.and_eq_true,
    decide_eq_true_eq]
  omega

theorem toDayNumber_ofDayNumber (number : Int) : (ofDayNumber number).toDayNumber = number := by
  rcases exists_dayOfYear number with ⟨dayOfYear, inYear, days_eq, found⟩
  rw [← sum_monthLengths] at inYear
  rcases exists_locate_eq inYear with ⟨index, day, _, located, _, _, sum_eq⟩
  rw [located] at found
  rcases Prod.mk.inj found with ⟨month_eq, day_eq⟩
  have month_sub : 1 + index - 1 = index := by omega
  rw [toDayNumber, daysBeforeMonth, month_eq, day_eq, month_sub]
  omega

end MeteredRules.Date
