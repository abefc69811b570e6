import MeteredRules.Proofs.Calendar
import MeteredRules.Proofs.Instant.Scan
import MeteredRules.Proofs.Instant.Text

/-!
# Reading back what was written

An instant is read back from its text exactly if its year has four digits and no sign. Then the
strict form takes the text apart into the numbers that it was made of. A year with a sign is refused
by the strict form, and all other forms stop before the final `Z`, which none of their pieces takes.
-/

namespace MeteredRules.Instant

open Scan

/-! ## The loose forms -/

theorem spares_looseNumber (most : Nat) : Spares 'Z' (looseNumber most) :=
  (spares_blanks (by decide)).bind fun _ => spares_number (by decide) most

theorem spares_looseYear : Spares 'Z' looseYear := by
  refine (spares_blanks (by decide)).bind fun _ => ?_
  intro text rest value read present
  have signed : ∀ {digits : List Char} (sign : Nat → Int), 'Z' ∈ digits →
      (Scan.number digits.length >>= fun magnitude => pure (sign magnitude)).run digits =
        some (value, rest) → 'Z' ∈ rest := by
    intro digits sign inDigits taken
    exact ((spares_number (by decide) _).bind fun _ => spares_pure _) taken inDigits
  rw [run_bind_some (run_get text)] at read
  split at read
  · exact signed (fun magnitude => -magnitude) (List.mem_of_ne_of_mem (by decide) present) read
  · exact signed (fun magnitude => magnitude) (List.mem_of_ne_of_mem (by decide) present) read
  · exact ((spares_number (by decide) 4).bind fun _ => spares_pure _) read present

theorem spares_looseDate : Spares 'Z' looseDate :=
  spares_looseYear.bind fun _ => (spares_literal (by decide)).bind fun _ =>
    (spares_looseNumber 2).bind fun _ => (spares_literal (by decide)).bind fun _ =>
      (spares_looseNumber 2).bind fun _ => spares_pure _

theorem refuses_looseDateTime {mark : Scan Unit} (marked : Spares 'Z' mark) (withSeconds : Bool) :
    Refuses 'Z' (looseDateTime mark withSeconds) := by
  refine spares_looseDate.refuses_bind fun date => marked.refuses_bind fun _ =>
    (spares_looseNumber 2).refuses_bind fun hour =>
      (spares_literal (by decide)).refuses_bind fun _ =>
        (spares_looseNumber 2).refuses_bind fun minute => ?_
  split
  · exact (spares_literal (by decide)).refuses_bind fun _ =>
      (spares_looseNumber 2).refuses_bind fun second =>
        (spares_fraction (by decide) (by decide)).refuses_bind fun nanos => refuses_finish_bind _
  · exact refuses_finish_bind _

theorem refuses_looseMidnight : Refuses 'Z' looseMidnight :=
  spares_looseDate.refuses_bind fun _ => refuses_finish_bind _

/-! ## The strict form -/

theorem run_fraction_fractionText {nanos : Nat} (nanos_lt : nanos < 1000000000) (rest : List Char) :
    Scan.fraction.run (fractionText nanos ++ 'Z' :: rest) = some (nanos, 'Z' :: rest) := by
  have ended : 'Z'.isDigit = false := by decide
  unfold fractionText
  split
  · rename_i zero
    rw [zero]
    exact run_fraction_of_head (by simp)
  split
  · rename_i millis
    have fits : nanos / 1000000 < Nat.pow 10 3 := by
      change _ < 1000
      omega
    rw [List.cons_append, run_fraction_padded (by decide) (by decide) fits ended]
    have whole : nanos / 1000000 * Nat.pow 10 (9 - 3) = nanos := by
      change _ * 1000000 = _
      omega
    rw [whole]
  split
  · rename_i micros
    have fits : nanos / 1000 < Nat.pow 10 6 := by
      change _ < 1000000
      omega
    rw [List.cons_append, run_fraction_padded (by decide) (by decide) fits ended]
    have whole : nanos / 1000 * Nat.pow 10 (9 - 6) = nanos := by
      change _ * 1000 = _
      omega
    rw [whole]
  · have fits : nanos < Nat.pow 10 9 := nanos_lt
    rw [List.cons_append, run_fraction_padded (by decide) (by decide) fits ended]
    have whole : nanos * Nat.pow 10 (9 - 9) = nanos := Nat.mul_one nanos
    rw [whole]

theorem run_offset_utc (rest : List Char) : offset.run ('Z' :: rest) = some (0, rest) :=
  rfl

theorem run_strictForm {year month day hour minute second nanos : Nat} (year_lt : year < 10000)
    (month_lt : month < 100) (day_lt : day < 100) (hour_lt : hour < 100) (minute_lt : minute < 100)
    (second_lt : second < 100) (nanos_lt : nanos < 1000000000) :
    strictForm.run (Decimal.padded 4 year ++ '-' :: (Decimal.padded 2 month ++ '-' ::
      (Decimal.padded 2 day ++ 'T' :: (Decimal.padded 2 hour ++ ':' ::
        (Decimal.padded 2 minute ++ ':' :: (Decimal.padded 2 second ++
          (fractionText nanos ++ ['Z']))))))) =
      (ofDateTime? ⟨year, month, day⟩ hour minute second nanos 0).map fun instant =>
        (instant, []) := by
  have four : ∀ {number : Nat} (rest : List Char), number < 10000 →
      (fixedNumber 4).run (Decimal.padded 4 number ++ rest) = some (number, rest) :=
    fun rest number_lt => run_fixedNumber_padded (by decide) number_lt rest
  have two : ∀ {number : Nat} (rest : List Char), number < 100 →
      (fixedNumber 2).run (Decimal.padded 2 number ++ rest) = some (number, rest) :=
    fun rest number_lt => run_fixedNumber_padded (by decide) number_lt rest
  rw [strictForm, run_bind_some (four _ year_lt), run_bind_some (run_literal '-' _),
    run_bind_some (two _ month_lt), run_bind_some (run_literal '-' _),
    run_bind_some (two _ day_lt), run_bind_some (run_character_cons _ 'T' _),
    run_bind_some (two _ hour_lt), run_bind_some (run_literal ':' _),
    run_bind_some (two _ minute_lt), run_bind_some (run_literal ':' _),
    run_bind_some (two _ second_lt), run_bind_some (run_fraction_fractionText nanos_lt []),
    run_bind_some (run_offset_utc []), run_bind_some (run_finish [])]
  rcases ofDateTime? ⟨year, month, day⟩ hour minute second nanos 0 with _ | instant
  · rfl
  · rfl

section DateTime

variable {date : Date} {hour minute second : Nat}

theorem ofDateTime?_of_lt (valid : date.isValid = true) (early : -262143 ≤ date.year)
    (late : date.year ≤ 262142) (hour_le : hour ≤ 23) (minute_le : minute ≤ 59)
    (second_lt : second < 60) (nanos : Nat) :
    ofDateTime? date hour minute second nanos 0 =
      ofUnix? (date.toDayNumber * 86400 + (hour * 3600 + minute * 60 + second)) nanos := by
  have ordinary : (second == 60) = false := beq_eq_false_iff_ne.mpr (Nat.ne_of_lt second_lt)
  simp [ofDateTime?, valid, early, late, hour_le, minute_le, Nat.le_of_lt second_lt, ordinary,
    secondsPerDay]

theorem ofDateTime?_sixty (valid : date.isValid = true) (early : -262143 ≤ date.year)
    (late : date.year ≤ 262142) (hour_le : hour ≤ 23) (minute_le : minute ≤ 59) (nanos : Nat) :
    ofDateTime? date hour minute 60 nanos 0 =
      ofUnix? (date.toDayNumber * 86400 + (hour * 3600 + minute * 60 + 59))
        (nanos + nanosPerSecond) := by
  simp [ofDateTime?, valid, early, late, hour_le, minute_le, secondsPerDay]

end DateTime

/-- An instant is put together from its date and its time of day. -/
theorem ofDateTime?_eq_some (instant : Instant) (early : -262143 ≤ instant.date.year)
    (late : instant.date.year ≤ 262142) :
    let leap := if nanosPerSecond ≤ instant.nanos then 1 else 0
    ofDateTime? instant.date (instant.secondOfDay / 3600) (instant.secondOfDay / 60 % 60)
      (instant.secondOfDay % 60 + leap) (instant.nanos - leap * nanosPerSecond) 0 =
        some instant := by
  have valid : instant.date.isValid = true := Date.isValid_ofDayNumber _
  have day_eq : instant.date.toDayNumber = instant.seconds / 86400 :=
    Date.toDayNumber_ofDayNumber _
  have second_eq : (instant.secondOfDay : Int) = instant.seconds % 86400 :=
    Int.toNat_of_nonneg (Int.emod_nonneg _ (by decide))
  have hour_le : instant.secondOfDay / 3600 ≤ 23 := by omega
  have minute_le : instant.secondOfDay / 60 % 60 ≤ 59 := by omega
  have second_lt : instant.secondOfDay % 60 < 60 := Nat.mod_lt _ (by decide)
  have seconds_eq : instant.date.toDayNumber * 86400 +
      ((instant.secondOfDay / 3600 : Nat) * 3600 + (instant.secondOfDay / 60 % 60 : Nat) * 60 +
        (instant.secondOfDay % 60 : Nat)) = instant.seconds := by omega
  have whole : ofUnix? instant.seconds instant.nanos = some instant := by
    rw [ofUnix?, dif_pos instant.inRange, dif_pos instant.fraction]
  have fraction := instant.fraction
  by_cases isLeap : 1000000000 ≤ instant.nanos
  · have last : instant.secondOfDay % 60 = 59 := by omega
    rw [last] at seconds_eq
    have nanos_eq : instant.nanos - 1 * nanosPerSecond + nanosPerSecond = instant.nanos :=
      Nat.sub_add_cancel isLeap
    simp only [if_pos (show nanosPerSecond ≤ instant.nanos from isLeap), last]
    rw [ofDateTime?_sixty valid early late hour_le minute_le, nanos_eq, ← whole, ← seconds_eq]
    rfl
  · simp only [if_neg (show ¬nanosPerSecond ≤ instant.nanos from isLeap), Nat.add_zero]
    rw [ofDateTime?_of_lt valid early late hour_le minute_le second_lt, seconds_eq, Nat.zero_mul,
      Nat.sub_zero, whole]

/-! ## Texts of instants -/

theorem trim_render (instant : Instant) :
    Text.trim instant.render.toList = instant.render.toList := by
  refine Text.trim_eq_self fun character character_mem => ?_
  rcases mem_render character_mem with digit | mark
  · exact Text.isBlank_of_isDigit digit
  · have free : (marks.all fun mark => !Text.isBlank mark) = true := by decide
    simpa using List.all_eq_true.mp free character mark

theorem run_strictForm_render {instant : Instant} (early : 0 ≤ instant.date.year)
    (late : instant.date.year ≤ 9999) :
    strictForm.run instant.render.toList = some (instant, []) := by
  have valid : instant.date.isValid = true := Date.isValid_ofDayNumber _
  rcases Date.bounds_of_isValid valid with ⟨month_lt, day_lt⟩
  have second_lt : instant.secondOfDay < 86400 := by
    have emod_lt : instant.seconds % 86400 < 86400 := Int.emod_lt_of_pos _ (by decide)
    exact (Int.toNat_lt' (by decide)).mpr emod_lt
  have leap_le : (if nanosPerSecond ≤ instant.nanos then 1 else 0) ≤ 1 := by
    split <;> decide
  have nanos_lt : instant.nanos - (if nanosPerSecond ≤ instant.nanos then 1 else 0) *
      nanosPerSecond < 1000000000 := by
    have fraction := instant.fraction
    have perSecond : nanosPerSecond = 1000000000 := rfl
    split <;> omega
  have year_eq : (instant.date.year.natAbs : Int) = instant.date.year :=
    Int.natAbs_of_nonneg early
  have whole := ofDateTime?_eq_some instant (by omega) (by omega)
  rw [render, String.toList_ofList, dateText, timeText, yearText, if_pos ⟨early, late⟩]
  simp only [List.append_assoc, List.cons_append]
  rw [run_strictForm (by omega) month_lt day_lt (by omega) (by omega) (by omega) nanos_lt, year_eq,
    whole]
  rfl

/-- An instant with a sign in front of its year is not read back. -/
theorem read?_render_of_signed {instant : Instant}
    (signed : ¬(0 ≤ instant.date.year ∧ instant.date.year ≤ 9999)) :
    read? instant.render.toList = none := by
  have present : 'Z' ∈ instant.render.toList := by
    simp [render]
  have strict : strictForm.run instant.render.toList = none := by
    obtain ⟨sign, rest, noDigit, text_eq⟩ : ∃ sign rest, sign.isDigit = false ∧
        instant.render.toList = sign :: rest := by
      rw [render, String.toList_ofList, dateText, yearText, if_neg signed]
      exact ⟨_, _, by split <;> decide, rfl⟩
    rw [text_eq]
    exact run_bind_none (run_fixedNumber_of_head (by decide) noDigit rest) _
  have loose : ∀ form ∈ forms, form.run instant.render.toList = none := by
    have marked : Spares 'Z' (Scan.literal 'T') := spares_literal (by decide)
    have blanks : Spares 'Z' Scan.blanks := spares_blanks (by decide)
    simp only [forms, List.forall_mem_cons]
    exact ⟨strict, refuses_looseDateTime marked true present,
      refuses_looseDateTime marked false present, refuses_looseDateTime blanks true present,
      refuses_looseDateTime blanks false present, refuses_looseMidnight present, by simp⟩
  rw [read?, trim_render, List.findSome?_eq_none_iff]
  intro form form_mem
  rw [loose form form_mem]
  rfl

/-- An instant is read back from its text if and only if its year has four digits and no sign. -/
theorem read?_render_iff (instant : Instant) :
    read? instant.render.toList = some instant ↔
      0 ≤ instant.date.year ∧ instant.date.year ≤ 9999 := by
  constructor
  · intro readsBack
    apply Decidable.byContradiction
    intro signed
    rw [read?_render_of_signed signed] at readsBack
    simp at readsBack
  · rintro ⟨early, late⟩
    rw [read?, trim_render, forms, List.findSome?_cons, run_strictForm_render early late]
    rfl

end MeteredRules.Instant
