import MeteredRules.Instant.Reading
import MeteredRules.Proofs.Decimal.Digits
import MeteredRules.Proofs.Text.Runs

/-!
# Pieces of an instant

What the readers of the pieces do with a text. A reader that succeeds takes a beginning of the text;
which characters it can take is stated as what it spares: a character that no piece can be made of
is still there after reading.
-/

namespace MeteredRules

namespace Decimal

theorem length_padded {width number : Nat} (positive : 0 < width)
    (fits : number < Nat.pow 10 width) : (padded width number).length = width := by
  have length_le : (digits number).length ≤ width :=
    (Nat.length_toDigits_le_iff (by decide) positive).mpr fits
  rw [padded, List.length_append, List.length_replicate]
  omega

theorem ofDigits_padded (width number : Nat) : ofDigits (padded width number) = number := by
  rw [padded, ofDigits, Nat.ofDigitChars_append, Nat.ofDigitChars_replicate_zero, Nat.mul_zero]
  exact ofDigits_digits number

end Decimal

namespace Instant.Scan

variable {α β : Type}

/-! ## Running readers -/

theorem run_bind (scan : Scan α) (next : α → Scan β) (text : List Char) :
    (scan >>= next).run text =
      match scan.run text with
      | some (value, rest) => (next value).run rest
      | none => none := by
  rw [StateT.run_bind]
  rcases scan.run text with _ | ⟨value, rest⟩
  · rfl
  · rfl

theorem run_bind_some {scan : Scan α} {text rest : List Char} {value : α}
    (first : scan.run text = some (value, rest)) (next : α → Scan β) :
    (scan >>= next).run text = (next value).run rest := by
  rw [run_bind, first]

theorem run_bind_none {scan : Scan α} {text : List Char} (first : scan.run text = none)
    (next : α → Scan β) : (scan >>= next).run text = none := by
  rw [run_bind, first]

theorem run_get (text : List Char) : (get : Scan (List Char)).run text = some (text, text) := rfl

theorem run_character_cons (accepted : Char → Bool) (next : Char) (rest : List Char) :
    (character accepted).run (next :: rest) =
      if accepted next then some (next, rest) else none := by
  change (if accepted next then set rest >>= fun _ => pure next else failure : Scan Char).run _ = _
  split
  · rfl
  · rfl

theorem run_literal (expected : Char) (rest : List Char) :
    (literal expected).run (expected :: rest) = some ((), rest) := by
  rw [literal, run_bind, run_character_cons, if_pos (beq_self_eq_true expected)]
  rfl

theorem run_fixedNumber (width : Nat) (text : List Char) :
    (fixedNumber width).run text =
      if (text.take width).length == width && (text.take width).all Char.isDigit then
        some (Decimal.ofDigits (text.take width), text.drop width)
      else none := by
  change (if (text.take width).length == width && (text.take width).all Char.isDigit then
    set (text.drop width) >>= fun _ => pure (Decimal.ofDigits (text.take width))
    else failure : Scan Nat).run _ = _
  split
  · rfl
  · rfl

theorem run_number (most : Nat) (text : List Char) :
    (number most).run text =
      if ((text.take most).takeWhile Char.isDigit).isEmpty then none
      else some (Decimal.ofDigits ((text.take most).takeWhile Char.isDigit),
        text.drop ((text.take most).takeWhile Char.isDigit).length) := by
  rw [number, run_bind]
  change (if ((text.take most).takeWhile Char.isDigit).isEmpty then _ else _ : Scan Nat).run _ = _
  split
  · rfl
  · rfl

theorem run_fraction_point (rest : List Char) :
    fraction.run ('.' :: rest) =
      if (rest.takeWhile Char.isDigit).isEmpty then none
      else
        let taken := rest.takeWhile Char.isDigit
        some (Decimal.ofDigits (taken.take 9) * Nat.pow 10 (9 - (taken.take 9).length),
          rest.drop taken.length) := by
  rw [fraction, run_bind]
  change (if (rest.takeWhile Char.isDigit).isEmpty then _ else _ : Scan Nat).run _ = _
  split
  · rfl
  · rfl

theorem run_fraction_of_head {text : List Char} (noPoint : text.head? ≠ some '.') :
    fraction.run text = some (0, text) := by
  rw [fraction, run_bind_some (run_get text)]
  split
  · simp at noPoint
  · rfl

theorem run_finish (text : List Char) :
    finish.run text = if text.isEmpty then some ((), []) else none := by
  cases text with
  | nil => rfl
  | cons => rfl

theorem run_fixedNumber_padded {width number : Nat} (positive : 0 < width)
    (fits : number < Nat.pow 10 width) (rest : List Char) :
    (fixedNumber width).run (Decimal.padded width number ++ rest) = some (number, rest) := by
  have length_eq := Decimal.length_padded positive fits
  have allDigits : (Decimal.padded width number).all Char.isDigit = true := by
    rw [List.all_eq_true]
    exact fun character => Decimal.isDigit_of_mem_padded
  rw [run_fixedNumber, List.take_left' length_eq, List.drop_left' length_eq, allDigits, length_eq,
    Decimal.ofDigits_padded]
  simp

theorem run_fixedNumber_of_head {width : Nat} {first : Char} (positive : 0 < width)
    (noDigit : first.isDigit = false) (rest : List Char) :
    (fixedNumber width).run (first :: rest) = none := by
  obtain ⟨less, rfl⟩ : ∃ less, width = less + 1 := ⟨width - 1, by omega⟩
  rw [run_fixedNumber]
  simp [noDigit]

/-- A fraction is read from its digits, of which as many are missing as zeros have to be added. -/
theorem run_fraction_padded {width number : Nat} {next : Char} {rest : List Char}
    (positive : 0 < width) (short : width ≤ 9) (fits : number < Nat.pow 10 width)
    (ended : next.isDigit = false) :
    fraction.run ('.' :: (Decimal.padded width number ++ next :: rest)) =
      some (number * Nat.pow 10 (9 - width), next :: rest) := by
  have length_eq := Decimal.length_padded positive fits
  have taken : (Decimal.padded width number ++ next :: rest).takeWhile Char.isDigit =
      Decimal.padded width number := by
    apply Text.takeWhile_append_of_ended (fun character => Decimal.isDigit_of_mem_padded)
    intro first head
    obtain rfl : next = first := by simpa using head
    exact ended
  have nonempty : (Decimal.padded width number).isEmpty = false := by
    rw [List.isEmpty_eq_false_iff]
    exact List.ne_nil_of_length_pos (by omega)
  rw [run_fraction_point]
  simp only [taken, nonempty]
  rw [List.take_of_length_le (by omega), Decimal.ofDigits_padded, length_eq,
    List.drop_left' length_eq]
  rfl

/-! ## What is spared -/

/-- A reader that takes the character from no text. -/
def Spares (mark : Char) (scan : Scan α) : Prop :=
  ∀ ⦃text rest : List Char⦄ ⦃value : α⦄,
    scan.run text = some (value, rest) → mark ∈ text → mark ∈ rest

/-- A reader that fails on every text with the character in it. -/
def Refuses (mark : Char) (scan : Scan α) : Prop :=
  ∀ ⦃text : List Char⦄, mark ∈ text → scan.run text = none

variable {mark : Char}

theorem spares_pure (value : α) : Spares mark (pure value : Scan α) := by
  intro text rest result read present
  obtain ⟨rfl, rfl⟩ : value = result ∧ text = rest := by simpa using read
  exact present

theorem Spares.bind {scan : Scan α} {next : α → Scan β} (first : Spares mark scan)
    (second : ∀ value, Spares mark (next value)) : Spares mark (scan >>= next) := by
  intro text rest result read present
  rw [run_bind] at read
  split at read
  · rename_i value middle taken
    exact second value read (first taken present)
  · simp at read

/-- A character that is spared by all pieces stands in the way at the end. -/
theorem Spares.refuses_bind {scan : Scan α} {next : α → Scan β} (first : Spares mark scan)
    (second : ∀ value, Refuses mark (next value)) : Refuses mark (scan >>= next) := by
  intro text present
  rw [run_bind]
  split
  · rename_i value middle taken
    exact second value (first taken present)
  · rfl

theorem refuses_finish_bind (next : Unit → Scan α) : Refuses mark (finish >>= next) := by
  intro text present
  apply run_bind_none
  have nonempty : text.isEmpty = false := by
    rw [List.isEmpty_eq_false_iff]
    exact List.ne_nil_of_mem present
  rw [run_finish, nonempty]
  rfl

theorem spares_character {accepted : Char → Bool} (refused : accepted mark = false) :
    Spares mark (character accepted) := by
  intro text rest value read present
  cases text with
  | nil => simp at present
  | cons first text =>
      rw [run_character_cons] at read
      split at read
      · rename_i taken
        obtain ⟨_, rfl⟩ : first = value ∧ text = rest := by simpa using read
        refine List.mem_of_ne_of_mem ?_ present
        rintro rfl
        simp [refused] at taken
      · simp at read

theorem spares_literal {expected : Char} (other : mark ≠ expected) :
    Spares mark (literal expected) :=
  (spares_character (by simpa using other)).bind fun _ => spares_pure ()

theorem mem_drop_of_noDigit {text taken : List Char} (noDigit : mark.isDigit = false)
    (starts : taken <+: text) (digits : ∀ character ∈ taken, character.isDigit = true)
    (present : mark ∈ text) : mark ∈ text.drop taken.length := by
  rcases starts with ⟨rest, rfl⟩
  rw [List.drop_left]
  rcases List.mem_append.mp present with inTaken | inRest
  · simp [digits mark inTaken] at noDigit
  · exact inRest

theorem spares_number (noDigit : mark.isDigit = false) (most : Nat) :
    Spares mark (number most) := by
  intro text rest value read present
  rw [run_number] at read
  split at read
  · simp at read
  · rcases Prod.mk.inj (Option.some.inj read) with ⟨_, rfl⟩
    apply mem_drop_of_noDigit noDigit _ (List.all_eq_true.mp List.all_takeWhile) present
    exact (List.takeWhile_prefix _).trans (List.take_prefix _ _)

theorem spares_blanks (notBlank : Text.isBlank mark = false) : Spares mark blanks := by
  intro text rest value read present
  obtain rfl : Text.trimStart text = rest := congrArg Prod.snd (Option.some.inj read)
  rw [← @List.takeWhile_append_dropWhile _ Text.isBlank text] at present
  rcases List.mem_append.mp present with blank | left
  · have isBlank := List.all_eq_true.mp List.all_takeWhile _ blank
    simp [notBlank] at isBlank
  · exact left

theorem spares_fraction (noDigit : mark.isDigit = false) (noPoint : mark ≠ '.') :
    Spares mark fraction := by
  intro text rest value read present
  by_cases point : text.head? = some '.'
  · obtain ⟨after, rfl⟩ : ∃ after, text = '.' :: after := by
      cases text with
      | nil => simp at point
      | cons first after => exact ⟨after, by simpa using point⟩
    rw [run_fraction_point] at read
    split at read
    · simp at read
    · rcases Prod.mk.inj (Option.some.inj read) with ⟨_, rfl⟩
      exact mem_drop_of_noDigit noDigit (List.takeWhile_prefix _)
        (List.all_eq_true.mp List.all_takeWhile) (List.mem_of_ne_of_mem noPoint present)
  · rw [run_fraction_of_head point] at read
    rcases Prod.mk.inj (Option.some.inj read) with ⟨_, rfl⟩
    exact present

end Instant.Scan

end MeteredRules
