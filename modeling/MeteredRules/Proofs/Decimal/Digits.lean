import MeteredRules.Decimal.Digits

/-!
# Decimal integers and their digits

Writing a number and reading its digits are inverse to each other, also if zeros are filled in on
the left.
-/

namespace MeteredRules.Decimal

theorem isDigits_iff {text : List Char} :
    isDigits text = true ↔ text ≠ [] ∧ ∀ character ∈ text, character.isDigit = true := by
  simp [isDigits]

theorem isDigit_of_mem_digits {number : Nat} {character : Char}
    (character_mem : character ∈ digits number) : character.isDigit = true :=
  Nat.isDigit_of_mem_toDigits (by decide) (by decide) character_mem

theorem digits_ne_nil (number : Nat) : digits number ≠ [] :=
  Nat.toDigits_ne_nil

theorem isDigits_digits (number : Nat) : isDigits (digits number) = true :=
  isDigits_iff.mpr ⟨digits_ne_nil number, fun _ => isDigit_of_mem_digits⟩

theorem ofDigits_digits (number : Nat) : ofDigits (digits number) = number :=
  Nat.ofDigitChars_ten_toDigits

theorem isDigit_of_mem_padded {width number : Nat} {character : Char}
    (character_mem : character ∈ padded width number) : character.isDigit = true := by
  rcases List.mem_append.mp character_mem with zero | digit
  · rw [List.eq_of_mem_replicate zero]
    rfl
  · exact isDigit_of_mem_digits digit

theorem mem_ofInt {number : Int} {character : Char} (character_mem : character ∈ ofInt number) :
    character.isDigit = true ∨ character = '-' := by
  unfold ofInt at character_mem
  split at character_mem
  · rcases List.mem_cons.mp character_mem with rfl | digit
    · exact .inr rfl
    · exact .inl (isDigit_of_mem_digits digit)
  · exact .inl (isDigit_of_mem_digits character_mem)

theorem splitSign_of_isDigits {digits : List Char} (isDigits : isDigits digits = true)
    (rest : List Char) : splitSign (digits ++ rest) = (false, digits ++ rest) := by
  cases digits with
  | nil => simp [Decimal.isDigits] at isDigits
  | cons first digits =>
      have firstDigit := (isDigits_iff.mp isDigits).2 first (by simp)
      rw [List.cons_append]
      unfold splitSign
      split
      · rename_i equal
        cases equal
        simp at firstDigit
      · rename_i equal
        cases equal
        simp at firstDigit
      · rfl

theorem readNat?_of_isDigits {digits : List Char} (isDigits : isDigits digits = true) :
    readNat? digits = some (ofDigits digits) := by
  rw [readNat?, if_pos isDigits]

end MeteredRules.Decimal
