import Mathlib.Data.List.Induction
import MeteredRules.Proofs.Decimal.Digits

/-!
# Integer texts

Which texts denote an integer, and which one: an optional sign and decimal digits, where every
further digit counts ten times what stands before it. Leading zeros are allowed. What is said here
does not mention how integers are read; reading is then shown to find exactly these texts.
-/

namespace MeteredRules.Decimal

/-- The number that a digit stands for. -/
def digitValue (digit : Char) : Nat :=
  digit.toNat - '0'.toNat

/-- One or more digits, with the number that they denote. -/
inductive Numeral : List Char → Nat → Prop where
  | digit {digit : Char} (isDigit : digit.isDigit = true) : Numeral [digit] (digitValue digit)
  | append {digits : List Char} {value : Nat} {digit : Char} (front : Numeral digits value)
      (isDigit : digit.isDigit = true) :
      Numeral (digits ++ [digit]) (10 * value + digitValue digit)

/-- An optional sign and digits, with the integer that they denote. -/
inductive IntegerText : List Char → Int → Prop where
  | plain {digits : List Char} {value : Nat} (numeral : Numeral digits value) :
      IntegerText digits value
  | plus {digits : List Char} {value : Nat} (numeral : Numeral digits value) :
      IntegerText ('+' :: digits) value
  | minus {digits : List Char} {value : Nat} (numeral : Numeral digits value) :
      IntegerText ('-' :: digits) (-value)

variable {text : List Char} {value : Nat} {number : Int}

/-! ## Reading digits -/

theorem ofDigits_concat (digits : List Char) (digit : Char) :
    ofDigits (digits ++ [digit]) = 10 * ofDigits digits + digitValue digit := by
  simp [ofDigits, digitValue, Nat.ofDigitChars_append, Nat.ofDigitChars_cons]

theorem ofDigits_singleton (digit : Char) : ofDigits [digit] = digitValue digit := by
  simp [ofDigits, digitValue, Nat.ofDigitChars_cons]

theorem isDigits_concat {digits : List Char} {digit : Char} (nonempty : digits ≠ []) :
    isDigits (digits ++ [digit]) = true ↔ isDigits digits = true ∧ digit.isDigit = true := by
  simp [isDigits, nonempty]

theorem Numeral.ne_nil {digits : List Char} (numeral : Numeral digits value) : digits ≠ [] := by
  cases numeral <;> simp

/-- Digits denote the number that is read from them. -/
theorem numeral_iff {digits : List Char} :
    Numeral digits value ↔ isDigits digits = true ∧ ofDigits digits = value := by
  constructor
  · intro numeral
    induction numeral with
    | @digit digit isDigit => exact ⟨by simp [isDigits, isDigit], ofDigits_singleton digit⟩
    | append front isDigit ih =>
        rw [isDigits_concat front.ne_nil, ofDigits_concat, ih.2]
        exact ⟨⟨ih.1, isDigit⟩, rfl⟩
  · rintro ⟨isDigits, rfl⟩
    induction digits using List.reverseRecOn with
    | nil => simp [Decimal.isDigits] at isDigits
    | append_singleton front digit ih =>
        by_cases first : front = []
        · subst first
          have isDigit : digit.isDigit = true := by simpa [Decimal.isDigits] using isDigits
          rw [List.nil_append, ofDigits_singleton]
          exact .digit isDigit
        · rw [isDigits_concat first] at isDigits
          rw [ofDigits_concat]
          exact .append (ih isDigits.1) isDigits.2

theorem readNat?_eq_some_iff : readNat? text = some value ↔ Numeral text value := by
  rw [numeral_iff, readNat?]
  split
  · rename_i isDigits
    simp [isDigits]
  · rename_i noDigits
    simp [noDigits]

/-! ## Reading integers -/

theorem IntegerText.ne_nil (denotes : IntegerText text number) : text ≠ [] := by
  cases denotes with
  | plain numeral => exact numeral.ne_nil
  | plus | minus => exact List.cons_ne_nil _ _

/-- An integer text is made of digits and signs. -/
theorem IntegerText.mem {character : Char} (denotes : IntegerText text number)
    (character_mem : character ∈ text) :
    character.isDigit = true ∨ character = '+' ∨ character = '-' := by
  have inDigits : ∀ {digits : List Char} {value : Nat}, Numeral digits value →
      character ∈ digits → character.isDigit = true :=
    fun numeral digit_mem => (isDigits_iff.mp (numeral_iff.mp numeral).1).2 character digit_mem
  cases denotes with
  | plain numeral => exact .inl (inDigits numeral character_mem)
  | plus numeral =>
      rcases List.mem_cons.mp character_mem with sign | digit
      · exact .inr (.inl sign)
      · exact .inl (inDigits numeral digit)
  | minus numeral =>
      rcases List.mem_cons.mp character_mem with sign | digit
      · exact .inr (.inr sign)
      · exact .inl (inDigits numeral digit)

theorem readInt?_eq (text : List Char) :
    readInt? text = (readNat? (splitSign text).2).map fun magnitude : Nat =>
      if (splitSign text).1 then -(magnitude : Int) else magnitude := by
  cases read : readNat? (splitSign text).2 <;> simp [readInt?, read]

/-- An integer is read exactly from the texts that denote it. -/
theorem readInt?_eq_some_iff : readInt? text = some number ↔ IntegerText text number := by
  rw [readInt?_eq, Option.map_eq_some_iff]
  constructor
  · rintro ⟨value, read, rfl⟩
    rw [readNat?_eq_some_iff] at read
    unfold splitSign at read ⊢
    split at read
    · exact .minus read
    · exact .plus read
    · exact .plain read
  · intro denotes
    cases denotes with
    | @plain digits value numeral =>
        have sign := splitSign_of_isDigits (numeral_iff.mp numeral).1 []
        rw [List.append_nil] at sign
        rw [sign]
        exact ⟨value, readNat?_eq_some_iff.mpr numeral, rfl⟩
    | @plus digits value numeral => exact ⟨value, readNat?_eq_some_iff.mpr numeral, rfl⟩
    | @minus digits value numeral => exact ⟨value, readNat?_eq_some_iff.mpr numeral, rfl⟩

/-! ## Writing integers -/

theorem numeral_digits (number : Nat) : Numeral (digits number) number :=
  numeral_iff.mpr ⟨isDigits_digits number, ofDigits_digits number⟩

/-- An integer is denoted by what is written for it. -/
theorem integerText_ofInt (number : Int) : IntegerText (ofInt number) number := by
  have numeral := numeral_digits number.natAbs
  unfold ofInt
  split
  · rename_i negative
    have denotes := IntegerText.minus numeral
    rwa [Int.ofNat_natAbs_of_nonpos (Int.le_of_lt negative), Int.neg_neg] at denotes
  · rename_i nonneg
    have denotes := IntegerText.plain numeral
    rwa [Int.natAbs_of_nonneg (Int.not_lt.mp nonneg)] at denotes

end MeteredRules.Decimal
