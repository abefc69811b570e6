import MeteredRules.Proofs.Decimal.Reading
import MeteredRules.Proofs.Reader.Grammar

/-!
# Words

What a word is read as is what it means: a number if it has the shape of one, one of the literal
words, or a name.
-/

namespace MeteredRules

namespace Number

theorem fit?_toInt (value : Int64) : fit? value.toInt = some value := by
  rw [fit?, if_pos ⟨Int64.le_toInt value, Int64.toInt_le value⟩, Int64.ofInt_toInt]

theorem toInt_of_fit? {number : Int} {value : Int64} (fits : fit? number = some value) :
    value.toInt = number := by
  rw [fit?] at fits
  split at fits
  · rename_i inRange
    obtain rfl : Int64.ofInt number = value := by simpa using fits
    exact Int64.toInt_ofInt_of_le inRange.1 (Int.lt_of_le_of_lt inRange.2 (by decide))
  · simp at fits

theorem exists_fit? {number : Int}
    (inside : Int64.minValue.toInt ≤ number ∧ number ≤ Int64.maxValue.toInt) :
    ∃ value : Int64, fit? number = some value ∧ value.toInt = number := by
  have fits : fit? number = some (Int64.ofInt number) := by
    rw [fit?, if_pos inside]
  exact ⟨_, fits, toInt_of_fit? fits⟩

theorem fit?_eq_none {number : Int}
    (outside : ¬(Int64.minValue.toInt ≤ number ∧ number ≤ Int64.maxValue.toInt)) :
    fit? number = none := by
  rw [fit?, if_neg outside]

end Number

namespace Reader

/-! ## Numbers -/

theorem IntegerWord.isIntegerWord {word : List Char} {number : Int}
    (isInteger : IntegerWord word number) : isIntegerWord word = true := by
  cases isInteger with
  | @plain digits isDigits =>
      unfold Reader.isIntegerWord
      split
      · simp [Decimal.isDigits] at isDigits
      · exact isDigits
  | minus isDigits => exact isDigits

theorem IntegerWord.readInt? {word : List Char} {number : Int}
    (isInteger : IntegerWord word number) : Decimal.readInt? word = some number := by
  cases isInteger with
  | @plain digits isDigits =>
      have sign := Decimal.splitSign_of_isDigits isDigits []
      rw [List.append_nil] at sign
      simp [Decimal.readInt?, sign, Decimal.readNat?_of_isDigits isDigits]
  | minus isDigits =>
      simp [Decimal.readInt?, Decimal.splitSign, Decimal.readNat?_of_isDigits isDigits]

theorem exists_integerWord {word : List Char} (shape : isIntegerWord word = true) :
    ∃ number, IntegerWord word number := by
  unfold isIntegerWord at shape
  split at shape
  · exact ⟨_, .minus shape⟩
  · exact ⟨_, .plain shape⟩

/-- Digits, a point and digits are recognised by what stands behind the first digits. -/
theorem isUnsignedFloatWord_iff {word : List Char} :
    isUnsignedFloatWord word = true ↔
      ∃ whole fraction, Decimal.isDigits whole = true ∧ Decimal.isDigits fraction = true ∧
        word = whole ++ '.' :: fraction := by
  constructor
  · intro shape
    unfold isUnsignedFloatWord at shape
    split at shape
    · rename_i fraction rest
      simp only [Bool.and_eq_true] at shape
      refine ⟨word.takeWhile Char.isDigit, fraction, ?_, shape.2, ?_⟩
      · rw [Decimal.isDigits_iff]
        refine ⟨?_, List.all_eq_true.mp List.all_takeWhile⟩
        cases word with
        | nil => simp at shape
        | cons first word =>
            have firstDigit : first.isDigit = true := by simpa using shape.1
            simp [List.takeWhile_cons_of_pos firstDigit]
      · rw [← rest, List.takeWhile_append_dropWhile]
    · simp at shape
  · rintro ⟨whole, fraction, isWhole, isFraction, rfl⟩
    have ⟨nonempty, wholeDigits⟩ := Decimal.isDigits_iff.mp isWhole
    have dropped : (whole ++ '.' :: fraction).dropWhile Char.isDigit = '.' :: fraction := by
      apply Text.dropWhile_append_of_ended wholeDigits
      intro next head
      obtain rfl : '.' = next := by simpa using head
      rfl
    cases whole with
    | nil => exact absurd rfl nonempty
    | cons first whole =>
        have firstDigit := wholeDigits first (by simp)
        unfold isUnsignedFloatWord
        rw [dropped]
        simp [firstDigit, isFraction]

theorem isFloatWord_of_unsigned {word : List Char} (shape : isUnsignedFloatWord word = true) :
    isFloatWord word = true := by
  unfold isFloatWord
  split
  · simp [isUnsignedFloatWord] at shape
  · exact shape

theorem FloatWord.isFloatWord {word : List Char} {value : Float}
    (isFloat : FloatWord word value) : isFloatWord word = true := by
  cases isFloat with
  | plain isWhole isFraction =>
      exact isFloatWord_of_unsigned
        (isUnsignedFloatWord_iff.mpr ⟨_, _, isWhole, isFraction, rfl⟩)
  | minus isWhole isFraction =>
      exact isUnsignedFloatWord_iff.mpr ⟨_, _, isWhole, isFraction, rfl⟩

theorem FloatWord.readFloat? {word : List Char} {value : Float}
    (isFloat : FloatWord word value) : Decimal.readFloat? word = some value := by
  cases isFloat with
  | plain isWhole isFraction =>
      rw [Decimal.readFloat?, Decimal.FloatText.read?_of_point
        (Decimal.splitSign_of_isDigits isWhole _) (by simp),
        Decimal.readMagnitude?_of_isDigits isWhole isFraction]
      rfl
  | @minus whole fraction isWhole isFraction =>
      have sign : Decimal.splitSign ('-' :: (whole ++ '.' :: fraction)) =
          (true, whole ++ '.' :: fraction) := rfl
      rw [Decimal.readFloat?, Decimal.FloatText.read?_of_point sign (by simp),
        Decimal.readMagnitude?_of_isDigits isWhole isFraction]
      rfl

theorem exists_floatWord {word : List Char} (shape : isFloatWord word = true) :
    ∃ value, FloatWord word value := by
  unfold isFloatWord at shape
  split at shape
  · rcases isUnsignedFloatWord_iff.mp shape with ⟨whole, fraction, isWhole, isFraction, rfl⟩
    exact ⟨_, .minus isWhole isFraction⟩
  · rcases isUnsignedFloatWord_iff.mp shape with ⟨whole, fraction, isWhole, isFraction, rfl⟩
    exact ⟨_, .plain isWhole isFraction⟩

/-- No word is both an integer and a float: an integer has no point. -/
theorem IntegerWord.isFloatWord_eq_false {word : List Char} {number : Int}
    (isInteger : IntegerWord word number) : Reader.isFloatWord word = false := by
  rw [← Bool.not_eq_true]
  intro shape
  rcases exists_floatWord shape with ⟨value, isFloat⟩
  have point : '.' ∈ word := by
    cases isFloat <;> simp
  cases isInteger with
  | plain isDigits => simpa using (Decimal.isDigits_iff.mp isDigits).2 '.' point
  | minus isDigits =>
      have inDigits := List.mem_of_ne_of_mem (by decide) point
      simpa using (Decimal.isDigits_iff.mp isDigits).2 '.' inDigits

/-! ## Tokens of words -/

/-- The expression that a token stands for on its own. -/
inductive Token.Denotes : Token → Node → Prop where
  | atom (value : Value) : Denotes (.atom value) (.atom value)
  | symbol (name : String) : Denotes (.symbol name) (.symbol name)

theorem ofWord_of_plain {word : List Char} (noInteger : isIntegerWord word = false)
    (noFloat : isFloatWord word = false) (noHash : word.head? ≠ some '#') :
    Token.ofWord word =
      match String.ofList word with
      | "true" => .atom (.boolean true)
      | "false" => .atom (.boolean false)
      | "nil" => .atom .nil
      | name => .symbol name := by
  have notHash : (word.head? == some '#') = false := by simpa using noHash
  simp only [Token.ofWord, noInteger, noFloat, notHash]
  rfl

theorem Keyword.ofWord {word : List Char} {value : Value} (isKeyword : Keyword word value) :
    Token.ofWord word = .atom value := by
  cases isKeyword with
  | true => rfl
  | false => rfl
  | nil => rfl

/-- A word marked by a hash is no number and has no token of its own. -/
theorem not_denotes_of_hash {word : List Char} {node : Node} (hash : word.head? = some '#') :
    ¬(Token.ofWord word).Denotes node := by
  obtain ⟨rest, rfl⟩ : ∃ rest, word = '#' :: rest := by
    cases word with
    | nil => simp at hash
    | cons first rest => exact ⟨rest, by simpa using hash⟩
  have noInteger : isIntegerWord ('#' :: rest) = false := by
    simp [isIntegerWord, Decimal.isDigits]
  have noFloat : isFloatWord ('#' :: rest) = false := by
    simp [isFloatWord, isUnsignedFloatWord]
  intro denotes
  simp [Token.ofWord, noInteger, noFloat] at denotes
  cases denotes

theorem ofWord_of_name {word : List Char} (noInteger : isIntegerWord word = false)
    (noFloat : isFloatWord word = false) (noHash : word.head? ≠ some '#')
    (noKeyword : ∀ value, ¬Keyword word value) :
    Token.ofWord word = .symbol (String.ofList word) := by
  rw [ofWord_of_plain noInteger noFloat noHash]
  have distinct : ∀ {text : String} {value : Value}, Keyword text.toList value →
      String.ofList word ≠ text := by
    rintro text value isKeyword rfl
    rw [String.toList_ofList] at isKeyword
    exact noKeyword value isKeyword
  split
  · rename_i equal
    exact absurd equal (distinct .true)
  · rename_i equal
    exact absurd equal (distinct .false)
  · rename_i equal
    exact absurd equal (distinct .nil)
  · rfl

theorem Word.denotes {word : List Char} {node : Node} (means : Word word node)
    (noHash : word.head? ≠ some '#') : (Token.ofWord word).Denotes node := by
  cases means with
  | @integer value isInteger =>
      have token : Token.ofWord word = .atom (.int value) := by
        simp [Token.ofWord, isInteger.isIntegerWord, isInteger.readInt?, Number.fit?_toInt]
      rw [token]
      exact .atom _
  | @float value isFloat =>
      have noInteger : isIntegerWord word = false := by
        rw [← Bool.not_eq_true]
        intro shape
        rcases exists_integerWord shape with ⟨number, isInteger⟩
        simpa [isFloat.isFloatWord] using isInteger.isFloatWord_eq_false
      have token : Token.ofWord word = .atom (.float value) := by
        simp [Token.ofWord, noInteger, isFloat.isFloatWord, isFloat.readFloat?]
      rw [token]
      exact .atom _
  | keyword isKeyword =>
      rw [isKeyword.ofWord]
      exact .atom _
  | symbol noInteger noFloat noKeyword =>
      rw [ofWord_of_name ?_ ?_ noHash noKeyword]
      · exact .symbol _
      · rw [← Bool.not_eq_true]
        intro shape
        rcases exists_integerWord shape with ⟨number, isInteger⟩
        exact noInteger number isInteger
      · rw [← Bool.not_eq_true]
        intro shape
        rcases exists_floatWord shape with ⟨value, isFloat⟩
        exact noFloat value isFloat

theorem word_of_denotes {word : List Char} {node : Node}
    (denotes : (Token.ofWord word).Denotes node) : Word word node := by
  unfold Token.ofWord at denotes
  split at denotes
  · rename_i shape
    rcases exists_integerWord shape with ⟨number, isInteger⟩
    rw [isInteger.readInt?, Option.bind_some] at denotes
    split at denotes
    · rename_i value fits
      cases denotes
      rw [← Number.toInt_of_fit? fits] at isInteger
      exact .integer isInteger
    · cases denotes
  · rename_i noInteger
    split at denotes
    · rename_i shape
      rcases exists_floatWord shape with ⟨value, isFloat⟩
      rw [isFloat.readFloat?] at denotes
      cases denotes
      exact .float isFloat
    · rename_i noFloat
      split at denotes
      · cases denotes
      · have spelled : ∀ {text : String}, String.ofList word = text → word = text.toList := by
          rintro text rfl
          rw [String.toList_ofList]
        split at denotes
        · rename_i equal
          cases denotes
          rw [spelled equal]
          exact .keyword .true
        · rename_i equal
          cases denotes
          rw [spelled equal]
          exact .keyword .false
        · rename_i equal
          cases denotes
          rw [spelled equal]
          exact .keyword .nil
        · rename_i notTrue notFalse notNil
          cases denotes
          refine .symbol (fun number isInteger => noInteger isInteger.isIntegerWord)
            (fun value isFloat => noFloat isFloat.isFloatWord) ?_
          intro value isKeyword
          cases isKeyword with
          | true => exact notTrue rfl
          | false => exact notFalse rfl
          | nil => exact notNil rfl

end Reader

end MeteredRules
