import MeteredRules.Proofs.Decimal.Plain
import MeteredRules.Proofs.Instant.Reading
import MeteredRules.Proofs.Reader.RoundTrip

/-!
# Reading literals back

Which literals are read back from their display. Strings, integers and the literal words always are.
A float is if it is written without an exponent; otherwise its text has a letter in it, and what is
read is a name. An instant is if its year is written without a sign; otherwise its text is refused.
-/

namespace MeteredRules

/--
Literals that are displayed plainly: floats without an exponent and instants without a sign in front
of the year. The other kinds of literals have one notation only.
-/
def Value.isPlain : Value → Bool
  | .number (.float value) => Number.isPlain value
  | .instant moment => 0 ≤ moment.date.year && moment.date.year ≤ 9999
  | _ => true

/-! ## Texts of numbers as words -/

namespace Number

open Binary64 Decimal Reader

/-- A float that is not written plainly has a letter in its text. -/
theorem exists_letter_mem_floatText {value : Float} (notPlain : isPlain value = false) :
    ∃ letter ∈ (floatText value).toList,
      letter.isDigit = false ∧ letter ≠ '-' ∧ letter ≠ '.' := by
  rw [floatText, Layout.render]
  rcases parts : Parts.ofFloat value with _ | negative | ⟨negative, significand, exponent⟩
  · exact ⟨'N', by decide, by decide⟩
  · exact ⟨'i', by cases negative <;> decide, by decide⟩
  · have outside : ¬(significand = 0 ∨ Between significand exponent) := by
      rw [← isPlain_iff parts, notPlain]
      exact Bool.false_ne_true
    rw [not_or] at outside
    have mark : 'e' ∈ floatLayout.magnitude significand exponent :=
      mark_mem_magnitude (Parts.canonical_of_finite parts).1 (Nat.pos_of_ne_zero outside.1)
        outside.2
    refine ⟨'e', ?_, by decide⟩
    rw [String.toList_ofList]
    cases negative with
    | false => exact mark
    | true => exact List.mem_cons_of_mem _ mark

/-- A float that is written plainly is a word for itself. -/
theorem floatWord_floatText {value : Float} (plainly : isPlain value = true) :
    FloatWord (floatText value).toList value := by
  rw [floatText, Layout.render]
  rcases parts : Parts.ofFloat value with _ | negative | ⟨negative, significand, exponent⟩
  · simp [isPlain, parts] at plainly
  · simp [isPlain, parts] at plainly
  · have canonical := (Parts.canonical_of_finite parts).1
    obtain ⟨whole, fraction, isWhole, isFraction, text_eq, value_eq⟩ :=
      exists_magnitude_eq canonical ((isPlain_iff parts).mp plainly)
    rw [String.toList_ofList, Parts.eq_ofParts parts, text_eq]
    cases negative with
    | false =>
        rw [← value_eq]
        exact .plain isWhole isFraction
    | true =>
        have negated : -ofParts false significand exponent = ofParts true significand exponent :=
          neg_ofParts canonical
        rw [← negated, ← value_eq]
        exact .minus isWhole isFraction

theorem integerWord_ofInt (number : Int) : IntegerWord (ofInt number) number := by
  have isDigits := isDigits_digits number.natAbs
  have value_eq := ofDigits_digits number.natAbs
  unfold ofInt
  split
  · rename_i negative
    have word := IntegerWord.minus isDigits
    rw [value_eq] at word
    have number_eq : -(number.natAbs : Int) = number := by omega
    rwa [number_eq] at word
  · rename_i nonneg
    have word := IntegerWord.plain isDigits
    rw [value_eq] at word
    have number_eq : (number.natAbs : Int) = number := by omega
    rwa [number_eq] at word

theorem toList_render_ne_nil (number : Number) : number.render.toList ≠ [] := by
  cases number with
  | int value =>
      rw [render, String.toList_ofList, ofInt]
      split
      · exact List.cons_ne_nil _ _
      · exact digits_ne_nil _
  | float value =>
      cases plainly : isPlain value with
      | false =>
          rcases exists_letter_mem_floatText plainly with ⟨letter, letter_mem, _⟩
          exact List.ne_nil_of_mem letter_mem
      | true =>
          have isFloat : FloatWord (render (.float value)).toList value :=
            floatWord_floatText plainly
          generalize (render (.float value)).toList = text at isFloat
          cases isFloat <;> simp

end Number

namespace Reader

theorem IntegerWord.mem {word : List Char} {number : Int} {character : Char}
    (isInteger : IntegerWord word number) (character_mem : character ∈ word) :
    character.isDigit = true ∨ character = '-' := by
  cases isInteger with
  | plain isDigits => exact .inl ((Decimal.isDigits_iff.mp isDigits).2 character character_mem)
  | minus isDigits =>
      rcases List.mem_cons.mp character_mem with minus | digit
      · exact .inr minus
      · exact .inl ((Decimal.isDigits_iff.mp isDigits).2 character digit)

theorem FloatWord.mem {word : List Char} {value : Float} {character : Char}
    (isFloat : FloatWord word value) (character_mem : character ∈ word) :
    character.isDigit = true ∨ character = '-' ∨ character = '.' := by
  have unsigned : ∀ {whole fraction : List Char}, Decimal.isDigits whole = true →
      Decimal.isDigits fraction = true → character ∈ whole ++ '.' :: fraction →
      character.isDigit = true ∨ character = '-' ∨ character = '.' := by
    intro whole fraction isWhole isFraction inWord
    rw [List.mem_append, List.mem_cons] at inWord
    rcases inWord with digit | point | digit
    · exact .inl ((Decimal.isDigits_iff.mp isWhole).2 character digit)
    · exact .inr (.inr point)
    · exact .inl ((Decimal.isDigits_iff.mp isFraction).2 character digit)
  cases isFloat with
  | plain isWhole isFraction => exact unsigned isWhole isFraction character_mem
  | minus isWhole isFraction =>
      rcases List.mem_cons.mp character_mem with minus | inWord
      · exact .inr (.inl minus)
      · exact unsigned isWhole isFraction inWord

theorem Keyword.exists_foreign {word : List Char} {value : Value} (isKeyword : Keyword word value) :
    ∃ character ∈ word, ¬character.isDigit = .true ∧ character ∉ Number.marks := by
  cases isKeyword with
  | true => exact ⟨'t', by decide, by decide, by decide⟩
  | false => exact ⟨'l', by decide, by decide, by decide⟩
  | nil => exact ⟨'l', by decide, by decide, by decide⟩

/-! ## Displays -/

variable {options : Options}

theorem read_word {word : List Char} {node : Node} (nonempty : word ≠ [])
    (noHash : word.head? ≠ some '#') (undelimited : Undelimited options.comments word)
    (means : Word word node) : read options (String.ofList word) = .ok [node] := by
  have single : Single options.comments (word ++ []) node [] :=
    .word nonempty noHash undelimited bounded_nil means
  rw [List.append_nil] at single
  apply Single.read_eq
  rwa [String.toList_ofList]

theorem read_render {number : Number} {node : Node} (means : Word number.render.toList node) :
    read options number.render = .ok [node] := by
  have noHash : number.render.toList.head? ≠ some '#' := by
    intro hash
    rcases Number.mem_render (List.mem_of_mem_head? hash) with digit | mark
    · simp at digit
    · revert mark
      decide
  have readWord := read_word number.toList_render_ne_nil noHash
    (@undelimited_render options.comments number) means
  rwa [String.ofList_toList] at readWord

theorem read_display_int (value : Int64) :
    read options (Value.int value).display = .ok [.atom (.int value)] := by
  have isInteger : IntegerWord (Number.int value).render.toList value.toInt := by
    rw [Number.render, String.toList_ofList]
    exact Number.integerWord_ofInt value.toInt
  rw [Value.int, Value.display]
  exact read_render (.integer isInteger)

theorem read_display_string {content : List Char} (noQuote : '\'' ∉ content) :
    read options (Value.string (String.ofList content)).display =
      .ok [.atom (.string (String.ofList content))] := by
  have single : Single options.comments _ _ [] := .string noQuote
  apply Single.read_eq
  simpa [Value.display] using single

theorem Keyword.display_eq {word : List Char} {value : Value} (isKeyword : Keyword word value) :
    value.display = String.ofList word := by
  cases isKeyword with
  | true | false | nil =>
      rw [Value.display]
      rfl

/-- A float that is not written plainly is read as a name. -/
theorem read_display_of_not_plain {value : Float} (notPlain : Number.isPlain value = false) :
    read options (Value.float value).display =
      .ok [.symbol (Value.float value).display] := by
  obtain ⟨letter, letter_mem, noDigit, noMinus, noPoint⟩ :=
    Number.exists_letter_mem_floatText notPlain
  have noInteger : ∀ number, ¬IntegerWord (Number.float value).render.toList number := by
    intro number isInteger
    rcases isInteger.mem letter_mem with digit | minus
    · simp [noDigit] at digit
    · exact noMinus minus
  have noFloat : ∀ number, ¬FloatWord (Number.float value).render.toList number := by
    intro number isFloat
    rcases isFloat.mem letter_mem with digit | minus | point
    · simp [noDigit] at digit
    · exact noMinus minus
    · exact noPoint point
  have noKeyword : ∀ keyword, ¬Keyword (Number.float value).render.toList keyword := by
    intro keyword isKeyword
    rcases isKeyword.exists_foreign with ⟨character, character_mem, notDigit, notMark⟩
    rcases Number.mem_render character_mem with digit | mark
    · simp [notDigit] at digit
    · exact notMark mark
  have readName := @read_render options _ _ (.symbol noInteger noFloat noKeyword)
  rwa [String.ofList_toList] at readName

theorem read_display_float_iff (value : Float) :
    read options (Value.float value).display = .ok [.atom (.float value)] ↔
      Number.isPlain value = true := by
  cases isPlain : Number.isPlain value with
  | false =>
      rw [read_display_of_not_plain isPlain]
      simp
  | true =>
      have isFloat : FloatWord (Number.float value).render.toList value :=
        Number.floatWord_floatText isPlain
      rw [Value.float, Value.display, read_render (.float isFloat)]
      simp [Value.float]

theorem Sequence.exists_single {depth : Nat} {text rest : List Char} {value : Value}
    (derived : Sequence options depth text [.atom value] rest) :
    ∃ start middle, Single options.comments start (.atom value) middle := by
  cases derived with
  | single _ item _ => exact ⟨_, _, item⟩
  | form _ _ _ formed _ => cases formed

/-- A literal that was read is read back from its display if and only if it is displayed plainly. -/
theorem read_display_iff_isPlain {source : String} {value : Value}
    (accepted : read options source = .ok [.atom value]) :
    read options value.display = .ok [.atom value] ↔ value.isPlain = true := by
  rcases (sequence_of_read accepted).exists_single with ⟨start, middle, single⟩
  cases single with
  | string noQuote => exact iff_of_true (read_display_string noQuote) rfl
  | @instant content rest instant noBrace isInstant =>
      rw [read_display_instant_iff, Instant.read?_render_iff]
      simp [Value.isPlain]
  | word nonempty noHash undelimited ended means =>
      cases means with
      | @integer value isInteger => exact iff_of_true (read_display_int value) rfl
      | @float value isFloat => exact read_display_float_iff value
      | keyword isKeyword =>
          have readsBack := read_word nonempty noHash undelimited (.keyword isKeyword)
          rw [← isKeyword.display_eq] at readsBack
          cases isKeyword with
          | true | false | nil => exact iff_of_true readsBack rfl

/-- The literal `10000000000000000.0` is read, but it is displayed as `1e16`, which is a name. -/
theorem read_display_ten_quadrillion :
    let value := Value.float (Decimal.nearestFloat 100000000000000000 (-1))
    read .standard "10000000000000000.0" = .ok [.atom value] ∧ value.display = "1e16" ∧
      value.isPlain = false ∧ read .standard value.display ≠ .ok [.atom value] := by
  intro value
  have isFloat : Word "10000000000000000.0".toList (.atom value) :=
    .float (@FloatWord.plain "10000000000000000".toList ['0'] rfl rfl)
  have accepted : read .standard "10000000000000000.0" = .ok [.atom value] :=
    read_word (by decide) (by decide) (undelimited_of_all rfl) isFloat
  have notPlain : value.isPlain = false := by decide +kernel
  refine ⟨accepted, by decide +kernel, notPlain, ?_⟩
  rw [Ne, read_display_iff_isPlain accepted, notPlain]
  exact Bool.false_ne_true

end Reader

end MeteredRules
