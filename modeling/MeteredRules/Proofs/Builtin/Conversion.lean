import MeteredRules.Proofs.Builtin.Call
import MeteredRules.Proofs.Decimal.Numeral
import MeteredRules.Proofs.Reader.Literal

/-!
# Integers and their texts

Integers are read from texts in two places: by the built-in function `int`, which also accepts a
plus and blanks around the text, and by the reader of source texts. Of the words that both accept
they make the same integers, and both refuse those whose integer needs more than 64 bits. What is
written for an integer is read back in both places.
-/

namespace MeteredRules

/-! ## Conversion -/

namespace Decimal

/-- A text that denotes an integer, with blanks around it allowed. -/
def SpacedInteger (text : List Char) (number : Int) : Prop :=
  ∃ before core after, text = before ++ core ++ after ∧
    (∀ character ∈ before, Text.isBlank character = true) ∧
    (∀ character ∈ after, Text.isBlank character = true) ∧ IntegerText core number

theorem IntegerText.isBlank_eq_false {text : List Char} {number : Int}
    (denotes : IntegerText text number) :
    ∀ character ∈ text, Text.isBlank character = false := by
  intro character character_mem
  rcases denotes.mem character_mem with digit | rfl | rfl
  · exact Text.isBlank_of_isDigit digit
  · decide
  · decide

theorem IntegerText.spacedInteger {text : List Char} {number : Int}
    (denotes : IntegerText text number) : SpacedInteger text number :=
  ⟨[], text, [], by simp, by simp, by simp, denotes⟩

theorem readInt?_trim_eq_some_iff {text : List Char} {number : Int} :
    readInt? (Text.trim text) = some number ↔ SpacedInteger text number := by
  rw [readInt?_eq_some_iff]
  constructor
  · intro denotes
    rcases Text.exists_eq_append_trim text with ⟨before, after, blankBefore, blankAfter, text_eq⟩
    exact ⟨before, _, after, text_eq, blankBefore, blankAfter, denotes⟩
  · rintro ⟨before, core, after, rfl, blankBefore, blankAfter, denotes⟩
    have first := fun character head =>
      denotes.isBlank_eq_false character (List.mem_of_mem_head? head)
    have last := fun character final =>
      denotes.isBlank_eq_false character (List.mem_of_mem_getLast? final)
    rwa [Text.trim_append first last blankBefore blankAfter]

end Decimal

namespace Number

theorem fit?_eq_some_iff {number : Int} {value : Int64} :
    fit? number = some value ↔ number = value.toInt := by
  constructor
  · intro fits
    exact (toInt_of_fit? fits).symm
  · rintro rfl
    exact fit?_toInt value

end Number

namespace Conversion

open Decimal

variable {text : String} {value : Int64}

theorem integerOfText?_eq_some_iff :
    integerOfText? text = some value ↔ SpacedInteger text.toList value.toInt := by
  rw [integerOfText?, Option.bind_eq_some_iff, ← readInt?_trim_eq_some_iff]
  simp only [Number.fit?_eq_some_iff]
  exact exists_eq_right

theorem toInteger_string (text : String) :
    toInteger (.string text) =
      match integerOfText? text with
      | some integer => .ok integer
      | none => .error (.refuse (.notIntegerText text)) :=
  rfl

/-- A text is converted to the integer that it denotes. -/
theorem toInteger_eq_ok_iff :
    toInteger (.string text) = .ok value ↔ SpacedInteger text.toList value.toInt := by
  rw [toInteger_string, ← integerOfText?_eq_some_iff]
  cases integerOfText? text <;> simp

/-- A text that denotes no integer of 64 bits is refused. -/
theorem toInteger_eq_error (denotesNone : ∀ value : Int64, ¬SpacedInteger text.toList value.toInt) :
    toInteger (.string text) = .error (.refuse (.notIntegerText text)) := by
  have unread : integerOfText? text = none := by
    rw [Option.eq_none_iff_forall_ne_some]
    exact fun value read => denotesNone value (integerOfText?_eq_some_iff.mp read)
  rw [toInteger_string, unread]

end Conversion

/-! ## Reading -/

namespace Reader

open Decimal

variable {options : Options} {word : List Char} {number : Int}

theorem IntegerWord.spacedInteger_iff (isInteger : IntegerWord word number) (other : Int) :
    SpacedInteger word other ↔ number = other := by
  have denotes := readInt?_eq_some_iff.mp isInteger.readInt?
  rw [← readInt?_trim_eq_some_iff, Text.trim_eq_self denotes.isBlank_eq_false, isInteger.readInt?,
    Option.some_inj]

theorem IntegerWord.ne_nil (isInteger : IntegerWord word number) : word ≠ [] :=
  (readInt?_eq_some_iff.mp isInteger.readInt?).ne_nil

theorem IntegerWord.head?_ne (isInteger : IntegerWord word number) : word.head? ≠ some '#' := by
  intro hash
  rcases isInteger.mem (List.mem_of_mem_head? hash) with digit | minus
  · simp at digit
  · simp at minus

theorem IntegerWord.undelimited {comments : Bool} (isInteger : IntegerWord word number) :
    Undelimited comments word := by
  intro character character_mem
  rcases isInteger.mem character_mem with digit | rfl
  · exact isDelimiter_of_isDigit digit
  · cases comments <;> decide

/-- A source text that starts with a fault is refused for it. -/
theorem read_fault {first : Char} {rest : List Char} {fault : Fault}
    (significant : Significant options.comments (first :: rest))
    (isFault : (Token.next options.comments first rest).1 = .fault fault) :
    read options (String.ofList (first :: rest)) =
      .error (fault.toError (first :: rest) (first :: rest)) := by
  rw [read_eq_resume, String.toList_ofList, resume_cons significant, isFault]
  rfl

/-- A word without delimiters is one token. -/
theorem next_eq_ofWord {first : Char} {rest : List Char}
    (undelimited : Undelimited options.comments (first :: rest)) (noHash : first ≠ '#') :
    Token.next options.comments first rest = (Token.ofWord (first :: rest), []) := by
  have free := isDelimiter_eq_false_iff.mp (undelimited first List.mem_cons_self)
  have inWord : ∀ character ∈ rest, (!isDelimiter options.comments character) = true := by
    intro character character_mem
    rw [undelimited character (List.mem_cons_of_mem first character_mem)]
    rfl
  rw [next_of_word free.2.1 free.2.2.1 free.2.2.2.1 fun _ hash => absurd hash noHash,
    Text.takeWhile_eq_self inWord, Text.dropWhile_eq_nil inWord]

/-- An integer of 64 bits is read from its word. -/
theorem IntegerWord.read_eq {value : Int64} (isInteger : IntegerWord word value.toInt) :
    read options (String.ofList word) = .ok [.atom (.int value)] :=
  read_word isInteger.ne_nil isInteger.head?_ne isInteger.undelimited (.integer isInteger)

/-- An integer of more than 64 bits is a fault. -/
theorem IntegerWord.read_eq_error (isInteger : IntegerWord word number)
    (large : Number.fit? number = none) :
    read options (String.ofList word) = .error (Fault.integerRange.toError word word) := by
  have token : Token.ofWord word = .fault .integerRange := by
    simp [Token.ofWord, isInteger.isIntegerWord, isInteger.readInt?, large]
  have undelimited : Undelimited options.comments word := isInteger.undelimited
  have noHash := isInteger.head?_ne
  rcases List.exists_cons_of_ne_nil isInteger.ne_nil with ⟨first, rest, rfl⟩
  apply read_fault
  · intro initial head
    have free := isDelimiter_eq_false_iff.mp (undelimited initial (List.mem_of_mem_head? head))
    exact ⟨free.1, free.2.2.2.2⟩
  · rw [next_eq_ofWord undelimited (by simpa using noHash), token]

end Reader

/-! ## Calls -/

theorem Action.ofResult_eq_iff {left right : Except Error Value} :
    Action.ofResult left = Action.ofResult right ↔ left = right :=
  ⟨Action.ofResult_inj, congrArg Action.ofResult⟩

namespace Callable

theorem call_int (host : Host) (value : Value) :
    (Callable.builtin (.primitive .int)).call host [value] =
      Primitive.give (Conversion.toInteger value) .int :=
  call_primitive host rfl

theorem call_str (host : Host) (value : Value) :
    (Callable.builtin (.primitive .str)).call host [value] =
      .ofResult (.ok (.string value.plainText)) := by
  rw [call_primitive host rfl]
  simp only [Primitive.body, Function.variadic, ElementKind.view_value]
  have joined : String.join [value.plainText] = value.plainText := String.empty_append
  exact congrArg (fun text => Action.ofResult (.ok (Value.string text))) joined

section Integer

variable {host : Host} {text : String}

theorem call_int_eq_ok_iff {value : Int64} :
    (Callable.builtin (.primitive .int)).call host [.string text] =
        .ofResult (.ok (.int value)) ↔ Decimal.SpacedInteger text.toList value.toInt := by
  rw [call_int, ← Conversion.toInteger_eq_ok_iff, Primitive.give, Action.ofResult_eq_iff]
  cases Conversion.toInteger (.string text) <;> simp [Except.map, Value.int]

theorem call_int_eq_error
    (denotesNone : ∀ value : Int64, ¬Decimal.SpacedInteger text.toList value.toInt) :
    (Callable.builtin (.primitive .int)).call host [.string text] =
      .ofResult (.error (.refuse (.notIntegerText text))) := by
  rw [call_int, Conversion.toInteger_eq_error denotesNone]
  rfl

/-- A word for an integer means the same to the reader and to `int`. -/
theorem read_and_call_int {word : List Char} {number : Int} {options : Reader.Options}
    (isInteger : Reader.IntegerWord word number) :
    (∃ value : Int64, Reader.read options (String.ofList word) = .ok [.atom (.int value)] ∧
      (Callable.builtin (.primitive .int)).call host [.string (String.ofList word)] =
        .ofResult (.ok (.int value))) ∨
    ((∃ error : ParseError, Reader.read options (String.ofList word) = .error (.parse error) ∧
        error.kind = .invalidLiteral) ∧
      (Callable.builtin (.primitive .int)).call host [.string (String.ofList word)] =
        .ofResult (.error (.refuse (.notIntegerText (String.ofList word))))) := by
  have spaced := isInteger.spacedInteger_iff
  rw [← @String.toList_ofList word] at spaced
  cases fits : Number.fit? number with
  | some value =>
      obtain rfl := Number.fit?_eq_some_iff.mp fits
      exact .inl ⟨value, isInteger.read_eq, call_int_eq_ok_iff.mpr ((spaced _).mpr rfl)⟩
  | none =>
      refine .inr ⟨⟨_, isInteger.read_eq_error fits, rfl⟩, call_int_eq_error ?_⟩
      intro value denotes
      rw [Number.fit?_eq_some_iff.mpr ((spaced _).mp denotes)] at fits
      cases fits

end Integer

end Callable

/--
The function `int` gives the integer of a text if the text, freed of blanks, is an optional sign and
digits for an integer of 64 bits, and refuses every other text. Read as a source text, an optional
minus and digits are the same integer or, where `int` refuses them, an invalid literal. What `str`
and the display of an integer write is read back by both.
-/
theorem Callable.converts_integer_texts (host : Host) (options : Reader.Options) :
    let toInteger := fun text =>
      (Callable.builtin (.primitive .int)).call host [.string text]
    (∀ text,
      (∀ value : Int64, toInteger text = .ofResult (.ok (.int value)) ↔
        Decimal.SpacedInteger text.toList value.toInt) ∧
      ((∀ value : Int64, ¬Decimal.SpacedInteger text.toList value.toInt) →
        toInteger text = .ofResult (.error (.refuse (.notIntegerText text))))) ∧
    (∀ word number, Reader.IntegerWord word number →
      (∀ value : Int64, Reader.read options (String.ofList word) = .ok [.atom (.int value)] ↔
        toInteger (String.ofList word) = .ofResult (.ok (.int value))) ∧
      ((∃ error : ParseError, Reader.read options (String.ofList word) = .error (.parse error) ∧
          error.kind = .invalidLiteral) ↔
        ∃ error, toInteger (String.ofList word) = .ofResult (.error error))) ∧
    ∀ value : Int64,
      (Callable.builtin (.primitive .str)).call host [.int value] =
        .ofResult (.ok (.string (Value.int value).display)) ∧
      toInteger (Value.int value).display = .ofResult (.ok (.int value)) ∧
      Reader.read options (Value.int value).display = .ok [.atom (.int value)] := by
  intro toInteger
  refine ⟨fun text => ⟨fun value => call_int_eq_ok_iff, call_int_eq_error⟩, ?_, ?_⟩
  · intro word number isInteger
    rcases @read_and_call_int host _ _ options isInteger with
      ⟨value, read, called⟩ | ⟨⟨error, read, kind⟩, called⟩
    · simp only [toInteger, called, read, Action.ofResult_eq_iff]
      simp [Value.int]
    · simp only [toInteger, called, read, Action.ofResult_eq_iff]
      simp [kind]
  · intro value
    have shown : (Value.int value).display.toList = Decimal.ofInt value.toInt := by
      simp [Value.int, Value.display, Number.render]
    refine ⟨call_str host (.int value), ?_, Reader.read_display_int value⟩
    apply call_int_eq_ok_iff.mpr
    rw [shown]
    exact (Decimal.integerText_ofInt value.toInt).spacedInteger

/-- The greatest integer of 64 bits may be written with a plus, and its successor is refused. -/
theorem Callable.converts_integer_texts_greatest :
    let toInteger := fun text =>
      (Callable.builtin (.primitive .int)).call (fun _ _ => .ofResult (.ok .nil)) [.string text]
    toInteger "\t+009223372036854775807 " = .ofResult (.ok (.int Int64.maxValue)) ∧
    toInteger "- 1" = .ofResult (.error (.refuse (.notIntegerText "- 1"))) ∧
    toInteger (Value.int Int64.minValue).display = .ofResult (.ok (.int Int64.minValue)) ∧
    Reader.IntegerWord "9223372036854775808".toList 9223372036854775808 ∧
    ∃ error, toInteger "9223372036854775808" = .ofResult (.error error) := by
  intro toInteger
  rcases converts_integer_texts (fun _ _ => .ofResult (.ok .nil)) .standard with
    ⟨texts, words, values⟩
  have greatest : Decimal.SpacedInteger "\t+009223372036854775807 ".toList
      Int64.maxValue.toInt := Decimal.readInt?_trim_eq_some_iff.mp (by decide)
  have inner : ∀ value : Int64, ¬Decimal.SpacedInteger "- 1".toList value.toInt := by
    intro value denotes
    have unread : Decimal.readInt? (Text.trim "- 1".toList) = none := by decide
    rw [Decimal.readInt?_trim_eq_some_iff.mpr denotes] at unread
    cases unread
  have successor : Reader.IntegerWord "9223372036854775808".toList 9223372036854775808 :=
    @Reader.IntegerWord.plain "9223372036854775808".toList rfl
  have refused := @Reader.IntegerWord.read_eq_error .standard _ _ successor (by decide)
  exact ⟨((texts _).1 _).mpr greatest, (texts _).2 inner, (values _).2.1, successor,
    (words _ _ successor).2.mp ⟨_, refused, rfl⟩⟩

end MeteredRules
