import MeteredRules.Number.Basic
import MeteredRules.Proofs.Decimal.Digits

/-!
# The characters of a float

A float is written with digits, a point, a minus, the mark of an exponent and the letters of the
words for infinity and NaN.
-/

namespace MeteredRules

namespace Decimal

theorem mem_plain {text : List Char} {position : Int} {character : Char}
    (character_mem : character ∈ plain text position) :
    character ∈ text ∨ character = '0' ∨ character = '.' := by
  unfold plain at character_mem
  split at character_mem
  · simp only [List.mem_cons, List.mem_append, List.mem_replicate] at character_mem
    rcases character_mem with zero | point | ⟨_, zero⟩ | inText
    · exact .inr (.inl zero)
    · exact .inr (.inr point)
    · exact .inr (.inl zero)
    · exact .inl inText
  split at character_mem
  · simp only [List.mem_append, List.mem_replicate, List.mem_cons, List.not_mem_nil,
      or_false] at character_mem
    rcases character_mem with (inText | ⟨_, zero⟩) | point | zero
    · exact .inl inText
    · exact .inr (.inl zero)
    · exact .inr (.inr point)
    · exact .inr (.inl zero)
  · simp only [List.mem_append, List.mem_cons] at character_mem
    rcases character_mem with whole | point | fraction
    · exact .inl (List.mem_of_mem_take whole)
    · exact .inr (.inr point)
    · exact .inl (List.mem_of_mem_drop fraction)

theorem mem_scientific {plus : String} {text : List Char} {position : Int} {character : Char}
    (character_mem : character ∈ scientific plus text position) :
    character ∈ text ∨ character = '.' ∨ character = 'e' ∨ character ∈ plus.toList ∨
      character.isDigit = true ∨ character = '-' := by
  simp only [scientific, List.mem_append, List.mem_cons] at character_mem
  rcases character_mem with mantissa | mark | plusMark | exponent
  · split at mantissa
    · exact .inl mantissa
    · simp only [List.mem_append, List.mem_cons] at mantissa
      rcases mantissa with whole | point | fraction
      · exact .inl (List.mem_of_mem_take whole)
      · exact .inr (.inl point)
      · exact .inl (List.mem_of_mem_drop fraction)
  · exact .inr (.inr (.inl mark))
  · split at plusMark
    · simp at plusMark
    · exact .inr (.inr (.inr (.inl plusMark)))
  · exact .inr (.inr (.inr (.inr (mem_ofInt exponent))))

end Decimal

namespace Number

/-- The characters of a number besides its digits. -/
def marks : List Char := "-.einfNa".toList

theorem mem_marks_of_all {word : List Char} {character : Char}
    (allMarks : word.all marks.contains = true) (character_mem : character ∈ word) :
    character ∈ marks := by
  simpa using List.all_eq_true.mp allMarks character character_mem

theorem mem_magnitude {significand : Nat} {exponent : Int} {character : Char}
    (character_mem : character ∈ floatLayout.magnitude significand exponent) :
    character.isDigit = true ∨ character ∈ marks := by
  unfold Decimal.Layout.magnitude at character_mem
  split at character_mem
  · simp only [List.mem_cons, List.not_mem_nil, or_false] at character_mem
    rcases character_mem with rfl | rfl | rfl <;> decide
  dsimp only at character_mem
  split at character_mem
  · rcases Decimal.mem_plain character_mem with digit | rfl | rfl
    · exact .inl (Decimal.isDigit_of_mem_digits digit)
    · decide
    · decide
  · rcases Decimal.mem_scientific character_mem with digit | rfl | rfl | plus | digit | rfl
    · exact .inl (Decimal.isDigit_of_mem_digits digit)
    · decide
    · decide
    · simp [floatLayout] at plus
    · exact .inl digit
    · decide

theorem mem_render {number : Number} {character : Char}
    (character_mem : character ∈ number.render.toList) :
    character.isDigit = true ∨ character ∈ marks := by
  cases number with
  | int value =>
      rw [render, String.toList_ofList] at character_mem
      rcases Decimal.mem_ofInt character_mem with digit | rfl
      · exact .inl digit
      · decide
  | float value =>
      rw [render, floatText, Decimal.Layout.render] at character_mem
      split at character_mem
      · exact .inr (mem_marks_of_all rfl character_mem)
      · split at character_mem
        · exact .inr (mem_marks_of_all rfl character_mem)
        · exact .inr (mem_marks_of_all rfl character_mem)
      · rw [String.toList_ofList] at character_mem
        split at character_mem
        · rcases List.mem_cons.mp character_mem with rfl | magnitude
          · decide
          · exact mem_magnitude magnitude
        · exact mem_magnitude character_mem

end Number

end MeteredRules
