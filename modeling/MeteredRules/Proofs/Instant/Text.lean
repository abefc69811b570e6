import MeteredRules.Instant.Text
import MeteredRules.Proofs.Decimal.Digits

/-!
# The characters of an instant

An instant is written with digits and the marks between them.
-/

namespace MeteredRules.Instant

/-- The characters of an instant besides its digits. -/
def marks : List Char := "+-:.TZ".toList

theorem mem_yearText {year : Int} {character : Char} (character_mem : character ∈ yearText year) :
    character.isDigit = true ∨ character ∈ marks := by
  unfold yearText at character_mem
  split at character_mem
  · exact .inl (Decimal.isDigit_of_mem_padded character_mem)
  · rcases List.mem_cons.mp character_mem with sign | digit
    · right
      rw [sign]
      split <;> decide
    · exact .inl (Decimal.isDigit_of_mem_padded digit)

theorem mem_fractionText {nanos : Nat} {character : Char}
    (character_mem : character ∈ fractionText nanos) :
    character.isDigit = true ∨ character ∈ marks := by
  have pointed : ∀ {width number : Nat}, character ∈ '.' :: Decimal.padded width number →
      character.isDigit = true ∨ character ∈ marks := by
    intro width number inText
    rcases List.mem_cons.mp inText with rfl | digit
    · decide
    · exact .inl (Decimal.isDigit_of_mem_padded digit)
  unfold fractionText at character_mem
  split at character_mem
  · simp at character_mem
  split at character_mem
  · exact pointed character_mem
  split at character_mem
  · exact pointed character_mem
  · exact pointed character_mem

/-- An instant is written with digits and the marks of instants only. -/
theorem mem_render {instant : Instant} {character : Char}
    (character_mem : character ∈ instant.render.toList) :
    character.isDigit = true ∨ character ∈ marks := by
  simp only [render, dateText, timeText, String.toList_ofList, List.append_assoc, List.cons_append,
    List.mem_append, List.mem_cons, List.not_mem_nil, or_false] at character_mem
  rcases character_mem with year | rfl | month | rfl | day | rfl | hour | rfl | minute | rfl |
    second | fraction | rfl
  · exact mem_yearText year
  · decide
  · exact .inl (Decimal.isDigit_of_mem_padded month)
  · decide
  · exact .inl (Decimal.isDigit_of_mem_padded day)
  · decide
  · exact .inl (Decimal.isDigit_of_mem_padded hour)
  · decide
  · exact .inl (Decimal.isDigit_of_mem_padded minute)
  · decide
  · exact .inl (Decimal.isDigit_of_mem_padded second)
  · exact mem_fractionText fraction
  · decide

theorem brace_not_mem_render (instant : Instant) : '\x7d' ∉ instant.render.toList := by
  intro brace
  rcases mem_render brace with digit | mark
  · simp at digit
  · revert mark
    decide

end MeteredRules.Instant
