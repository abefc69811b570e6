import MeteredRules.Decimal.Reading
import MeteredRules.Proofs.Decimal.Digits
import MeteredRules.Proofs.Text.Runs

/-!
# Reading a number with a point

Digits, a point and digits are read as all the digits together, times the power of ten that moves
the point to its place.
-/

namespace MeteredRules.Decimal

/-- The magnitude of a number with a point: all its digits, moved behind the point. -/
theorem readMagnitude?_of_isDigits {whole fraction : List Char}
    (isWhole : isDigits whole = true) (isFraction : isDigits fraction = true) :
    readMagnitude? (whole ++ '.' :: fraction) =
      some (ofDigits (whole ++ fraction), -(fraction.length : Int)) := by
  have ⟨wholeNonempty, wholeDigits⟩ := isDigits_iff.mp isWhole
  have ⟨_, fractionDigits⟩ := isDigits_iff.mp isFraction
  have pointEnds : ∀ next ∈ ('.' :: fraction).head?, next.isDigit = false := by
    intro next head
    obtain rfl : '.' = next := by simpa using head
    rfl
  simp only [readMagnitude?, Text.takeWhile_append_of_ended wholeDigits pointEnds,
    Text.dropWhile_append_of_ended wholeDigits pointEnds,
    Text.takeWhile_eq_self fractionDigits, Text.dropWhile_eq_nil fractionDigits]
  simp [wholeNonempty, readExponent?]

/-- A text with a point in it is no word for infinity or NaN. -/
theorem FloatText.read?_of_point {text rest : List Char} {negative : Bool}
    (sign : splitSign text = (negative, rest)) (point : '.' ∈ rest) :
    FloatText.read? text = (readMagnitude? rest).map fun (coefficient, exponent) =>
      .finite negative coefficient exponent := by
  have lowered : '.' ∈ rest.map Char.toLower := List.mem_map.mpr ⟨'.', point, rfl⟩
  have noWord : ∀ word : String, '.' ∉ word.toList →
      (String.ofList (rest.map Char.toLower) == word) = false := by
    intro word absent
    rw [beq_eq_false_iff_ne]
    rintro rfl
    simp only [String.toList_ofList] at absent
    exact absent lowered
  simp only [FloatText.read?, sign]
  rw [noWord "inf" (by decide), noWord "infinity" (by decide), noWord "nan" (by decide)]
  rfl

end MeteredRules.Decimal
