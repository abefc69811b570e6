import MeteredRules.Text.Case.Lower
import MeteredRules.Text.Case.Property
import MeteredRules.Text.Case.Upper
import MeteredRules.Text.Span

/-!
# Letter case

Texts in capital and in small letters, by the full mappings of Unicode 17: one letter may become
several. The capital sigma is the only letter whose small form depends on its neighbours: it has a
form of its own at the end of a word.
-/

namespace MeteredRules.Text

namespace Case

/-- What a character becomes under a table of single letters and one of longer forms. -/
def mapped (table : List Range) (long : List (Nat × List Nat)) (character : Char) : List Char :=
  match long.lookup character.toNat with
  | some codes => codes.map Char.ofNat
  | none => [Char.ofNat (moved table character.toNat)]

/-- Whether the first character that is not passed over has a case. -/
def meetsCased (text : List Char) : Bool :=
  match text.dropWhile fun character => within ignorableSpans character.toNat with
  | character :: _ => within casedSpans character.toNat
  | [] => false

/-- The small form of a sigma: a word ends with it if a letter stands before it and none after. -/
def smallSigma (before after : List Char) : Char :=
  if meetsCased before && !meetsCased after then 'ς' else 'σ'

/-- The small letters of a text, given what stands before it in reverse order. -/
def lowerFrom (before : List Char) : List Char → List Char
  | [] => []
  | character :: rest =>
    (if character == 'Σ' then [smallSigma before rest] else mapped smalls longSmalls character) ++
      lowerFrom (character :: before) rest

end Case

/-- A text in capital letters. -/
def upcase (text : String) : String :=
  String.ofList (text.toList.flatMap (Case.mapped Case.capitals Case.longCapitals))

/-- A text in small letters. -/
def downcase (text : String) : String :=
  String.ofList (Case.lowerFrom [] text.toList)

end MeteredRules.Text
