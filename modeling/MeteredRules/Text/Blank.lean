/-!
# Blank characters

Which characters separate the words of a source text, and texts freed of them at both ends. The
set is the Unicode property `White_Space`, which is larger than the blanks of ASCII.
-/

namespace MeteredRules.Text

/-- The characters with the Unicode property `White_Space`. -/
def isBlank (character : Char) : Bool :=
  let code := character.toNat
  (0x9 ≤ code && code ≤ 0xD) || code == 0x20 || code == 0x85 || code == 0xA0 ||
    code == 0x1680 || (0x2000 ≤ code && code ≤ 0x200A) || code == 0x2028 || code == 0x2029 ||
    code == 0x202F || code == 0x205F || code == 0x3000

/-- A text without the blanks before its first other character. -/
def trimStart (text : List Char) : List Char :=
  text.dropWhile isBlank

/-- A text without the blanks at its two ends. -/
def trim (text : List Char) : List Char :=
  (trimStart (trimStart text).reverse).reverse

/-- Removes the blanks at both ends of a string. -/
def strip (text : String) : String :=
  String.ofList (trim text.toList)

/-- The texts of a list, one after the other, with a separator between neighbours. -/
def joined (separator : String) : List String → String
  | [] => ""
  | [text] => text
  | text :: texts => text ++ separator ++ joined separator texts

end MeteredRules.Text
