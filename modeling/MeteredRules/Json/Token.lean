import MeteredRules.Json.Number

/-!
# JSON tokens

A JSON text as a list of punctuation marks, strings and other scalars. Only four characters are
blanks here, control characters have to be escaped in strings, and an escape has to denote a
character.
-/

namespace MeteredRules.Json

/-- A token of a JSON text. -/
inductive Token where
  | openArray
  | closeArray
  | openObject
  | closeObject
  | comma
  | colon
  | string (text : String)
  /-- A number, a truth value or null. -/
  | scalar (value : Json)

/-- The blanks of a JSON text. -/
def isBlank (character : Char) : Bool :=
  character == ' ' || character == '\t' || character == '\n' || character == '\r'

/-- The value of a hexadecimal digit. -/
def hexDigit? (character : Char) : Option Nat :=
  if character.isDigit then some (character.toNat - '0'.toNat)
  else if 'a' ≤ character && character ≤ 'f' then some (character.toNat - 'a'.toNat + 10)
  else if 'A' ≤ character && character ≤ 'F' then some (character.toNat - 'A'.toNat + 10)
  else none

/-- The number of four hexadecimal digits. -/
def hexUnit? (first second third fourth : Char) : Option Nat := do
  return ((((← hexDigit? first) * 16 + (← hexDigit? second)) * 16 + (← hexDigit? third)) * 16 +
    (← hexDigit? fourth))

/-- The character of an escape of one letter. -/
def escapedCharacter? : Char → Option Char
  | '"' => some '"'
  | '\\' => some '\\'
  | '/' => some '/'
  | 'b' => some '\x08'
  | 'f' => some '\x0c'
  | 'n' => some '\n'
  | 'r' => some '\r'
  | 't' => some '\t'
  | _ => none

/-- Takes the second half of a surrogate pair and joins it with the first. -/
def takeLowSurrogate? (high : Nat) : List Char → Option (Char × List Char)
  | '\\' :: 'u' :: first :: second :: third :: fourth :: rest =>
    match hexUnit? first second third fourth with
    | some low =>
      if 0xDC00 ≤ low && low ≤ 0xDFFF then
        some (Char.ofNat (0x10000 + (high - 0xD800) * 0x400 + (low - 0xDC00)), rest)
      else none
    | none => none
  | _ => none

/-- Takes what follows a backslash. -/
def takeEscape? : List Char → Option (Char × List Char)
  | 'u' :: first :: second :: third :: fourth :: rest =>
    match hexUnit? first second third fourth with
    | some unit =>
      if 0xD800 ≤ unit && unit ≤ 0xDBFF then takeLowSurrogate? unit rest
      else if 0xDC00 ≤ unit && unit ≤ 0xDFFF then none
      else some (Char.ofNat unit, rest)
    | none => none
  | mark :: rest => (escapedCharacter? mark).map fun character => (character, rest)
  | [] => none

theorem length_takeLowSurrogate? {high : Nat} {text rest : List Char} {character : Char}
    (taken : takeLowSurrogate? high text = some (character, rest)) :
    rest.length < text.length := by
  unfold takeLowSurrogate? at taken
  split at taken <;> grind

/-- An escape takes at least one character. -/
theorem length_takeEscape? {text rest : List Char} {character : Char}
    (taken : takeEscape? text = some (character, rest)) : rest.length < text.length := by
  have pair := @length_takeLowSurrogate?
  unfold takeEscape? at taken
  split at taken <;> grind [Option.map_eq_some_iff]

/-- Takes the characters of a string up to its closing quote. -/
def takeString? (text : List Char) : Option (List Char × List Char) :=
  match text with
  | [] => none
  | '"' :: rest => some ([], rest)
  | '\\' :: rest =>
    match _taken : takeEscape? rest with
    | some (character, after) =>
      (takeString? after).map fun (content, rest) => (character :: content, rest)
    | none => none
  | character :: rest =>
    if character.toNat < 0x20 then none
    else (takeString? rest).map fun (content, rest) => (character :: content, rest)
termination_by text.length
decreasing_by
  · have := length_takeEscape? _taken
    simp only [List.length_cons]
    omega
  · simp

/-- Takes a given word. -/
def takeWord? (word : String) (value : Json) (text : List Char) : Option (Token × List Char) :=
  if word.toList.isPrefixOf text then some (.scalar value, text.drop word.length) else none

/-- Takes the token that starts with a given character. -/
def takeToken? (first : Char) (rest : List Char) : Option (Token × List Char) :=
  match first with
  | '[' => some (.openArray, rest)
  | ']' => some (.closeArray, rest)
  | '\x7b' => some (.openObject, rest)
  | '\x7d' => some (.closeObject, rest)
  | ',' => some (.comma, rest)
  | ':' => some (.colon, rest)
  | '"' => (takeString? rest).map fun (content, rest) => (.string (String.ofList content), rest)
  | 'n' => takeWord? "null" .null (first :: rest)
  | 't' => takeWord? "true" (.boolean true) (first :: rest)
  | 'f' => takeWord? "false" (.boolean false) (first :: rest)
  | _ => (takeNumber? (first :: rest)).map fun (number, rest) => (.scalar number, rest)

/-- A string takes at least its closing quote. -/
theorem length_takeString? {text content rest : List Char}
    (taken : takeString? text = some (content, rest)) : rest.length < text.length := by
  fun_induction takeString? text generalizing content rest with
  | case1 => simp at taken
  | case2 after => simp_all
  | case3 after character next escape ih =>
    have := length_takeEscape? escape
    simp only [Option.map_eq_some_iff, Prod.mk.injEq, Prod.exists] at taken
    obtain ⟨inner, outer, found, _, rfl⟩ := taken
    have := ih found
    simp only [List.length_cons]
    omega
  | case4 => simp at taken
  | case5 => simp at taken
  | case6 character after _ _ _ ih =>
    simp only [Option.map_eq_some_iff, Prod.mk.injEq, Prod.exists] at taken
    obtain ⟨inner, outer, found, _, rfl⟩ := taken
    have := ih found
    simp only [List.length_cons]
    omega

/-- A word is not empty. -/
theorem length_takeWord? {word : String} {value : Json} {text rest : List Char} {token : Token}
    (nonempty : 0 < word.length) (taken : takeWord? word value text = some (token, rest)) :
    rest.length < text.length := by
  simp only [takeWord?] at taken
  split at taken
  · rename_i starts
    have := (List.isPrefixOf_iff_prefix.1 starts).length_le
    simp only [String.length_toList, Option.some.injEq, Prod.mk.injEq] at this taken
    rw [← taken.2, List.length_drop]
    omega
  · simp at taken

/-- A token takes at least the character that it starts with. -/
theorem length_takeToken? {first : Char} {text rest : List Char} {token : Token}
    (taken : takeToken? first text = some (token, rest)) : rest.length ≤ text.length := by
  have word {name : String} {value : Json} (nonempty : 0 < name.length)
      (found : takeWord? name value (first :: text) = some (token, rest)) :
      rest.length ≤ text.length :=
    Nat.le_of_lt_succ (length_takeWord? nonempty found)
  unfold takeToken? at taken
  split at taken
  iterate 6 simp_all
  · simp only [Option.map_eq_some_iff, Prod.mk.injEq, Prod.exists] at taken
    obtain ⟨inner, outer, found, _, rfl⟩ := taken
    exact Nat.le_of_lt (length_takeString? found)
  · exact word (by decide) taken
  · exact word (by decide) taken
  · exact word (by decide) taken
  · simp only [Option.map_eq_some_iff, Prod.mk.injEq, Prod.exists] at taken
    obtain ⟨inner, outer, found, _, rfl⟩ := taken
    exact Nat.le_of_lt_succ (length_takeNumber? found)

/-- The tokens of a JSON text. -/
def scan? (text : List Char) : Option (List Token) :=
  match _dropped : text.dropWhile isBlank with
  | [] => some []
  | first :: rest =>
    match _taken : takeToken? first rest with
    | none => none
    | some (token, after) => (scan? after).map (token :: ·)
termination_by text.length
decreasing_by
  have := (List.dropWhile_sublist (l := text) isBlank).length_le
  have := length_takeToken? _taken
  simp_all only [List.length_cons]
  omega

end MeteredRules.Json
