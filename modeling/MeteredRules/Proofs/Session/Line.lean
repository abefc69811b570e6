import MeteredRules.Proofs.Decimal.Numeral
import MeteredRules.Proofs.Text.Runs
import MeteredRules.Session

/-!
# What lines mean

Which lines are blank, which are expressions and which are commands. A line counts without the
blanks around it. If it starts with a colon then what follows is the name of a command and, after a
blank, an argument, which counts without the blanks around it, too. The rules do not mention how
lines are read; every line is then shown to mean what it is read as and nothing else.
-/

namespace MeteredRules

namespace Command

/-- The names of commands. -/
def names : List String :=
  ["help", "env", "vars", "clear", "budget", "json", "quit", "exit"]

/-- Digits, after a plus sign or not, with the number that they denote. -/
inductive LimitText : List Char → Nat → Prop where
  | plain {digits : List Char} {value : Nat} (numeral : Decimal.Numeral digits value) :
      LimitText digits value
  | plus {digits : List Char} {value : Nat} (numeral : Decimal.Numeral digits value) :
      LimitText ('+' :: digits) value

/-- The text after a colon is a name alone, or it is a name, a blank and an argument. -/
inductive Parts : List Char → (name argument : List Char) → Prop where
  | alone {name : List Char} (solid : ∀ character ∈ name, Text.isBlank character = false) :
      Parts name name []
  | withArgument {name rest argument : List Char} {blank : Char}
      (solid : ∀ character ∈ name, Text.isBlank character = false)
      (isBlank : Text.isBlank blank = true) (trims : Text.Trims rest argument) :
      Parts (name ++ blank :: rest) name argument

/-- What a name and an argument command. -/
inductive Means : (name argument : String) → Command → Prop where
  | help (argument : String) : Means "help" argument .help
  | listBindings (argument : String) : Means "env" argument .listBindings
  | load (text : String) : Means "vars" text (.load text)
  | clear (argument : String) : Means "clear" argument .clear
  | showLimit : Means "budget" "" .showLimit
  | removeLimit : Means "budget" "off" .removeLimit
  | setLimit {argument : String} {limit : UInt64}
      (denotes : LimitText argument.toList limit.toNat) : Means "budget" argument (.setLimit limit)
  | badLimit {argument : String} (present : argument ≠ "") (notOff : argument ≠ "off")
      (denotesNone : ∀ limit : UInt64, ¬LimitText argument.toList limit.toNat) :
      Means "budget" argument .badLimit
  | toggleJson (argument : String) : Means "json" argument .toggleJson
  | quit (argument : String) : Means "quit" argument .quit
  | exit (argument : String) : Means "exit" argument .quit
  | unknown {name : String} (argument : String) (unnamed : name ∉ names) :
      Means name argument (.unknown name)

end Command

/-- What a line means. -/
inductive Line.Means (line : String) : Line → Prop where
  | blank (trims : Text.Trims line.toList []) : Means line .blank
  | expression {first : Char} {rest : List Char} (trims : Text.Trims line.toList (first :: rest))
      (noColon : first ≠ ':') : Means line (.expression (String.ofList (first :: rest)))
  | command {rest : List Char} {name argument : String} {command : Command}
      (trims : Text.Trims line.toList (':' :: rest))
      (parts : Command.Parts rest name.toList argument.toList)
      (means : Command.Means name argument command) : Means line (.command command)

namespace Command

/-! ## Budgets -/

theorem readLimit?_eq_some_iff {text : List Char} {limit : UInt64} :
    readLimit? text = some limit ↔ LimitText text limit.toNat := by
  have fits (number : Nat) : (if number < UInt64.size then some (UInt64.ofNat number) else none) =
      some limit ↔ number = limit.toNat := by
    split
    · rename_i small
      rw [Option.some.injEq, ← UInt64.toNat_inj, UInt64.toNat_ofNat_of_lt' small]
    · rename_i large
      have bound := limit.toNat_lt_size
      simp only [reduceCtorEq, false_iff]
      omega
  unfold readLimit?
  simp only [Option.bind_eq_some_iff, Decimal.readNat?_eq_some_iff, fits]
  constructor
  · rintro ⟨_, numeral, rfl⟩
    split at numeral
    · exact .plus numeral
    · exact .plain numeral
  · intro denotes
    refine ⟨_, ?_, rfl⟩
    cases denotes with
    | plus numeral => exact numeral
    | plain numeral =>
        split
        · have isDigits := (Decimal.isDigits_iff.mp (Decimal.numeral_iff.mp numeral).1).2
          have isDigit := isDigits '+' List.mem_cons_self
          cases isDigit
        · exact numeral

theorem readLimit?_eq_none_iff {text : List Char} :
    readLimit? text = none ↔ ∀ limit : UInt64, ¬LimitText text limit.toNat := by
  simp only [Option.eq_none_iff_forall_ne_some, ne_eq, readLimit?_eq_some_iff]

theorem ofLimit_of_other {argument : String} (present : argument ≠ "") (notOff : argument ≠ "off") :
    ofLimit argument = (readLimit? argument.toList).elim .badLimit .setLimit := by
  simp only [ofLimit, beq_iff_eq, notOff, present, if_false]
  cases readLimit? argument.toList <;> rfl

theorem means_ofLimit (argument : String) : Means "budget" argument (ofLimit argument) := by
  by_cases missing : argument = ""
  · subst missing
    exact .showLimit
  by_cases off : argument = "off"
  · subst off
    exact .removeLimit
  rw [ofLimit_of_other missing off]
  cases limit : readLimit? argument.toList with
  | some limit => exact .setLimit (readLimit?_eq_some_iff.mp limit)
  | none => exact .badLimit missing off (readLimit?_eq_none_iff.mp limit)

theorem ofLimit_of_limitText {argument : String} {limit : UInt64}
    (denotes : LimitText argument.toList limit.toNat) : ofLimit argument = .setLimit limit := by
  rw [← readLimit?_eq_some_iff] at denotes
  rw [ofLimit_of_other, denotes]
  · rfl
  · rintro rfl
    cases denotes
  · rintro rfl
    cases denotes

theorem ofLimit_of_not_limitText {argument : String} (present : argument ≠ "")
    (notOff : argument ≠ "off")
    (denotesNone : ∀ limit : UInt64, ¬LimitText argument.toList limit.toNat) :
    ofLimit argument = .badLimit := by
  rw [ofLimit_of_other present notOff, readLimit?_eq_none_iff.mpr denotesNone]
  rfl

/-! ## Names and arguments -/

theorem ofName_of_unnamed {name : String} (argument : String) (unnamed : name ∉ names) :
    ofName name argument = .unknown name := by
  simp only [names, List.mem_cons, List.not_mem_nil, or_false, not_or] at unnamed
  simp [ofName, unnamed]

/-- A name and an argument are the command that they mean. -/
theorem ofName_eq_iff {name argument : String} {command : Command} :
    ofName name argument = command ↔ Means name argument command := by
  constructor
  · rintro rfl
    unfold ofName
    split
    · exact .help argument
    · exact .listBindings argument
    · exact .load argument
    · exact .clear argument
    · exact means_ofLimit argument
    · exact .toggleJson argument
    · exact .quit argument
    · exact .exit argument
    · refine .unknown argument ?_
      simp_all [names]
  · intro means
    cases means with
    | setLimit denotes => exact ofLimit_of_limitText denotes
    | badLimit present notOff denotesNone =>
        exact ofLimit_of_not_limitText present notOff denotesNone
    | unknown argument unnamed => exact ofName_of_unnamed argument unnamed
    | _ => rfl

theorem parts_iff {text name argument : List Char} :
    Parts text name argument ↔
      text.takeWhile inName = name ∧ Text.trim (text.dropWhile inName) = argument := by
  constructor
  · intro parts
    cases parts with
    | alone solid =>
        have named : ∀ character ∈ text, inName character = true := by simpa [inName] using solid
        rw [Text.takeWhile_eq_self named, Text.dropWhile_eq_nil named]
        exact ⟨rfl, rfl⟩
    | @withArgument _ rest _ blank solid isBlank trims =>
        have named : ∀ character ∈ name, inName character = true := by simpa [inName] using solid
        have ended : ∀ next ∈ (blank :: rest).head?, inName next = false := by
          simpa [inName] using isBlank
        rw [Text.takeWhile_append_of_ended named ended, Text.dropWhile_append_of_ended named ended,
          Text.trim_cons_of_isBlank isBlank, Text.trims_iff.mp trims]
        exact ⟨rfl, rfl⟩
  · rintro ⟨rfl, rfl⟩
    have solid : ∀ character ∈ text.takeWhile inName, Text.isBlank character = false := by
      intro character member
      simpa [inName] using List.all_eq_true.mp List.all_takeWhile character member
    have whole := List.takeWhile_append_dropWhile (p := inName) (l := text)
    cases after : text.dropWhile inName with
    | nil =>
        rw [after, List.append_nil] at whole
        rw [whole] at solid ⊢
        exact .alone solid
    | cons blank rest =>
        have isBlank : Text.isBlank blank = true := by
          have first : blank ∈ (text.dropWhile inName).head? := by
            rw [after]
            rfl
          simpa [inName] using Text.eq_false_of_mem_head?_dropWhile first
        rw [Text.trim_cons_of_isBlank isBlank]
        have parts := Parts.withArgument solid isBlank (Text.trims_trim rest)
        rwa [← after, whole] at parts

/-- What follows the colon of a command is read as its name and its argument mean. -/
theorem read_eq_iff {text : List Char} {command : Command} :
    read text = command ↔ ∃ name argument : String,
      Parts text name.toList argument.toList ∧ Means name argument command := by
  rw [read, ofName_eq_iff]
  constructor
  · intro means
    refine ⟨_, _, ?_, means⟩
    rw [parts_iff, String.toList_ofList, String.toList_ofList]
    exact ⟨rfl, rfl⟩
  · rintro ⟨name, argument, parts, means⟩
    rcases parts_iff.mp parts with ⟨name_eq, argument_eq⟩
    rwa [name_eq, argument_eq, String.ofList_toList, String.ofList_toList]

end Command

/-- A line means what it is read as. -/
theorem Line.read_eq_iff {line : String} {reading : Line} :
    read line = reading ↔ Means line reading := by
  constructor
  · rintro rfl
    unfold read
    split
    · rename_i trimmed
      exact .blank (Text.trims_iff.mpr trimmed)
    · rename_i rest trimmed
      rcases Command.read_eq_iff.mp rfl with ⟨name, argument, parts, means⟩
      exact .command (Text.trims_iff.mpr trimmed) parts means
    · rename_i trimmed noBlank noCommand
      cases kept : Text.trim line.toList with
      | nil => exact absurd kept noBlank
      | cons first rest =>
          refine .expression (Text.trims_iff.mpr kept) ?_
          rintro rfl
          exact noCommand rest kept
  · intro means
    cases means with
    | blank trims => rw [read, Text.trims_iff.mp trims]
    | expression trims noColon =>
        rw [read, Text.trims_iff.mp trims]
        split
        · contradiction
        · simp_all
        · rfl
    | command trims parts means =>
        rw [read, Text.trims_iff.mp trims]
        exact congrArg Line.command (Command.read_eq_iff.mpr ⟨_, _, parts, means⟩)

end MeteredRules
