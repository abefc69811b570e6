import MeteredRules.Text.Blank

/-!
# Runs of characters

A text splits into its longest beginning of accepted characters and a rest that starts with none
of them. Any split of that kind is this one. Taking blanks off the ends of a text is a case of it.
-/

namespace MeteredRules.Text

variable {accepted : Char → Bool} {run rest : List Char}

theorem takeWhile_eq_nil_of_head? (ended : ∀ next ∈ rest.head?, accepted next = false) :
    rest.takeWhile accepted = [] := by
  cases rest with
  | nil => rfl
  | cons next rest => simp [ended next rfl]

theorem dropWhile_eq_self_of_head? (ended : ∀ next ∈ rest.head?, accepted next = false) :
    rest.dropWhile accepted = rest := by
  cases rest with
  | nil => rfl
  | cons next rest => simp [ended next rfl]

theorem takeWhile_append_of_ended (inRun : ∀ character ∈ run, accepted character = true)
    (ended : ∀ next ∈ rest.head?, accepted next = false) :
    (run ++ rest).takeWhile accepted = run := by
  rw [List.takeWhile_append_of_pos inRun, takeWhile_eq_nil_of_head? ended, List.append_nil]

theorem dropWhile_append_of_ended (inRun : ∀ character ∈ run, accepted character = true)
    (ended : ∀ next ∈ rest.head?, accepted next = false) :
    (run ++ rest).dropWhile accepted = rest := by
  rw [List.dropWhile_append_of_pos inRun, dropWhile_eq_self_of_head? ended]

theorem takeWhile_eq_self (inRun : ∀ character ∈ run, accepted character = true) :
    run.takeWhile accepted = run := by
  induction run with
  | nil => rfl
  | cons character run ih =>
      rw [List.forall_mem_cons] at inRun
      rw [List.takeWhile_cons_of_pos inRun.1, ih inRun.2]

theorem dropWhile_eq_nil (inRun : ∀ character ∈ run, accepted character = true) :
    run.dropWhile accepted = [] := by
  induction run with
  | nil => rfl
  | cons character run ih =>
      rw [List.forall_mem_cons] at inRun
      rw [List.dropWhile_cons_of_pos inRun.1, ih inRun.2]

theorem eq_false_of_mem_head?_dropWhile {text : List Char} {next : Char}
    (head : next ∈ (text.dropWhile accepted).head?) : accepted next = false := by
  have refused := List.head?_dropWhile_not accepted text
  rw [Option.mem_def.mp head] at refused
  exact refused

theorem isBlank_of_isDigit {character : Char} (digit : character.isDigit = true) :
    isBlank character = false := by
  have ⟨least, greatest⟩ : 48 ≤ character.toNat ∧ character.toNat ≤ 57 := by
    simpa [Char.isDigit, Char.le_def, UInt32.le_iff_toNat_le] using digit
  simp only [isBlank]
  grind

theorem trim_eq_self {text : List Char} (noBlank : ∀ character ∈ text, isBlank character = false) :
    trim text = text := by
  have start_eq : trimStart text = text :=
    dropWhile_eq_self_of_head? fun next head => noBlank next (List.mem_of_mem_head? head)
  have end_eq : trimStart text.reverse = text.reverse := by
    refine dropWhile_eq_self_of_head? fun next head => noBlank next ?_
    exact List.mem_reverse.mp (List.mem_of_mem_head? head)
  rw [trim, start_eq, end_eq, List.reverse_reverse]

theorem trim_cons_of_isBlank {blank : Char} (isBlank : isBlank blank = true) (text : List Char) :
    trim (blank :: text) = trim text := by
  have start_eq : trimStart (blank :: text) = trimStart text :=
    List.dropWhile_cons_of_pos isBlank
  rw [trim, start_eq, trim]

theorem trimStart_eq_append (text : List Char) :
    trimStart text = trim text ++ ((trimStart text).reverse.takeWhile isBlank).reverse := by
  rw [trim, ← List.reverse_append]
  simp only [trimStart, List.takeWhile_append_dropWhile, List.reverse_reverse]

/-- Nothing but blanks is taken off the two ends of a text. -/
theorem exists_eq_append_trim (text : List Char) :
    ∃ before after, (∀ character ∈ before, isBlank character = true) ∧
      (∀ character ∈ after, isBlank character = true) ∧ text = before ++ trim text ++ after := by
  refine ⟨text.takeWhile isBlank, ((trimStart text).reverse.takeWhile isBlank).reverse, ?_, ?_, ?_⟩
  · exact List.all_eq_true.mp List.all_takeWhile
  · intro character character_mem
    rw [List.mem_reverse] at character_mem
    exact List.all_eq_true.mp List.all_takeWhile character character_mem
  · rw [List.append_assoc, ← trimStart_eq_append]
    exact List.takeWhile_append_dropWhile.symm

/-- What is left of a text between blanks, if neither of its ends is blank. -/
theorem trim_append {before core after : List Char}
    (first : ∀ character ∈ core.head?, isBlank character = false)
    (last : ∀ character ∈ core.getLast?, isBlank character = false)
    (blankBefore : ∀ character ∈ before, isBlank character = true)
    (blankAfter : ∀ character ∈ after, isBlank character = true) :
    trim (before ++ core ++ after) = core := by
  by_cases empty : core = []
  · subst empty
    have start_eq : trimStart (before ++ [] ++ after) = [] := by
      apply dropWhile_eq_nil
      simp only [List.append_nil, List.mem_append]
      rintro character (inBefore | inAfter)
      · exact blankBefore character inBefore
      · exact blankAfter character inAfter
    rw [trim, start_eq]
    rfl
  · have start_eq : trimStart (before ++ core ++ after) = core ++ after := by
      rw [List.append_assoc]
      apply dropWhile_append_of_ended blankBefore
      rcases List.exists_cons_of_ne_nil empty with ⟨head, more, rfl⟩
      exact first
    have end_eq : trimStart (core ++ after).reverse = core.reverse := by
      rw [List.reverse_append]
      apply dropWhile_append_of_ended
      · intro character character_mem
        exact blankAfter character (List.mem_reverse.mp character_mem)
      · rwa [List.head?_reverse]
    rw [trim, start_eq, end_eq, List.reverse_reverse]

/-- A text is what another one holds between the blanks at its two ends. -/
structure Trims (text core : List Char) : Prop where
  between : ∃ before after, (∀ character ∈ before, isBlank character = true) ∧
    (∀ character ∈ after, isBlank character = true) ∧ text = before ++ core ++ after
  first : ∀ character ∈ core.head?, isBlank character = false
  last : ∀ character ∈ core.getLast?, isBlank character = false

theorem trims_trim (text : List Char) : Trims text (trim text) where
  between := exists_eq_append_trim text
  first := by
    intro character head
    apply @eq_false_of_mem_head?_dropWhile isBlank text
    change character ∈ (trimStart text).head?
    rw [trimStart_eq_append, List.head?_append, Option.mem_def.mp head]
    rfl
  last := by
    intro character final
    rw [trim, List.getLast?_reverse] at final
    exact eq_false_of_mem_head?_dropWhile final

theorem trims_iff {text core : List Char} : Trims text core ↔ trim text = core := by
  constructor
  · rintro ⟨⟨before, after, blankBefore, blankAfter, rfl⟩, first, last⟩
    exact trim_append first last blankBefore blankAfter
  · rintro rfl
    exact trims_trim text

end MeteredRules.Text
