import MeteredRules.Proofs.Reader.Word

/-!
# Tokens and the grammar

Scanning a text agrees with the grammar piece by piece: trivia is skipped exactly as far as it
reaches, and the token that a text starts with stands for a single item exactly if the text starts
with that item.
-/

namespace MeteredRules.Reader

variable {comments : Bool}

/-! ## Trivia -/

theorem skipTrivia_nil : skipTrivia comments [] = [] := by
  rw [skipTrivia.eq_def]

theorem skipTrivia_cons (character : Char) (rest : List Char) :
    skipTrivia comments (character :: rest) =
      if Text.isBlank character then skipTrivia comments rest
      else if comments && character == ';' then skipTrivia comments (rest.dropWhile (· != '\n'))
      else character :: rest := by
  rw [skipTrivia.eq_def]

/-- What can follow trivia that goes as far as possible: no blank, and no comment. -/
def Significant (comments : Bool) (text : List Char) : Prop :=
  ∀ first ∈ text.head?, Text.isBlank first = false ∧ (comments && first == ';') = false

theorem skipTrivia_of_significant {text : List Char} (significant : Significant comments text) :
    skipTrivia comments text = text := by
  cases text with
  | nil => exact skipTrivia_nil
  | cons first rest =>
      have ⟨notBlank, noComment⟩ := significant first rfl
      rw [skipTrivia_cons, notBlank, noComment]
      rfl

theorem significant_skipTrivia (text : List Char) :
    Significant comments (skipTrivia comments text) := by
  fun_induction skipTrivia comments text with
  | case1 => simp [Significant]
  | case2 character rest _ ih => exact ih
  | case3 character rest _ _ ih => exact ih
  | case4 character rest notBlank noComment =>
      intro first head
      obtain rfl : character = first := by simpa using head
      exact ⟨by simpa using notBlank, by simpa using noComment⟩

theorem trivia_skipTrivia (text : List Char) :
    Trivia comments text (skipTrivia comments text) := by
  fun_induction skipTrivia comments text with
  | case1 => exact .none
  | case2 character rest isBlank ih => exact .blank isBlank ih
  | case3 character rest _ isComment ih =>
      simp only [Bool.and_eq_true, beq_iff_eq] at isComment
      rcases isComment with ⟨allowed, rfl⟩
      have inLine : '\n' ∉ rest.takeWhile (· != '\n') := by
        intro lineFeed
        simpa using List.all_eq_true.mp List.all_takeWhile _ lineFeed
      have ended : ∀ next ∈ (rest.dropWhile (· != '\n')).head?, next = '\n' := by
        intro next head
        simpa using Text.eq_false_of_mem_head?_dropWhile head
      have comment := Trivia.comment allowed inLine ended ih
      rwa [List.takeWhile_append_dropWhile] at comment
  | case4 => exact .none

/-- All trivia is skipped: what stands behind it is what matters. -/
theorem Trivia.skipTrivia_eq {text rest : List Char} (trivia : Trivia comments text rest) :
    skipTrivia comments text = skipTrivia comments rest := by
  induction trivia with
  | none => rfl
  | blank isBlank _ ih => rw [skipTrivia_cons, if_pos isBlank, ih]
  | @comment body text rest allowed inLine ended _ ih =>
      have skipped : (body ++ text).dropWhile (· != '\n') = text := by
        apply Text.dropWhile_append_of_ended
        · intro character character_mem
          simp only [bne_iff_ne, ne_eq]
          rintro rfl
          exact inLine character_mem
        · intro next head
          simp [ended next head]
      have notBlank : ¬Text.isBlank ';' = true := by decide
      have isComment : (comments && ';' == ';') = true := by simp [allowed]
      rw [skipTrivia_cons, if_neg notBlank, if_pos isComment, skipped, ih]

/-! ## Single tokens -/

theorem enclosed?_append {mark : Char} {content : List Char} (absent : mark ∉ content)
    (rest : List Char) : enclosed? mark (content ++ mark :: rest) = some (content, rest) := by
  have inContent : ∀ character ∈ content, (character != mark) = true := by
    intro character character_mem
    rw [bne_iff_ne]
    rintro rfl
    exact absent character_mem
  have markEnds : ∀ next ∈ (mark :: rest).head?, (next != mark) = false := by simp
  rw [enclosed?, Text.dropWhile_append_of_ended inContent markEnds,
    Text.takeWhile_append_of_ended inContent markEnds]

/-- What stands up to a mark is the text before the first of these marks. -/
theorem eq_append_of_enclosed? {mark : Char} {text content rest : List Char}
    (found : enclosed? mark text = some (content, rest)) :
    mark ∉ content ∧ text = content ++ mark :: rest := by
  unfold enclosed? at found
  split at found
  · simp at found
  · rename_i first after dropped
    obtain ⟨rfl, rfl⟩ : text.takeWhile (· != mark) = content ∧ after = rest := by
      simpa using found
    have head : first ∈ (text.dropWhile (· != mark)).head? := by simp [dropped]
    obtain rfl : first = mark := by
      simpa using Text.eq_false_of_mem_head?_dropWhile head
    refine ⟨?_, ?_⟩
    · intro taken
      simpa using List.all_eq_true.mp List.all_takeWhile _ taken
    · rw [← dropped, List.takeWhile_append_dropWhile]

/-- The characters that start a word, as far as they are decided by themselves. -/
theorem next_of_word {first : Char} {rest : List Char} (notOpening : first ≠ '(')
    (notClosing : first ≠ ')') (notQuote : first ≠ '\'')
    (notTime : ∀ after, first = '#' → rest ≠ 't' :: '\x7b' :: after) :
    Token.next comments first rest =
      (Token.ofWord (first :: rest.takeWhile fun character => !isDelimiter comments character),
        rest.dropWhile fun character => !isDelimiter comments character) := by
  unfold Token.next
  split
  · exact absurd rfl notOpening
  · exact absurd rfl notClosing
  · exact absurd rfl notQuote
  · exact absurd rfl (notTime _ rfl)
  · rfl

theorem isDelimiter_eq_false_iff {character : Char} :
    isDelimiter comments character = false ↔
      Text.isBlank character = false ∧ character ≠ '(' ∧ character ≠ ')' ∧ character ≠ '\'' ∧
        (comments && character == ';') = false := by
  simp [isDelimiter, and_assoc]

/-- Every single item starts with a character that is neither blank nor part of a comment. -/
theorem Single.significant {text rest : List Char} {node : Node}
    (single : Single comments text node rest) : Significant comments text := by
  intro first head
  cases single with
  | string noQuote =>
      obtain rfl : '\'' = first := by simpa using head
      exact ⟨by decide, by simp⟩
  | instant noBrace isInstant =>
      obtain rfl : '#' = first := by simpa using head
      exact ⟨by decide, by simp⟩
  | @word word rest node nonempty noHash undelimited ended means =>
      cases word with
      | nil => exact absurd rfl nonempty
      | cons initial word =>
          obtain rfl : initial = first := by simpa using head
          have free := isDelimiter_eq_false_iff.mp (undelimited initial (by simp))
          exact ⟨free.1, free.2.2.2.2⟩

theorem Single.next {first : Char} {text rest : List Char} {node : Node}
    (single : Single comments (first :: text) node rest) :
    ∃ token : Token, token.Denotes node ∧ Token.next comments first text = (token, rest) := by
  generalize whole_eq : first :: text = whole at single
  cases single with
  | @string content rest noQuote =>
      rcases List.cons.inj whole_eq with ⟨rfl, rfl⟩
      refine ⟨_, .atom _, ?_⟩
      simp only [Token.next]
      rw [enclosed?_append noQuote]
  | @instant content rest instant noBrace isInstant =>
      rcases List.cons.inj whole_eq with ⟨rfl, rfl⟩
      refine ⟨_, .atom _, ?_⟩
      simp only [Token.next]
      rw [enclosed?_append noBrace]
      simp only [Token.ofTime, isInstant]
  | @word word rest node nonempty noHash undelimited ended means =>
      cases word with
      | nil => exact absurd rfl nonempty
      | cons initial word =>
          obtain ⟨rfl, rfl⟩ : first = initial ∧ text = word ++ rest := by simpa using whole_eq
          rw [List.forall_mem_cons] at undelimited
          have free := isDelimiter_eq_false_iff.mp undelimited.1
          have inWord : ∀ character ∈ word, (!isDelimiter comments character) = true := by
            intro character character_mem
            simp [undelimited.2 character character_mem]
          have wordEnds : ∀ next ∈ rest.head?, (!isDelimiter comments next) = false := by
            intro next head
            simp [ended next head]
          refine ⟨_, means.denotes noHash, ?_⟩
          rw [next_of_word free.2.1 free.2.2.1 free.2.2.2.1 ?_,
            Text.takeWhile_append_of_ended inWord wordEnds,
            Text.dropWhile_append_of_ended inWord wordEnds]
          rintro after rfl
          exact absurd rfl noHash

/-- A token that stands for an expression is read from a single item. -/
theorem single_of_next {first : Char} {text rest : List Char} {token : Token} {node : Node}
    (significant : Significant comments (first :: text)) (denotes : token.Denotes node)
    (read : Token.next comments first text = (token, rest)) :
    Single comments (first :: text) node rest := by
  unfold Token.next at read
  split at read
  · cases read
    cases denotes
  · cases read
    cases denotes
  · split at read
    · rename_i content after enclosed
      cases read
      cases denotes
      rcases eq_append_of_enclosed? enclosed with ⟨noQuote, rfl⟩
      exact .string noQuote
    · cases read
      cases denotes
  · split at read
    · rename_i content after enclosed
      cases read
      rcases eq_append_of_enclosed? enclosed with ⟨noBrace, rfl⟩
      unfold Token.ofTime at denotes
      split at denotes
      · rename_i instant isInstant
        cases denotes
        exact .instant noBrace isInstant
      · cases denotes
    · cases read
      cases denotes
  · rename_i notOpening notClosing notQuote notTime
    cases read
    have ⟨notBlank, noComment⟩ := significant first rfl
    have parted : first :: text =
        (first :: text.takeWhile fun character => !isDelimiter comments character) ++
          text.dropWhile fun character => !isDelimiter comments character := by
      rw [List.cons_append, List.takeWhile_append_dropWhile]
    rw [parted]
    apply Single.word
    · exact List.cons_ne_nil _ _
    · intro hash
      exact not_denotes_of_hash hash denotes
    · rw [List.forall_mem_cons]
      refine ⟨isDelimiter_eq_false_iff.mpr
        ⟨notBlank, notOpening, notClosing, notQuote, noComment⟩, ?_⟩
      intro character taken
      simpa using List.all_eq_true.mp List.all_takeWhile _ taken
    · intro next head
      simpa using Text.eq_false_of_mem_head?_dropWhile head
    · exact word_of_denotes denotes

theorem ofWord_cases (word : List Char) :
    (∃ node, (Token.ofWord word).Denotes node) ∨ ∃ fault, Token.ofWord word = .fault fault := by
  unfold Token.ofWord
  split
  · split
    · exact .inl ⟨_, .atom _⟩
    · exact .inr ⟨_, rfl⟩
  · split
    · split
      · exact .inl ⟨_, .atom _⟩
      · exact .inr ⟨_, rfl⟩
    · split
      · exact .inr ⟨_, rfl⟩
      · left
        split
        · exact ⟨_, .atom _⟩
        · exact ⟨_, .atom _⟩
        · exact ⟨_, .atom _⟩
        · exact ⟨_, .symbol _⟩

/-- A token other than a parenthesis stands for an expression or for a fault. -/
theorem next_cases {first : Char} {rest : List Char} (notOpening : first ≠ '(')
    (notClosing : first ≠ ')') :
    (∃ node, (Token.next comments first rest).1.Denotes node) ∨
      ∃ fault, (Token.next comments first rest).1 = .fault fault := by
  unfold Token.next
  split
  · exact absurd rfl notOpening
  · exact absurd rfl notClosing
  · split
    · exact .inl ⟨_, .atom _⟩
    · exact .inr ⟨_, rfl⟩
  · split
    · unfold Token.ofTime
      split
      · exact .inl ⟨_, .atom _⟩
      · exact .inr ⟨_, rfl⟩
    · exact .inr ⟨_, rfl⟩
  · exact ofWord_cases _

/-! ## Scanning -/

theorem scan_of_skipTrivia_nil {text : List Char} (skipped : skipTrivia comments text = []) :
    scan comments text = [] := by
  rw [scan]
  split
  · rfl
  · rename_i found
    simp [skipped] at found

theorem scan_of_skipTrivia_cons {text rest : List Char} {first : Char}
    (skipped : skipTrivia comments text = first :: rest) :
    scan comments text =
      ⟨(Token.next comments first rest).1, first :: rest⟩ ::
        scan comments (Token.next comments first rest).2 := by
  rw [scan]
  split
  · rename_i found
    simp [skipped] at found
  · rename_i initial after found
    rw [skipped] at found
    cases found
    rfl

/-- The tokens of a text are those of what stands behind its trivia. -/
theorem Trivia.scan_eq {text rest : List Char} (trivia : Trivia comments text rest) :
    scan comments text = scan comments rest := by
  have same := trivia.skipTrivia_eq
  rcases skipped : skipTrivia comments rest with _ | ⟨first, after⟩
  · rw [scan_of_skipTrivia_nil skipped, scan_of_skipTrivia_nil (same.trans skipped)]
  · rw [scan_of_skipTrivia_cons skipped, scan_of_skipTrivia_cons (same.trans skipped)]

end MeteredRules.Reader
