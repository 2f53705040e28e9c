import PseudocodeLexer.Proofs.Characters
import PseudocodeLexer.Token.Scan

/-!
# Opening characters

Each rule recognizes only lexemes that begin with one of its opening characters
(`Rule.opens_of_recognize?`). At a place of a line, therefore, only the rules that the character
there opens matter, and of these only the ones that need no word boundary behind a word character:
the candidates (`firstMatch?_cons`). For each class of characters the candidates are a short list.
-/

namespace PseudocodeLexer

open Text

/-! ## Words of the vocabularies -/

/-- Every one of the words begins as an identifier does. -/
def OpenAsIdentifiers (words : List Text) : Prop :=
  ∀ word ∈ words, word.head?.any isIdentifierStart = true

theorem OpenAsIdentifiers.exists_cons {words : List Text} (h : OpenAsIdentifiers words)
    {word : Text} (hmem : word ∈ words) :
    ∃ c tail, word = c :: tail ∧ isIdentifierStart c = true := by
  have hopen := h word hmem
  cases word with
  | nil => cases hopen
  | cons c tail => exact ⟨c, tail, rfl, hopen⟩

theorem ControlKeyword.words_open : OpenAsIdentifiers ControlKeyword.words := by
  unfold OpenAsIdentifiers
  decide +kernel

theorem IoKeyword.words_open : OpenAsIdentifiers IoKeyword.words := by
  unfold OpenAsIdentifiers
  decide +kernel

theorem TypeKeyword.words_open : OpenAsIdentifiers TypeKeyword.words := by
  unfold OpenAsIdentifiers
  decide +kernel

/-! ## What opens a rule -/

namespace Rule

/-- Whether a lexeme of the rule can begin with the character. -/
def opens : Rule → Char → Bool
  | .controlKeyword, c | .ioKeyword, c | .typeKeyword, c | .identifier, c => isIdentifierStart c
  | .string, c => c == '"'
  | .comment, c => c == '/'
  | .number, c => c.isDigit
  | .assignment, c => c == '<'
  | .comparison, c => (Comparison.ofFirst? c).isSome
  | .operator, c => (Operator.ofChar? c).isSome
  | .punctuation, c => (Punctuation.ofChar? c).isSome
  | .whitespace, c => isBlank c

private theorem isIdentifierStart_of_keyword? {κ : Type} {v : Vocabulary κ} {c : Char}
    {rest : Text} {found : κ × Text × Text} (hwords : OpenAsIdentifiers v.words)
    (h : v.keyword? (c :: rest) = some found) : isIdentifierStart c = true := by
  obtain ⟨concept, word, after⟩ := found
  have hword := Vocabulary.wholeWord?_of_keyword? h
  obtain ⟨d, tail, rfl, hstart⟩ := hwords.exists_cons (wholeWord?_mem hword)
  obtain ⟨rfl, -⟩ := List.cons.inj (wholeWord?_append hword)
  exact hstart

/-- A rule recognizes something only behind one of its opening characters. -/
theorem opens_of_recognize? {rule : Rule} {c : Char} {rest : Text} {found : Kind × Text × Text}
    (h : rule.recognize? (c :: rest) = some found) : rule.opens c = true := by
  cases rule with
  | controlKeyword =>
      obtain ⟨_, hfound, -⟩ := Option.map_eq_some_iff.mp h
      exact isIdentifierStart_of_keyword? ControlKeyword.words_open hfound
  | ioKeyword =>
      obtain ⟨_, hfound, -⟩ := Option.map_eq_some_iff.mp h
      exact isIdentifierStart_of_keyword? IoKeyword.words_open hfound
  | typeKeyword =>
      obtain ⟨_, hfound, -⟩ := Option.map_eq_some_iff.mp h
      exact isIdentifierStart_of_keyword? TypeKeyword.words_open hfound
  | string =>
      obtain ⟨_, hfound, -⟩ := Option.map_eq_some_iff.mp h
      unfold StringLiteral.recognize? at hfound
      split at hfound
      · rename_i heq
        cases heq
        rfl
      · simp at hfound
  | comment =>
      obtain ⟨_, hfound, -⟩ := Option.map_eq_some_iff.mp h
      by_cases hc : c = '/'
      · subst c
        rfl
      · simp [CommentStyle.recognize?, blockComment?, lineComment?, hc] at hfound
  | number =>
      obtain ⟨_, hfound, -⟩ := Option.map_eq_some_iff.mp h
      show c.isDigit = true
      cases hc : c.isDigit with
      | true => rfl
      | false => simp [NumericLiteral.recognize?, hc] at hfound
  | assignment =>
      obtain ⟨_, hfound, -⟩ := Option.map_eq_some_iff.mp h
      unfold assignment? at hfound
      split at hfound
      · rename_i heq
        cases heq
        rfl
      · simp at hfound
  | comparison =>
      obtain ⟨_, hfound, -⟩ := Option.map_eq_some_iff.mp h
      unfold Comparison.recognize? at hfound
      split at hfound
      · rename_i heq
        cases heq
        obtain ⟨_, hfirst, -⟩ := Option.map_eq_some_iff.mp hfound
        show (Comparison.ofFirst? c).isSome = true
        rw [hfirst]
        rfl
      · simp at hfound
  | operator =>
      obtain ⟨_, hfound, -⟩ := Option.map_eq_some_iff.mp h
      obtain ⟨_, hchar, -⟩ := Option.map_eq_some_iff.mp hfound
      show (Operator.ofChar? c).isSome = true
      rw [hchar]
      rfl
  | punctuation =>
      obtain ⟨_, hfound, -⟩ := Option.map_eq_some_iff.mp h
      obtain ⟨_, hchar, -⟩ := Option.map_eq_some_iff.mp hfound
      show (Punctuation.ofChar? c).isSome = true
      rw [hchar]
      rfl
  | identifier =>
      obtain ⟨_, hfound, -⟩ := Option.map_eq_some_iff.mp h
      show isIdentifierStart c = true
      cases hc : isIdentifierStart c with
      | true => rfl
      | false => simp [identifier?, hc] at hfound
  | whitespace =>
      obtain ⟨_, hfound, -⟩ := Option.map_eq_some_iff.mp h
      show isBlank c = true
      cases hc : isBlank c with
      | true => rfl
      | false => simp [blanks?, hc] at hfound

theorem recognize?_of_not_opens {rule : Rule} {c : Char} {rest : Text}
    (h : rule.opens c = false) : rule.recognize? (c :: rest) = none := by
  cases hfound : rule.recognize? (c :: rest) with
  | none => rfl
  | some found =>
      rw [opens_of_recognize? hfound] at h
      exact Bool.noConfusion h

/-- The anchored rules are those whose lexemes begin with a word character. -/
theorem wordAnchored_of_opens {rule : Rule} {c : Char} (h : rule.opens c = true) :
    rule.wordAnchored = isWordChar c := by
  cases rule with
  | controlKeyword | ioKeyword | typeKeyword | identifier =>
      exact (isWordChar_of_isIdentifierStart h).symm
  | number => exact (isWordChar_of_isDigit h).symm
  | string =>
      obtain rfl : c = '"' := beq_iff_eq.mp h
      decide
  | comment =>
      obtain rfl : c = '/' := beq_iff_eq.mp h
      decide
  | assignment =>
      obtain rfl : c = '<' := beq_iff_eq.mp h
      decide
  | comparison =>
      obtain ⟨comparison, hfirst⟩ := Option.isSome_iff_exists.mp h
      obtain ⟨operator, hchar⟩ := Comparison.exists_operator_of_ofFirst? hfirst
      rw [Operator.ofChar?_eq_some hchar, operator.not_isWordChar_char]
      rfl
  | operator =>
      obtain ⟨operator, hchar⟩ := Option.isSome_iff_exists.mp h
      rw [Operator.ofChar?_eq_some hchar, operator.not_isWordChar_char]
      rfl
  | punctuation =>
      obtain ⟨mark, hchar⟩ := Option.isSome_iff_exists.mp h
      rw [Punctuation.ofChar?_eq_some hchar, mark.not_isWordChar_char]
      rfl
  | whitespace => exact (not_isWordChar_of_isBlank h).symm

end Rule

/-! ## Candidates -/

/-- The rules of a table that can recognize something at a place where this character stands. -/
def candidates (rules : List Rule) (afterWord : Bool) (c : Char) : List Rule :=
  rules.filter fun rule => rule.opens c && !(rule.wordAnchored && afterWord)

theorem firstMatch?_cons (rules : List Rule) (afterWord : Bool) (c : Char) (rest : Text) :
    firstMatch? rules afterWord (c :: rest)
      = (candidates rules afterWord c).findSome? (·.recognize? (c :: rest)) := by
  unfold firstMatch? candidates
  induction rules with
  | nil => rfl
  | cons rule rules ih =>
      rw [List.findSome?_cons, List.filter_cons, ih]
      unfold Rule.attempt?
      -- A rule drops out because it waits for the word to end or because nothing opens it.
      cases hanchored : rule.wordAnchored && afterWord with
      | true => simp
      | false =>
          cases hopens : rule.opens c with
          | true => simp [List.findSome?_cons]
          | false => simp [Rule.recognize?_of_not_opens hopens]

/-- Inside a word no rule can begin, whatever the table. -/
theorem candidates_afterWord {c : Char} (rules : List Rule) (h : isWordChar c = true) :
    candidates rules true c = [] := by
  rw [candidates, List.filter_eq_nil_iff]
  intro rule _
  cases hopens : rule.opens c with
  | false => simp
  | true => simp [Rule.wordAnchored_of_opens hopens, h]

/-- What comes before matters to word characters only. -/
theorem candidates_of_not_isWordChar {c : Char} (rules : List Rule) (h : isWordChar c = false)
    (afterWord afterWord' : Bool) :
    candidates rules afterWord c = candidates rules afterWord' c := by
  unfold candidates
  apply List.filter_congr
  intro rule _
  cases hopens : rule.opens c with
  | false => rfl
  | true => rw [Rule.wordAnchored_of_opens hopens, h, Bool.false_and, Bool.false_and]

/-- At a word boundary the candidates are the opened rules, anchored where a word character
stands. -/
private theorem candidates_eq_filter {rules : List Rule} {afterWord : Bool} {c : Char}
    (h : isWordChar c = true → afterWord = false) :
    candidates rules afterWord c
      = (rules.filter (·.wordAnchored == isWordChar c)).filter (·.opens c) := by
  rw [candidates, List.filter_filter]
  apply List.filter_congr
  intro rule _
  cases hopens : rule.opens c with
  | false => simp
  | true =>
      rw [Rule.wordAnchored_of_opens hopens]
      cases hword : isWordChar c with
      | false => simp
      | true => simp [h hword]

section Table

variable {comments afterWord : Bool} {c : Char}

private theorem candidates_of_isWordChar (h : isWordChar c = true) :
    candidates (Rule.table comments) false c
      = [.controlKeyword, .ioKeyword, .typeKeyword, .number, .identifier].filter (·.opens c) := by
  rw [candidates_eq_filter (fun _ => rfl), h]
  cases comments <;> rfl

/-- Where a word begins, a keyword or an identifier can stand. -/
theorem candidates_of_isIdentifierStart (h : isIdentifierStart c = true) :
    candidates (Rule.table comments) false c
      = [.controlKeyword, .ioKeyword, .typeKeyword, .identifier] := by
  rw [candidates_of_isWordChar (isWordChar_of_isIdentifierStart h)]
  simp [Rule.opens, h, not_isDigit_of_isIdentifierStart h]

/-- Where a run of word characters begins with an ASCII digit, only a number can stand. -/
theorem candidates_of_isDigit (h : c.isDigit = true) :
    candidates (Rule.table comments) false c = [.number] := by
  rw [candidates_of_isWordChar (isWordChar_of_isDigit h)]
  simp [Rule.opens, h, not_isIdentifierStart_of_isDigit h]

/-- Other numerals begin nothing. -/
theorem candidates_of_numeral (hword : isWordChar c = true) (hstart : isIdentifierStart c = false)
    (hdigit : c.isDigit = false) : candidates (Rule.table comments) false c = [] := by
  rw [candidates_of_isWordChar hword]
  simp [Rule.opens, hstart, hdigit]

/-- What is neither a word character nor a quote, a sign or a mark is a blank or begins nothing. -/
theorem candidates_of_no_symbol (hword : isWordChar c = false) (hquote : c ≠ '"')
    (hsign : Operator.ofChar? c = none) (hmark : Punctuation.ofChar? c = none) :
    candidates (Rule.table comments) afterWord c = if isBlank c then [.whitespace] else [] := by
  have hfirst : Comparison.ofFirst? c = none := by
    cases hc : Comparison.ofFirst? c with
    | none => rfl
    | some comparison =>
        obtain ⟨operator, hoperator⟩ := Comparison.exists_operator_of_ofFirst? hc
        rw [hsign] at hoperator
        exact absurd hoperator (by simp)
  have hslash : c ≠ '/' := by
    rintro rfl
    exact absurd hsign (by decide)
  have hless : c ≠ '<' := by
    rintro rfl
    exact absurd hsign (by decide)
  rw [candidates_eq_filter (by simp [hword]), hword]
  cases comments
  · show [Rule.string, .assignment, .comparison, .operator, .punctuation, .whitespace].filter _ = _
    simp [List.filter_cons, Rule.opens, hquote, hsign, hmark, hfirst, hless]
  · show [Rule.string, .comment, .assignment, .comparison, .operator, .punctuation,
      .whitespace].filter _ = _
    simp [List.filter_cons, Rule.opens, hquote, hsign, hmark, hfirst, hslash, hless]

/-- A blank is no quote, no sign and no mark. -/
theorem candidates_of_isBlank (h : isBlank c = true) :
    candidates (Rule.table comments) afterWord c = [.whitespace] := by
  have hquote : c ≠ '"' := by
    rintro rfl
    exact absurd h (by decide)
  have hsign : Operator.ofChar? c = none := by
    cases hc : Operator.ofChar? c with
    | none => rfl
    | some operator =>
        rw [Operator.ofChar?_eq_some hc] at h
        exact absurd h (by cases operator <;> decide)
  have hmark : Punctuation.ofChar? c = none := by
    cases hc : Punctuation.ofChar? c with
    | none => rfl
    | some mark =>
        rw [Punctuation.ofChar?_eq_some hc] at h
        exact absurd h (by cases mark <;> decide)
  rw [candidates_of_no_symbol (not_isWordChar_of_isBlank h) hquote hsign hmark, if_pos h]

theorem candidates_quote : candidates (Rule.table comments) afterWord '"' = [.string] := by
  cases comments <;> cases afterWord <;> decide

theorem candidates_mark (mark : Punctuation) :
    candidates (Rule.table comments) afterWord mark.char = [.punctuation] := by
  cases mark <;> cases comments <;> cases afterWord <;> decide

/-- The rules for what is longer than the sign that it begins with. -/
def longerRules (comments : Bool) : Operator → List Rule
  | .less => [.assignment, .comparison]
  | .greater | .equal | .not => [.comparison]
  | .divide => if comments then [.comment] else []
  | .plus | .minus | .multiply | .modulo => []

theorem candidates_sign (operator : Operator) :
    candidates (Rule.table comments) afterWord operator.char
      = longerRules comments operator ++ [.operator] := by
  cases operator <;> cases comments <;> cases afterWord <;> decide

end Table

end PseudocodeLexer
