import PseudocodeLexer.Proofs.Number
import PseudocodeLexer.Proofs.WholeWord

/-!
# The next token by its first character

Every character belongs to one of six classes (`charClass`), and the class of the character at a
place tells what token comes next there: one equation for each class, and for word characters one
for each way in which a run of them can go on.
-/

namespace PseudocodeLexer

open Text

/-- The class of a character, which decides what rules can begin with it. -/
inductive CharClass (c : Char) : Prop where
  | word : isWordChar c = true → CharClass c
  | blank : isBlank c = true → CharClass c
  | quote : c = '"' → CharClass c
  | sign (operator : Operator) : c = operator.char → CharClass c
  | mark (mark : Punctuation) : c = mark.char → CharClass c
  | stray : isWordChar c = false → isBlank c = false → c ≠ '"' → Operator.ofChar? c = none →
      Punctuation.ofChar? c = none → CharClass c

theorem charClass (c : Char) : CharClass c := by
  cases hword : isWordChar c with
  | true => exact .word hword
  | false =>
      cases hblank : isBlank c with
      | true => exact .blank hblank
      | false =>
          by_cases hquote : c = '"'
          · exact .quote hquote
          · cases hsign : Operator.ofChar? c with
            | some operator => exact .sign operator (Operator.ofChar?_eq_some hsign)
            | none =>
                cases hmark : Punctuation.ofChar? c with
                | some mark => exact .mark mark (Punctuation.ofChar?_eq_some hmark)
                | none => exact .stray hword hblank hquote hsign hmark

section

variable {comments afterWord : Bool} {c : Char} {input : Text}

theorem nextToken?_of_candidates {rules : List Rule} (h : candidates rules afterWord c = []) :
    nextToken? rules afterWord (c :: input) = some (⟨.text, [c]⟩, input) := by
  simp [nextToken?, firstMatch?_cons, h]

/-- Inside a run of word characters every character is a token of its own. -/
theorem nextToken?_inside (rules : List Rule) (h : isWordChar c = true) :
    nextToken? rules true (c :: input) = some (⟨.text, [c]⟩, input) :=
  nextToken?_of_candidates (candidates_afterWord rules h)

/-- A digit begins a number where one can end. -/
theorem nextToken?_digit (h : c.isDigit = true) :
    nextToken? (Rule.table comments) false (c :: input)
      = match NumericLiteral.recognize? (c :: input) with
        | some (lexeme, rest) => some (⟨.number, lexeme⟩, rest)
        | none => some (⟨.text, [c]⟩, input) := by
  simp only [nextToken?, firstMatch?_cons, candidates_of_isDigit h, List.findSome?_cons,
    Rule.recognize?]
  cases NumericLiteral.recognize? (c :: input) <;> rfl

theorem nextToken?_numeral (hword : isWordChar c = true) (hstart : isIdentifierStart c = false)
    (hdigit : c.isDigit = false) :
    nextToken? (Rule.table comments) false (c :: input) = some (⟨.text, [c]⟩, input) :=
  nextToken?_of_candidates (candidates_of_numeral hword hstart hdigit)

/-- Blanks are taken together. -/
theorem nextToken?_blank (h : isBlank c = true) :
    nextToken? (Rule.table comments) afterWord (c :: input)
      = some (⟨.whitespace, c :: input.takeWhile isBlank⟩, input.dropWhile isBlank) := by
  simp [nextToken?, firstMatch?_cons, candidates_of_isBlank h, Rule.recognize?, blanks?, h,
    Rule.ofKind]

/-- A quote begins a string where one is closed. -/
theorem nextToken?_quote :
    nextToken? (Rule.table comments) afterWord ('"' :: input)
      = match StringLiteral.throughClosingQuote? input with
        | some (body, rest) => some (⟨.string, '"' :: body⟩, rest)
        | none => some (⟨.text, ['"']⟩, input) := by
  simp only [nextToken?, firstMatch?_cons, candidates_quote, List.findSome?_cons,
    Rule.recognize?, StringLiteral.recognize?]
  cases StringLiteral.throughClosingQuote? input <;> rfl

theorem Operator.ofChar?_char (operator : Operator) :
    Operator.ofChar? operator.char = some operator := by
  cases operator <;> rfl

theorem Punctuation.ofChar?_char (mark : Punctuation) :
    Punctuation.ofChar? mark.char = some mark := by
  cases mark <;> rfl

/-- A sign is an operator unless it begins something longer. -/
theorem nextToken?_sign (operator : Operator) :
    nextToken? (Rule.table comments) afterWord (operator.char :: input)
      = match (longerRules comments operator).findSome?
            (·.recognize? (operator.char :: input)) with
        | some (kind, lexeme, rest) => some (⟨kind, lexeme⟩, rest)
        | none => some (⟨.operator operator, operator.symbol⟩, input) := by
  simp only [nextToken?, firstMatch?_cons, candidates_sign, List.findSome?_append]
  cases (longerRules comments operator).findSome? (·.recognize? (operator.char :: input)) with
  | some found => rfl
  | none =>
      simp [Rule.recognize?, Operator.recognize?, Operator.ofChar?_char, Rule.ofKind,
        Operator.symbol]

/-- The symbols and comments that are longer than the sign that they begin with, each with what it
asks of the text behind it. -/
inductive LongerSymbol : Bool → Kind → Text → Text → Prop where
  | assignment (comments : Bool) (rest : Text) :
      LongerSymbol comments .assignment ['<', '-'] rest
  | comparison (comments : Bool) (comparison : Comparison) (rest : Text) :
      LongerSymbol comments (.comparison comparison) comparison.symbol rest
  | block (body rest : Text) : throughBlockClose? (body ++ rest) = some (body, rest) →
      LongerSymbol true (.comment .block) ('/' :: '*' :: body) rest
  | line (body : Text) : LongerSymbol true (.comment .line) ('/' :: '/' :: body) []

private theorem longerSymbol_of_assignment? {lexeme rest : Text}
    (h : assignment? input = some (lexeme, rest)) :
    LongerSymbol comments .assignment lexeme rest := by
  unfold assignment? at h
  split at h
  · cases h
    exact .assignment comments rest
  · cases h

private theorem longerSymbol_of_comparison? {comparison : Comparison} {lexeme rest : Text}
    (h : Comparison.recognize? input = some (comparison, lexeme, rest)) :
    LongerSymbol comments (.comparison comparison) lexeme rest := by
  unfold Comparison.recognize? at h
  split at h
  · obtain ⟨_, hfirst, heq⟩ := Option.map_eq_some_iff.mp h
    cases heq
    rw [← Comparison.ofFirst?_eq_some hfirst]
    exact .comparison comments comparison rest
  · cases h

private theorem longerSymbol_of_comment? {style : CommentStyle} {lexeme rest : Text}
    (h : CommentStyle.recognize? input = some (style, lexeme, rest)) :
    LongerSymbol true (.comment style) lexeme rest := by
  unfold CommentStyle.recognize? at h
  split at h
  · rename_i hblock
    cases h
    unfold blockComment? at hblock
    split at hblock
    · split at hblock
      · cases hblock
      · rename_i hclose
        cases hblock
        rw [← throughBlockClose?_append hclose] at hclose
        exact .block _ _ hclose
    · cases hblock
  · split at h
    · rename_i hline
      cases h
      unfold lineComment? at hline
      split at hline
      · cases hline
        exact .line _
      · cases hline
    · cases h

/-- What is found before the operator rule is one of the longer symbols. -/
theorem longerSymbol_of_findSome? {operator : Operator} {kind : Kind} {lexeme rest : Text}
    (h : (longerRules comments operator).findSome? (·.recognize? input)
      = some (kind, lexeme, rest)) : LongerSymbol comments kind lexeme rest := by
  obtain ⟨rule, hmem, hrule⟩ := List.exists_of_findSome?_eq_some h
  have hrules : ∀ rule ∈ longerRules comments operator,
      rule = .assignment ∨ rule = .comparison ∨ (rule = .comment ∧ comments = true) := by
    cases operator <;> cases comments <;> decide
  rcases hrules rule hmem with rfl | rfl | ⟨rfl, rfl⟩
  · obtain ⟨⟨l, r⟩, hfound, heq⟩ := Option.map_eq_some_iff.mp hrule
    cases heq
    exact longerSymbol_of_assignment? hfound
  · obtain ⟨⟨k, l, r⟩, hfound, heq⟩ := Option.map_eq_some_iff.mp hrule
    cases heq
    exact longerSymbol_of_comparison? hfound
  · obtain ⟨⟨k, l, r⟩, hfound, heq⟩ := Option.map_eq_some_iff.mp hrule
    cases heq
    exact longerSymbol_of_comment? hfound

/-- The longer symbols are read wherever they stand. -/
theorem reads_of_longerSymbol {kind : Kind} {lexeme rest : Text}
    (h : LongerSymbol comments kind lexeme rest) :
    Reads (Rule.table comments) afterWord ⟨kind, lexeme⟩ rest := by
  cases h with
  | assignment =>
      show nextToken? _ _ (Operator.less.char :: '-' :: rest) = _
      rw [nextToken?_sign]
      rfl
  | comparison _ comparison =>
      cases comparison with
      | lessEqual =>
          show nextToken? _ _ (Operator.less.char :: '=' :: rest) = _
          rw [nextToken?_sign]
          rfl
      | greaterEqual =>
          show nextToken? _ _ (Operator.greater.char :: '=' :: rest) = _
          rw [nextToken?_sign]
          rfl
      | equalEqual =>
          show nextToken? _ _ (Operator.equal.char :: '=' :: rest) = _
          rw [nextToken?_sign]
          rfl
      | notEqual =>
          show nextToken? _ _ (Operator.not.char :: '=' :: rest) = _
          rw [nextToken?_sign]
          rfl
  | block body _ hclose =>
      show nextToken? _ _ (Operator.divide.char :: '*' :: (body ++ rest)) = _
      rw [nextToken?_sign]
      simp [longerRules, Rule.recognize?, Operator.char, CommentStyle.recognize?, blockComment?,
        hclose, Rule.ofKind]
  | line body =>
      show nextToken? _ _ (Operator.divide.char :: '/' :: (body ++ [])) = _
      rw [nextToken?_sign]
      simp [longerRules, Rule.recognize?, Operator.char, CommentStyle.recognize?, blockComment?,
        lineComment?, Rule.ofKind]

/-- Something longer than its first sign stands at the start of the input. -/
def LongerStands (comments : Bool) (input : Text) : Prop :=
  ∃ kind lexeme rest, LongerSymbol comments kind lexeme rest ∧ lexeme ++ rest = input

theorem findSome?_longerRules_eq_none_iff (operator : Operator) :
    (longerRules comments operator).findSome? (·.recognize? (operator.char :: input)) = none ↔
      ¬ LongerStands comments (operator.char :: input) := by
  constructor
  · rintro hnone ⟨kind, lexeme, rest, hlonger, happend⟩
    have hreads : Reads (Rule.table comments) false ⟨kind, lexeme⟩ rest :=
      reads_of_longerSymbol hlonger
    unfold Reads at hreads
    rw [happend, nextToken?_sign, hnone] at hreads
    cases hreads
    cases hlonger
  · intro hstands
    cases hfound : (longerRules comments operator).findSome?
        (·.recognize? (operator.char :: input)) with
    | none => rfl
    | some found =>
        obtain ⟨kind, lexeme, rest⟩ := found
        obtain ⟨rule, -, hrule⟩ := List.exists_of_findSome?_eq_some hfound
        exact absurd ⟨kind, lexeme, rest, longerSymbol_of_findSome? hfound,
          (Rule.recognize?_cut hrule).append⟩ hstands

/-- A mark is always taken. -/
theorem nextToken?_mark (mark : Punctuation) :
    nextToken? (Rule.table comments) afterWord (mark.char :: input)
      = some (⟨.punctuation mark, [mark.char]⟩, input) := by
  simp [nextToken?, firstMatch?_cons, candidates_mark, Rule.recognize?, Punctuation.recognize?,
    Punctuation.ofChar?_char, Rule.ofKind]

theorem nextToken?_stray (hword : isWordChar c = false) (hblank : isBlank c = false)
    (hquote : c ≠ '"') (hsign : Operator.ofChar? c = none) (hmark : Punctuation.ofChar? c = none) :
    nextToken? (Rule.table comments) afterWord (c :: input) = some (⟨.text, [c]⟩, input) := by
  apply nextToken?_of_candidates
  rw [candidates_of_no_symbol hword hquote hsign hmark, if_neg (by simp [hblank])]

/-! ## The ways to be read -/

/-- The ways in which the scanner comes by a token, each with what it says of the lexeme and of the
text behind it. -/
inductive Reading (comments : Bool) : Bool → Token → Text → Prop where
  | word {lexeme rest : Text} : wordLexeme? (lexeme ++ rest) = some (lexeme, rest) →
      Reading comments false (wordToken lexeme) rest
  | number {lexeme rest : Text} :
      NumericLiteral.recognize? (lexeme ++ rest) = some (lexeme, rest) →
      Reading comments false ⟨.number, lexeme⟩ rest
  | stray {afterWord : Bool} {rest : Text} (c : Char) :
      (afterWord = false → isIdentifierStart c = false) →
      Reading comments afterWord ⟨.text, [c]⟩ rest
  | blanks {afterWord : Bool} {lexeme rest : Text} : lexeme ≠ [] →
      (∀ c ∈ lexeme, isBlank c = true) → Reading comments afterWord ⟨.whitespace, lexeme⟩ rest
  | string {afterWord : Bool} {body rest : Text} :
      StringLiteral.throughClosingQuote? (body ++ rest) = some (body, rest) →
      Reading comments afterWord ⟨.string, '"' :: body⟩ rest
  | longer {afterWord : Bool} {kind : Kind} {lexeme rest : Text} :
      LongerSymbol comments kind lexeme rest → Reading comments afterWord ⟨kind, lexeme⟩ rest
  | sign {afterWord : Bool} {rest : Text} (operator : Operator) :
      Reading comments afterWord ⟨.operator operator, operator.symbol⟩ rest
  | mark {afterWord : Bool} {rest : Text} (mark : Punctuation) :
      Reading comments afterWord ⟨.punctuation mark, [mark.char]⟩ rest

private theorem reading_of_word {token : Token} {rest : Text} (hword : isWordChar c = true)
    (h : nextToken? (Rule.table comments) afterWord (c :: input) = some (token, rest)) :
    Reading comments afterWord token rest := by
  cases afterWord with
  | true =>
      rw [nextToken?_inside _ hword] at h
      cases h
      exact .stray c (by simp)
  | false =>
      cases hstart : isIdentifierStart c with
      | true =>
          have happend := (nextToken?_cut h).append
          rw [nextToken?_word hstart] at h
          obtain ⟨⟨lexeme, after⟩, htaken, heq⟩ := Option.map_eq_some_iff.mp h
          cases heq
          rw [← happend] at htaken
          exact .word htaken
      | false =>
          cases hdigit : c.isDigit with
          | true =>
              rw [nextToken?_digit hdigit] at h
              split at h
              · rename_i lexeme after hnumber
                cases h
                rw [← (NumericLiteral.recognize?_cut hnumber).append] at hnumber
                exact .number hnumber
              · cases h
                exact .stray c fun _ => hstart
          | false =>
              rw [nextToken?_numeral hword hstart hdigit] at h
              cases h
              exact .stray c fun _ => hstart

/-- Every token is read in one of these ways. -/
theorem reading_of_nextToken? {token : Token} {rest : Text}
    (h : nextToken? (Rule.table comments) afterWord (c :: input) = some (token, rest)) :
    Reading comments afterWord token rest := by
  cases charClass c with
  | word hword => exact reading_of_word hword h
  | blank hblank =>
      rw [nextToken?_blank hblank] at h
      cases h
      refine .blanks (by simp) ?_
      intro d hd
      rcases List.mem_cons.mp hd with rfl | hd
      · exact hblank
      · exact List.mem_takeWhile_imp hd
  | quote hquote =>
      subst hquote
      rw [nextToken?_quote] at h
      split at h
      · rename_i body after hclose
        cases h
        rw [← StringLiteral.throughClosingQuote?_append hclose] at hclose
        exact .string hclose
      · cases h
        exact .stray '"' fun _ => by decide
  | sign operator hsign =>
      subst hsign
      rw [nextToken?_sign] at h
      split at h
      · rename_i hfound
        cases h
        exact .longer (longerSymbol_of_findSome? hfound)
      · cases h
        exact .sign operator
  | mark mark hmark =>
      subst hmark
      rw [nextToken?_mark] at h
      cases h
      exact .mark mark
  | stray hword hblank hquote hsign hmark =>
      rw [nextToken?_stray hword hblank hquote hsign hmark] at h
      cases h
      refine .stray c fun _ => ?_
      cases hstart : isIdentifierStart c with
      | false => rfl
      | true =>
          rw [isWordChar_of_isIdentifierStart hstart] at hword
          exact Bool.noConfusion hword

theorem Reads.reading {token : Token} {rest : Text}
    (h : Reads (Rule.table comments) afterWord token rest) :
    Reading comments afterWord token rest := by
  have hne := h.lexeme_ne_nil
  unfold Reads at h
  cases hinput : token.lexeme ++ rest with
  | nil => exact absurd (List.append_eq_nil_iff.mp hinput).1 hne
  | cons c input =>
      rw [hinput] at h
      exact reading_of_nextToken? h

/-- An unclassified token is a single character. -/
theorem Reading.exists_lexeme_eq {token : Token} {rest : Text}
    (h : Reading comments afterWord token rest) (htext : token.kind = .text) :
    ∃ c, token.lexeme = [c] := by
  cases h with
  | stray c => exact ⟨c, rfl⟩
  | @word lexeme =>
      have hword := tokenClass_wordToken lexeme
      unfold Token.tokenClass at hword
      rw [htext] at hword
      exact absurd hword (by decide)
  | longer hlonger => cases hlonger <;> cases htext
  | number | blanks | string | sign | mark => cases htext

/-- Words are read only where one can begin. -/
theorem Reading.wordLexeme? {token : Token} {rest : Text}
    (h : Reading comments afterWord token rest) (hclass : token.tokenClass ∈ TokenClass.words) :
    afterWord = false ∧ wordLexeme? (token.lexeme ++ rest) = some (token.lexeme, rest) := by
  cases h with
  | word hword => exact ⟨rfl, hword⟩
  | longer hlonger =>
      cases hlonger <;> simp [Token.tokenClass, Kind.tokenClass, TokenClass.words] at hclass
  | number | stray | blanks | string | sign | mark =>
      simp [Token.tokenClass, Kind.tokenClass, TokenClass.words] at hclass

/-- Numbers are read only where one can begin. -/
theorem Reading.recognize?_number {token : Token} {rest : Text}
    (h : Reading comments afterWord token rest) (hclass : token.tokenClass = .numericLiteral) :
    afterWord = false ∧
      NumericLiteral.recognize? (token.lexeme ++ rest) = some (token.lexeme, rest) := by
  cases h with
  | number hnumber => exact ⟨rfl, hnumber⟩
  | @word lexeme =>
      have hword := tokenClass_wordToken lexeme
      rw [hclass] at hword
      exact absurd hword (by decide)
  | longer hlonger => cases hlonger <;> cases hclass
  | stray | blanks | string | sign | mark => cases hclass

end

end PseudocodeLexer
