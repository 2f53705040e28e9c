import PseudocodeLexer.Proofs.Delimited
import PseudocodeLexer.Proofs.NextToken

/-!
# Where tokens stop

Whether the scanner reads a token depends on the text behind it, by how far each rule looks ahead:
not at all for a string or a mark, one character for blanks and signs, a whole phrase for a keyword,
the rest of the line for a quote that is never closed. `Stops` states for each kind what the text
behind must be like, and `reads_iff_stops` that this is all there is to it: a token that is read
somewhere is read in front of exactly those texts at which it stops.
-/

namespace PseudocodeLexer

open Text

def startsWithBlank : Text → Bool
  | [] => false
  | c :: _ => isBlank c

/-- An unclassified character stays one: a quote is never closed, and digits that could be a number
run into a word. -/
structure TextStops (afterWord : Bool) (lexeme rest : Text) : Prop where
  unclosed : lexeme = ['"'] → StringLiteral.throughClosingQuote? rest = none
  intoWord : afterWord = false → ∀ c, lexeme = [c] → c.isDigit = true →
    startsWithWordChar (rest.dropWhile Char.isDigit) = true

/-- A number has no word character behind it, and no fraction that it could take. -/
structure NumberStops (lexeme rest : Text) : Prop where
  wordEnd : startsWithWordChar rest = false
  fractionEnd : '.' ∉ lexeme → ¬ NumericLiteral.FractionFits rest

/-- What follows lets the token stop where it stops. -/
def Stops (comments afterWord : Bool) (token : Token) (rest : Text) : Prop :=
  match token.kind with
  | .control _ | .io _ | .dataType _ | .identifier => WordStops token.lexeme rest
  | .number => NumberStops token.lexeme rest
  | .whitespace => startsWithBlank rest = false
  | .operator sign => ¬ LongerStands comments (sign.char :: rest)
  | .comment .line => rest = []
  | .text => TextStops afterWord token.lexeme rest
  | .string | .comment .block | .assignment | .comparison _ | .punctuation _ => True

theorem stops_wordToken {comments afterWord : Bool} {lexeme rest : Text} :
    Stops comments afterWord (wordToken lexeme) rest ↔ WordStops lexeme rest := by
  unfold Stops wordToken keywordKind?
  cases ControlKeyword.vocabulary.ofSpelling? lexeme with
  | some keyword => exact Iff.rfl
  | none =>
      cases IoKeyword.vocabulary.ofSpelling? lexeme with
      | some keyword => exact Iff.rfl
      | none => cases TypeKeyword.vocabulary.ofSpelling? lexeme <;> exact Iff.rfl

/-- What a token asks of the text behind it, kind by kind: a token that stops at one text stops at
another if that grants the same. -/
theorem Stops.imp {comments afterWord : Bool} {token : Token} {rest rest' : Text}
    (hword : token.tokenClass ∈ TokenClass.words → WordStops token.lexeme rest →
      WordStops token.lexeme rest')
    (hnumber : NumberStops token.lexeme rest → NumberStops token.lexeme rest')
    (hblank : startsWithBlank rest = false → startsWithBlank rest' = false)
    (hlonger : ∀ sign : Operator, LongerStands comments (sign.char :: rest') →
      LongerStands comments (sign.char :: rest))
    (hline : rest = [] → rest' = [])
    (htext : TextStops afterWord token.lexeme rest → TextStops afterWord token.lexeme rest')
    (h : Stops comments afterWord token rest) : Stops comments afterWord token rest' := by
  obtain ⟨kind, lexeme⟩ := token
  cases kind with
  | control | io | dataType | identifier =>
      exact hword (by simp [Token.tokenClass, Kind.tokenClass, TokenClass.words]) h
  | number => exact hnumber h
  | whitespace => exact hblank h
  | operator sign =>
      intro hstands
      exact h (hlonger sign hstands)
  | comment style =>
      cases style with
      | line => exact hline h
      | block => trivial
  | text => exact htext h
  | string | assignment | comparison | punctuation => trivial

/-! ## One class of characters after the other -/

section

variable {comments afterWord : Bool} {c : Char} {lexeme rest rest' : Text} {kind : Kind}

private theorem reads_iff_of_start (hstart : isIdentifierStart c = true)
    (h : Reads (Rule.table comments) false ⟨kind, c :: lexeme⟩ rest) :
    Reads (Rule.table comments) false ⟨kind, c :: lexeme⟩ rest' ↔
      Stops comments false ⟨kind, c :: lexeme⟩ rest' := by
  have hreads (r : Text) : Reads (Rule.table comments) false ⟨kind, c :: lexeme⟩ r ↔
      wordLexeme? ((c :: lexeme) ++ r) = some (c :: lexeme, r) ∧
        wordToken (c :: lexeme) = ⟨kind, c :: lexeme⟩ := by
    unfold Reads
    rw [List.cons_append, nextToken?_word hstart, Option.map_eq_some_iff]
    constructor
    · rintro ⟨⟨l, r'⟩, hword, heq⟩
      obtain ⟨htoken, rfl⟩ := Prod.mk.inj heq
      obtain rfl : l = c :: lexeme := congrArg Token.lexeme htoken
      exact ⟨hword, htoken⟩
    · rintro ⟨hword, htoken⟩
      exact ⟨_, hword, Prod.ext htoken rfl⟩
  obtain ⟨hword, htoken⟩ := (hreads rest).mp h
  rw [hreads, ← htoken, stops_wordToken, wordLexeme?_iff hword]
  simp

theorem reads_number_iff (hdigit : c.isDigit = true) :
    Reads (Rule.table comments) false ⟨.number, c :: lexeme⟩ rest ↔
      NumericLiteral.recognize? ((c :: lexeme) ++ rest) = some (c :: lexeme, rest) := by
  unfold Reads
  rw [List.cons_append, nextToken?_digit hdigit]
  cases NumericLiteral.recognize? (c :: (lexeme ++ rest)) <;> simp [Prod.ext_iff]

theorem reads_text_digit_iff (hdigit : c.isDigit = true) :
    Reads (Rule.table comments) false ⟨.text, [c]⟩ rest ↔
      startsWithWordChar (rest.dropWhile Char.isDigit) = true := by
  unfold Reads
  rw [List.singleton_append, nextToken?_digit hdigit, ← List.dropWhile_cons_of_pos hdigit,
    ← NumericLiteral.recognize?_eq_none_iff hdigit]
  cases NumericLiteral.recognize? (c :: rest) <;> simp

private theorem reads_iff_of_digit (hdigit : c.isDigit = true)
    (h : Reads (Rule.table comments) false ⟨kind, c :: lexeme⟩ rest) :
    Reads (Rule.table comments) false ⟨kind, c :: lexeme⟩ rest' ↔
      Stops comments false ⟨kind, c :: lexeme⟩ rest' := by
  have hnext := h
  unfold Reads at hnext
  rw [List.cons_append, nextToken?_digit hdigit] at hnext
  split at hnext
  · cases hnext
    obtain ⟨-, hlexeme, -, -⟩ :=
      NumericLiteral.recognize?_eq_some_iff.mp ((reads_number_iff hdigit).mp h)
    rw [reads_number_iff hdigit, NumericLiteral.recognize?_eq_some_iff]
    constructor
    · rintro ⟨-, -, hend, hfraction⟩
      exact ⟨hend, hfraction⟩
    · rintro ⟨hend, hfraction⟩
      exact ⟨rfl, hlexeme, hend, hfraction⟩
  · cases hnext
    rw [reads_text_digit_iff hdigit]
    constructor
    · intro hword
      refine ⟨?_, ?_⟩
      · rintro heq
        cases heq
        exact absurd hdigit (by decide)
      · rintro - d heq -
        cases heq
        exact hword
    · intro hstops
      exact hstops.intoWord rfl c rfl hdigit

/-- A character that is a token of its own whatever follows it. -/
private theorem reads_iff_of_text (hquote : c ≠ '"') (hdigit : c.isDigit = true → afterWord = true)
    (halone : ∀ input, nextToken? (Rule.table comments) afterWord (c :: input)
      = some (⟨.text, [c]⟩, input))
    (h : Reads (Rule.table comments) afterWord ⟨kind, c :: lexeme⟩ rest) :
    Reads (Rule.table comments) afterWord ⟨kind, c :: lexeme⟩ rest' ↔
      Stops comments afterWord ⟨kind, c :: lexeme⟩ rest' := by
  unfold Reads at h ⊢
  rw [List.cons_append, halone] at h ⊢
  cases h
  refine ⟨fun _ => ⟨?_, ?_⟩, fun _ => rfl⟩
  · rintro heq
    cases heq
    exact absurd rfl hquote
  · rintro hafter d heq hd
    cases heq
    rw [hdigit hd] at hafter
    exact Bool.noConfusion hafter

theorem takeWhile_isBlank_eq_nil_iff :
    rest.takeWhile isBlank = [] ↔ startsWithBlank rest = false := by
  cases rest with
  | nil => simp [startsWithBlank]
  | cons d rest => cases hd : isBlank d <;> simp [startsWithBlank, hd]

private theorem reads_iff_of_blank (hblank : isBlank c = true)
    (h : Reads (Rule.table comments) afterWord ⟨kind, c :: lexeme⟩ rest) :
    Reads (Rule.table comments) afterWord ⟨kind, c :: lexeme⟩ rest' ↔
      Stops comments afterWord ⟨kind, c :: lexeme⟩ rest' := by
  unfold Reads at h ⊢
  rw [List.cons_append, nextToken?_blank hblank] at h ⊢
  obtain ⟨htoken, -⟩ := Prod.mk.inj (Option.some.inj h)
  obtain ⟨rfl, hlexeme⟩ := Token.mk.inj htoken
  have htake := List.tail_eq_of_cons_eq hlexeme
  have hall : ∀ d ∈ lexeme, isBlank d = true := by
    intro d hd
    rw [← htake] at hd
    exact List.mem_takeWhile_imp hd
  show _ ↔ startsWithBlank rest' = false
  rw [List.takeWhile_append_of_pos hall, List.dropWhile_append_of_pos hall,
    ← takeWhile_isBlank_eq_nil_iff]
  constructor
  · intro hreads
    obtain ⟨htoken', -⟩ := Prod.mk.inj (Option.some.inj hreads)
    simpa using htoken'
  · intro hnone
    have hsplit : rest'.takeWhile isBlank ++ rest'.dropWhile isBlank = rest' :=
      List.takeWhile_append_dropWhile
    rw [hnone, List.nil_append] at hsplit
    rw [hnone, hsplit, List.append_nil]

private theorem reads_iff_of_quote
    (h : Reads (Rule.table comments) afterWord ⟨kind, '"' :: lexeme⟩ rest) :
    Reads (Rule.table comments) afterWord ⟨kind, '"' :: lexeme⟩ rest' ↔
      Stops comments afterWord ⟨kind, '"' :: lexeme⟩ rest' := by
  unfold Reads at h ⊢
  rw [List.cons_append, nextToken?_quote] at h ⊢
  split at h
  · rename_i body after hclose
    cases h
    rw [StringLiteral.throughClosingQuote?_exchange rest' hclose]
    exact ⟨fun _ => trivial, fun _ => rfl⟩
  · cases h
    constructor
    · intro hreads
      split at hreads
      · cases hreads
      · rename_i hopen
        refine ⟨fun _ => hopen, ?_⟩
        rintro - d heq hd
        cases heq
        exact absurd hd (by decide)
    · intro hstops
      have hopen := hstops.unclosed rfl
      rw [List.nil_append, hopen]

private theorem reads_iff_of_longerSymbol (h : LongerSymbol comments kind lexeme rest) :
    Reads (Rule.table comments) afterWord ⟨kind, lexeme⟩ rest' ↔
      Stops comments afterWord ⟨kind, lexeme⟩ rest' := by
  cases h with
  | assignment => exact iff_of_true (reads_of_longerSymbol (.assignment _ _)) trivial
  | comparison _ comparison =>
      exact iff_of_true (reads_of_longerSymbol (.comparison _ comparison _)) trivial
  | block body _ hclose =>
      have hclose' := throughBlockClose?_exchange rest' hclose
      exact iff_of_true (reads_of_longerSymbol (.block body _ hclose')) trivial
  | line body =>
      constructor
      · intro hreads
        -- The comment takes all that is there, so nothing is left behind it.
        have hwhole : Reads (Rule.table true) afterWord ⟨_, '/' :: '/' :: (body ++ rest')⟩ [] :=
          reads_of_longerSymbol (.line (body ++ rest'))
        unfold Reads at hreads hwhole
        rw [List.append_nil] at hwhole
        rw [List.cons_append, List.cons_append, hwhole] at hreads
        exact (Prod.mk.inj (Option.some.inj hreads)).2.symm
      · rintro rfl
        exact reads_of_longerSymbol (.line body)

private theorem reads_iff_of_sign (operator : Operator)
    (h : Reads (Rule.table comments) afterWord ⟨kind, operator.char :: lexeme⟩ rest) :
    Reads (Rule.table comments) afterWord ⟨kind, operator.char :: lexeme⟩ rest' ↔
      Stops comments afterWord ⟨kind, operator.char :: lexeme⟩ rest' := by
  have hnext := h
  unfold Reads at hnext
  rw [List.cons_append, nextToken?_sign] at hnext
  split at hnext
  · rename_i hfound
    cases hnext
    exact reads_iff_of_longerSymbol (longerSymbol_of_findSome? hfound)
  · cases hnext
    unfold Reads
    rw [List.singleton_append, nextToken?_sign]
    show _ ↔ ¬ LongerStands comments (operator.char :: rest')
    rw [← findSome?_longerRules_eq_none_iff]
    cases hfound : (longerRules comments operator).findSome?
        (·.recognize? (operator.char :: rest')) with
    | none => simp [Operator.symbol]
    | some found =>
        obtain ⟨kind', lexeme', rest''⟩ := found
        have hlonger := longerSymbol_of_findSome? hfound
        constructor
        · intro hreads
          cases hreads
          cases hlonger
        · intro hnone
          cases hnone

end

/-- **What comes behind a token.** A token that is read in front of one text is read in front of
another exactly if it stops at that text. -/
theorem reads_iff_stops {comments afterWord : Bool} {token : Token} {rest rest' : Text}
    (h : Reads (Rule.table comments) afterWord token rest) :
    Reads (Rule.table comments) afterWord token rest' ↔ Stops comments afterWord token rest' := by
  obtain ⟨kind, lexeme⟩ := token
  cases lexeme with
  | nil => exact absurd rfl h.lexeme_ne_nil
  | cons c lexeme =>
      cases charClass c with
      | word hword =>
          have hquote := ne_of_isWordChar hword (d := '"') (by decide)
          cases afterWord with
          | true =>
              -- Behind a word character nothing depends on what follows.
              exact reads_iff_of_text hquote (fun _ => rfl)
                (fun _ => nextToken?_inside _ hword) h
          | false =>
              cases hstart : isIdentifierStart c with
              | true => exact reads_iff_of_start hstart h
              | false =>
                  cases hdigit : c.isDigit with
                  | true => exact reads_iff_of_digit hdigit h
                  | false =>
                      exact reads_iff_of_text hquote (by simp [hdigit])
                        (fun _ => nextToken?_numeral hword hstart hdigit) h
      | blank hblank => exact reads_iff_of_blank hblank h
      | quote hquote =>
          subst hquote
          exact reads_iff_of_quote h
      | sign operator hsign =>
          subst hsign
          exact reads_iff_of_sign operator h
      | mark mark hmark =>
          subst hmark
          unfold Reads at h ⊢
          rw [List.cons_append, nextToken?_mark] at h ⊢
          cases h
          exact iff_of_true rfl trivial
      | stray hword hblank hquote hsign hmark =>
          have hdigit : c.isDigit = true → afterWord = true := by
            intro hdigit
            rw [isWordChar_of_isDigit hdigit] at hword
            exact Bool.noConfusion hword
          exact reads_iff_of_text hquote hdigit
            (fun _ => nextToken?_stray hword hblank hquote hsign hmark) h

/-- A token that is read stops where it is read. -/
theorem Reads.stops {comments afterWord : Bool} {token : Token} {rest : Text}
    (h : Reads (Rule.table comments) afterWord token rest) : Stops comments afterWord token rest :=
  (reads_iff_stops h).mp h

end PseudocodeLexer
