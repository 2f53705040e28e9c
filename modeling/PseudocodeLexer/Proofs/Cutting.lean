import PseudocodeLexer.Proofs.Stops

/-!
# Cutting a line between two tokens

A line can be cut between two tokens, and each part scans to its own tokens, unless the cut goes
through a run of word characters (`scan_cut`). Of what a token in front of the cut may ask of the
text behind it, nothing is lost when that text ends at the cut (`Stops.of_append`): a quote, a
comment or a phrase that the shorter text completes, the longer one completes as well. The first
token behind the cut no longer knows what came before it, which matters inside a word only.
-/

namespace PseudocodeLexer

open Text

/-- The place between the texts does not lie inside a run of word characters. -/
def Boundary (before behind : Text) : Prop :=
  endsWithWordChar before = true → startsWithWordChar behind = false

theorem startsWithWordChar_of_append {s t : Text} (h : startsWithWordChar (s ++ t) = false) :
    startsWithWordChar s = false := by
  cases s with
  | nil => rfl
  | cons c s => exact h

/-! ## Text taken away behind the cut -/

section

variable {lexeme rest behind : Text}

theorem EndsIdentifier.of_append (h : EndsIdentifier (rest ++ behind)) : EndsIdentifier rest := by
  unfold EndsIdentifier at h ⊢
  rw [List.dropWhile_append] at h
  split at h
  · rename_i hempty
    rw [List.isEmpty_iff.mp hempty]
    rfl
  · exact startsWithWordChar_of_append h

/-- A phrase that goes on in front of the cut goes on in the whole text. -/
theorem PhraseGoesOn.append (hboundary : Boundary (lexeme ++ rest) behind)
    (h : PhraseGoesOn lexeme rest) : PhraseGoesOn lexeme (rest ++ behind) := by
  obtain ⟨tail, htail, hmem, hstands⟩ := h
  obtain ⟨after, rfl, hafter⟩ := standsAt_iff.mp hstands
  refine ⟨tail, htail, hmem, standsAt_iff.mpr ⟨after ++ behind, by simp, ?_⟩⟩
  by_cases hempty : after = []
  · -- A phrase that reaches the cut ends in a word character, so no other one follows.
    subst after
    apply hboundary
    rw [List.append_nil]
    exact endsWithWordChar_of_mem_keywordWords _ hmem
  · rwa [startsWithWordChar_append hempty]

theorem WordStops.of_append (hboundary : Boundary (lexeme ++ rest) behind)
    (h : WordStops lexeme (rest ++ behind)) : WordStops lexeme rest where
  wordEnd := startsWithWordChar_of_append h.wordEnd
  phraseEnd := fun hphrase => h.phraseEnd (hphrase.append hboundary)
  identifierEnd := fun hmem => (h.identifierEnd hmem).of_append

/-- A fraction that fits in front of the cut fits in the whole text. -/
theorem NumericLiteral.FractionFits.append (hboundary : Boundary (lexeme ++ rest) behind)
    (h : FractionFits rest) : FractionFits (rest ++ behind) := by
  obtain ⟨fraction, after, hfraction, hafter⟩ := h
  obtain ⟨digits, hdigits, rfl, rfl, -⟩ := fraction?_eq_some_iff.mp hfraction
  have hend : startsWithWordChar (after ++ behind) = false := by
    by_cases hempty : after = []
    · -- The fraction reaches the cut with a digit.
      subst after
      apply hboundary
      rw [List.append_nil, ← List.singleton_append, ← List.append_assoc,
        endsWithWordChar_append hdigits.ne_nil]
      exact endsWithWordChar_of_forall hdigits.ne_nil
        fun c hc => isWordChar_of_isDigit (hdigits.isDigit c hc)
    · rwa [startsWithWordChar_append hempty]
  exact ⟨_, after ++ behind, fraction?_eq_some_iff.mpr
    ⟨digits, hdigits, rfl, by simp, takeWhile_isDigit_of_wordEnd hend⟩, hend⟩

theorem NumberStops.of_append (hboundary : Boundary (lexeme ++ rest) behind)
    (h : NumberStops lexeme (rest ++ behind)) : NumberStops lexeme rest where
  wordEnd := startsWithWordChar_of_append h.wordEnd
  fractionEnd := fun hpoint hfits => h.fractionEnd hpoint (hfits.append hboundary)

/-- What is longer than a sign in front of the cut is so in the whole text. -/
theorem LongerStands.append {comments : Bool} {input : Text} (h : LongerStands comments input) :
    LongerStands comments (input ++ behind) := by
  obtain ⟨kind, symbol, after, hlonger, rfl⟩ := h
  cases hlonger with
  | assignment => exact ⟨_, _, _, .assignment comments (after ++ behind), by simp⟩
  | comparison _ comparison =>
      exact ⟨_, _, _, .comparison comments comparison (after ++ behind), by simp⟩
  | block body _ hclose =>
      have hclose' := throughBlockClose?_exchange (after ++ behind) hclose
      exact ⟨_, _, _, .block body (after ++ behind) hclose', by simp⟩
  | line body => exact ⟨_, _, _, .line (body ++ behind), by simp⟩

theorem TextStops.of_append {afterWord : Bool} (hboundary : Boundary (lexeme ++ rest) behind)
    (h : TextStops afterWord lexeme (rest ++ behind)) : TextStops afterWord lexeme rest where
  unclosed hquote := by
    have hopen := h.unclosed hquote
    cases hclose : StringLiteral.throughClosingQuote? rest with
    | none => rfl
    | some split =>
        rw [StringLiteral.throughClosingQuote?_append_right behind hclose] at hopen
        cases hopen
  intoWord hafter c hc hdigit := by
    have hword := h.intoWord hafter c hc hdigit
    rw [List.dropWhile_append] at hword
    split at hword
    · rename_i hempty
      -- Digits up to the cut: a word character behind them would lie in their run.
      have hrest := List.dropWhile_eq_nil_iff.mp (List.isEmpty_iff.mp hempty)
      have hend : startsWithWordChar behind = false := by
        apply hboundary
        subst hc
        apply endsWithWordChar_of_forall (by simp)
        intro d hd
        rcases List.mem_cons.mp hd with rfl | hd
        · exact isWordChar_of_isDigit hdigit
        · exact isWordChar_of_isDigit (hrest d hd)
      rw [NumericLiteral.dropWhile_isDigit_of_wordEnd hend, hend] at hword
      exact Bool.noConfusion hword
    · rename_i hempty
      rwa [startsWithWordChar_append (by simpa using hempty)] at hword

end

/-- A token stops in front of the cut if it stops in front of the whole text. -/
theorem Stops.of_append {comments afterWord : Bool} {token : Token} {rest behind : Text}
    (hboundary : Boundary (token.lexeme ++ rest) behind)
    (h : Stops comments afterWord token (rest ++ behind)) :
    Stops comments afterWord token rest := by
  refine h.imp ?_ ?_ ?_ ?_ ?_ ?_
  · intro _ hword
    exact hword.of_append hboundary
  · intro hnumber
    exact hnumber.of_append hboundary
  · intro hblank
    cases rest with
    | nil => rfl
    | cons c rest => exact hblank
  · intro sign hlonger
    exact hlonger.append
  · intro hline
    exact (List.append_eq_nil_iff.mp hline).1
  · intro htext
    exact htext.of_append hboundary

/-! ## The two parts of a line -/

theorem Readable.of_append {comments afterWord : Bool} {tokens₁ tokens₂ : List Token}
    (hboundary : Boundary (covered tokens₁) (covered tokens₂))
    (h : Readable (Rule.table comments) afterWord (tokens₁ ++ tokens₂)) :
    Readable (Rule.table comments) afterWord tokens₁ := by
  induction tokens₁ generalizing afterWord with
  | nil => trivial
  | cons token tokens₁ ih =>
      rw [List.cons_append] at h
      obtain ⟨hreads, hreadable⟩ := h
      refine ⟨(reads_iff_stops hreads).mpr ?_, ih ?_ hreadable⟩
      · have hstops := hreads.stops
        rw [covered_append] at hstops
        exact hstops.of_append hboundary
      · intro hend
        apply hboundary
        rwa [covered_cons, endsWithWordChar_append (by rintro heq; simp [heq] at hend)]

/-- What comes before the first token matters only if that begins with a word character. -/
theorem Readable.of_not_startsWithWordChar {rules : List Rule} {afterWord : Bool}
    {tokens : List Token} (hstart : startsWithWordChar (covered tokens) = false)
    (h : Readable rules afterWord tokens) (afterWord' : Bool) :
    Readable rules afterWord' tokens := by
  cases tokens with
  | nil => trivial
  | cons token tokens =>
      obtain ⟨hreads, hreadable⟩ := h
      refine ⟨?_, hreadable⟩
      have hfilled := hreads.lexeme_ne_nil
      unfold Reads at hreads ⊢
      rw [covered_cons] at hstart
      cases hinput : token.lexeme ++ covered tokens with
      | nil => exact absurd (List.append_eq_nil_iff.mp hinput).1 hfilled
      | cons c input =>
          rw [hinput] at hreads hstart
          have hsame := candidates_of_not_isWordChar rules hstart afterWord' afterWord
          rw [nextToken?, firstMatch?_cons, hsame, ← firstMatch?_cons]
          exact hreads

/-- **Cutting and scanning commute.** Where a line is cut between two tokens and not inside a run of
word characters, each part scans to exactly its own tokens. -/
theorem scan_cut (comments : Bool) (line : Text) (tokens₁ tokens₂ : List Token)
    (hscan : scan (Rule.table comments) line = tokens₁ ++ tokens₂)
    (hboundary : ¬ (endsWithWordChar (covered tokens₁) = true ∧
      startsWithWordChar (covered tokens₂) = true)) :
    scan (Rule.table comments) (covered tokens₁) = tokens₁ ∧
      scan (Rule.table comments) (covered tokens₂) = tokens₂ := by
  have hplace : Boundary (covered tokens₁) (covered tokens₂) := by
    intro hend
    simpa [hend] using hboundary
  have hreadable := (scan_eq_iff.mp hscan).2
  refine ⟨scanFrom_covered (hreadable.of_append hplace), scanFrom_covered ?_⟩
  have hsuffix := hreadable.suffix
  rw [wordBehind_false] at hsuffix
  -- The second part begins with nothing before it, which is news only behind a word character.
  cases hend : endsWithWordChar (covered tokens₁) with
  | false => rwa [hend] at hsuffix
  | true => exact hsuffix.of_not_startsWithWordChar (hplace hend) false

/-- The cut may take away a fraction that was none: `1.5x` is a number in front of its point. -/
theorem scan_cut_in_front_of_point :
    scan (Rule.table true) ['1'] = [⟨.number, ['1']⟩] ∧
      scan (Rule.table true) ['.', '5', 'x']
        = [⟨.text, ['.']⟩, ⟨.text, ['5']⟩, ⟨.text, ['x']⟩] :=
  scan_cut true ['1', '.', '5', 'x'] [⟨.number, ['1']⟩]
    [⟨.text, ['.']⟩, ⟨.text, ['5']⟩, ⟨.text, ['x']⟩] (by decide +kernel)
    (by decide +kernel)

end PseudocodeLexer
