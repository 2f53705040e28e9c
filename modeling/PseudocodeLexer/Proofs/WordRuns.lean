import PseudocodeLexer.Proofs.Stops

/-!
# Runs of word characters

No run of word characters is classified in part. Where a token begins at the start of a run, the
first character decides: a letter or an underscore begins a keyword or an identifier that takes the
whole run (`Readable.name`), a run of digits is taken by a number (`Readable.digits`), and of any
other run every character is a token of its own (`Readable.stray`). A place between two word
characters is therefore reached only inside a run of the last sort (`inStrayRun_of_insideRun`).
-/

namespace PseudocodeLexer

open Text

/-- A run of word characters, as long as can be, between two texts. -/
structure IsWordRun (before run behind : Text) : Prop where
  ne_nil : run ≠ []
  isWordChar : ∀ c ∈ run, isWordChar c = true
  before : endsWithWordChar before = false
  behind : startsWithWordChar behind = false

def StartsName (run : Text) : Prop :=
  ∃ c rest, run = c :: rest ∧ isIdentifierStart c = true

/-- A character that no rule recognizes. -/
def strayToken (c : Char) : Token :=
  ⟨.text, [c]⟩

/-- The token is one of the characters of a run that is neither a word nor a number, each of which
is a token of its own. -/
def InStrayRun (tokens₁ : List Token) (token : Token) (tokens₂ : List Token) : Prop :=
  ∃ (before : List Token) (left : Text) (c : Char) (right : Text) (behind : List Token),
    tokens₁ = before ++ left.map strayToken ∧ token = strayToken c ∧
      tokens₂ = right.map strayToken ++ behind ∧
      IsWordRun (covered before) (left ++ c :: right) (covered behind) ∧
      ¬ StartsName (left ++ c :: right) ∧ ¬ NumericLiteral.IsDigits (left ++ c :: right)

@[simp]
theorem covered_map_strayToken (run : Text) : covered (run.map strayToken) = run := by
  induction run with
  | nil => rfl
  | cons c run ih => rw [List.map_cons, covered_cons, ih, strayToken, List.singleton_append]

/-! ## A run at the start -/

section

variable {comments afterWord : Bool} {tokens : List Token} {run behind : Text}

/-- A token that ends in front of no word character has no run end behind it. -/
theorem prefix_of_wordEnd {lexeme rest : Text} (hrun : ∀ c ∈ run, isWordChar c = true)
    (happend : lexeme ++ rest = run ++ behind) (hend : startsWithWordChar rest = false) :
    run <+: lexeme := by
  rcases List.append_eq_append_iff.mp happend with ⟨left, rfl, hrest⟩ | ⟨more, rfl, -⟩
  · cases left with
    | nil => exact ⟨[], by simp⟩
    | cons c left =>
        rw [hrest, List.cons_append, startsWithWordChar_cons, hrun c (by simp)] at hend
        exact Bool.noConfusion hend
  · exact ⟨more, rfl⟩

/-- A run that begins like a name is taken whole by a keyword or an identifier. -/
theorem Readable.name (h : Readable (Rule.table comments) false tokens)
    (hrun : ∀ c ∈ run, isWordChar c = true) (hcovered : covered tokens = run ++ behind)
    (hname : StartsName run) :
    ∃ token tokens', tokens = token :: tokens' ∧ token.tokenClass ∈ TokenClass.words ∧
      run <+: token.lexeme := by
  obtain ⟨c, run, rfl, hstart⟩ := hname
  rw [List.cons_append] at hcovered
  obtain ⟨token, tokens', rfl, hnext, -⟩ := h.exists_nextToken? hcovered
  rw [nextToken?_word hstart] at hnext
  obtain ⟨⟨lexeme, rest⟩, htaken, heq⟩ := Option.map_eq_some_iff.mp hnext
  cases heq
  have hinput : lexeme ++ covered tokens' = c :: (run ++ behind) := hcovered
  rw [← hinput] at htaken
  exact ⟨_, _, rfl, tokenClass_wordToken lexeme,
    prefix_of_wordEnd hrun hinput (wordStops_of_wordLexeme? htaken).wordEnd⟩

/-- A run of digits is taken whole by a number. -/
theorem Readable.digits (h : Readable (Rule.table comments) false tokens)
    (hcovered : covered tokens = run ++ behind) (hbehind : startsWithWordChar behind = false)
    (hdigits : NumericLiteral.IsDigits run) :
    ∃ token tokens', tokens = token :: tokens' ∧ token.tokenClass = .numericLiteral ∧
      run <+: token.lexeme := by
  have hword : ∀ d ∈ run, isWordChar d = true :=
    fun d hd => isWordChar_of_isDigit (hdigits.isDigit d hd)
  cases run with
  | nil => exact absurd rfl hdigits.ne_nil
  | cons c run =>
      have hdigit := hdigits.isDigit c List.mem_cons_self
      rw [List.cons_append] at hcovered
      obtain ⟨token, tokens', rfl, hnext, -⟩ := h.exists_nextToken? hcovered
      rw [nextToken?_digit hdigit] at hnext
      split at hnext
      · rename_i lexeme rest hnumber
        cases hnext
        obtain ⟨hinput, -, hend, -⟩ := NumericLiteral.recognize?_eq_some_iff.mp hnumber
        exact ⟨_, _, rfl, rfl, prefix_of_wordEnd hword hinput hend⟩
      · -- A number would have been refused only in front of another word character.
        rename_i hnone
        have hrefused := (NumericLiteral.recognize?_eq_none_iff hdigit).mp hnone
        rw [← List.cons_append, NumericLiteral.dropWhile_digits_append hdigits.isDigit
          (NumericLiteral.takeWhile_isDigit_of_wordEnd hbehind), hbehind] at hrefused
        exact Bool.noConfusion hrefused

/-- Behind a word character every character of a run is a token of its own. -/
theorem Readable.inside {rules : List Rule} (h : Readable rules true tokens)
    (hrun : ∀ c ∈ run, isWordChar c = true) (hcovered : covered tokens = run ++ behind) :
    ∃ tokens', tokens = run.map strayToken ++ tokens' := by
  induction run generalizing tokens with
  | nil => exact ⟨tokens, rfl⟩
  | cons c run ih =>
      have hc := hrun c List.mem_cons_self
      obtain ⟨token, tokens', rfl, hnext, hreadable⟩ := h.exists_nextToken? hcovered
      rw [nextToken?_inside _ hc] at hnext
      obtain ⟨rfl, hrest⟩ := Prod.mk.inj (Option.some.inj hnext)
      rw [endsWithWordChar_singleton, hc] at hreadable
      obtain ⟨tokens'', rfl⟩ :=
        ih hreadable (fun d hd => hrun d (List.mem_cons_of_mem _ hd)) hrest.symm
      exact ⟨tokens'', rfl⟩

/-- No number is taken in front of a run that does not consist of digits only. -/
theorem recognize?_of_not_isDigits {c : Char} (hrun : ∀ d ∈ c :: run, isWordChar d = true)
    (hdigit : c.isDigit = true) (hdigits : ¬ NumericLiteral.IsDigits (c :: run)) :
    NumericLiteral.recognize? (c :: (run ++ behind)) = none := by
  rw [NumericLiteral.recognize?_eq_none_iff hdigit, ← List.cons_append, List.dropWhile_append]
  cases hleft : (c :: run).dropWhile Char.isDigit with
  | nil => exact absurd ⟨List.dropWhile_eq_nil_iff.mp hleft, by simp⟩ hdigits
  | cons d left =>
      have hmem : d ∈ c :: run := by
        apply (List.dropWhile_sublist Char.isDigit).subset
        rw [hleft]
        exact List.mem_cons_self
      exact hrun d hmem

/-- Of a run that is neither a word nor a number every character is a token of its own. -/
theorem Readable.stray (h : Readable (Rule.table comments) false tokens) (hne : run ≠ [])
    (hrun : ∀ c ∈ run, isWordChar c = true) (hcovered : covered tokens = run ++ behind)
    (hname : ¬ StartsName run) (hdigits : ¬ NumericLiteral.IsDigits run) :
    ∃ tokens', tokens = run.map strayToken ++ tokens' := by
  cases run with
  | nil => exact absurd rfl hne
  | cons c run =>
      have hc := hrun c List.mem_cons_self
      have hstart : isIdentifierStart c = false := by
        cases hstart : isIdentifierStart c with
        | false => rfl
        | true => exact absurd ⟨c, run, rfl, hstart⟩ hname
      rw [List.cons_append] at hcovered
      obtain ⟨token, tokens', rfl, hnext, hreadable⟩ := h.exists_nextToken? hcovered
      have hfirst : nextToken? (Rule.table comments) false (c :: (run ++ behind))
          = some (strayToken c, run ++ behind) := by
        cases hdigit : c.isDigit with
        | true => rw [nextToken?_digit hdigit, recognize?_of_not_isDigits hrun hdigit hdigits,
            strayToken]
        | false => exact nextToken?_numeral hc hstart hdigit
      rw [hfirst] at hnext
      obtain ⟨rfl, hrest⟩ := Prod.mk.inj (Option.some.inj hnext)
      rw [strayToken, endsWithWordChar_singleton, hc] at hreadable
      obtain ⟨tokens'', rfl⟩ :=
        hreadable.inside (fun d hd => hrun d (List.mem_cons_of_mem _ hd)) hrest.symm
      exact ⟨tokens'', rfl⟩

end

/-! ## Places between word characters -/

section

variable {comments afterWord : Bool} {token : Token} {rest : Text}

theorem not_endsWithWordChar_append_singleton {t : Text} {c : Char} (hc : isWordChar c = false) :
    endsWithWordChar (t ++ [c]) = false := by
  rw [endsWithWordChar_append (by simp), endsWithWordChar_singleton, hc]

theorem LongerSymbol.not_endsWithWordChar {kind : Kind} {lexeme : Text}
    (h : LongerSymbol comments kind lexeme rest) :
    endsWithWordChar lexeme = false ∨ rest = [] := by
  cases h with
  | assignment => exact .inl (by decide)
  | comparison _ comparison => exact .inl (by cases comparison <;> decide)
  | block body _ hclose =>
      obtain ⟨inner, rfl⟩ := exists_eq_append_of_throughBlockClose? hclose
      exact .inl (not_endsWithWordChar_append_singleton (t := '/' :: '*' :: inner) (by decide))
  | line => exact .inr rfl

/-- A token that ends between two word characters is a character of its own. -/
theorem Reading.eq_strayToken (h : Reading comments afterWord token rest)
    (hend : endsWithWordChar token.lexeme = true) (hrest : startsWithWordChar rest = true) :
    ∃ c, token = strayToken c ∧ isWordChar c = true := by
  cases h with
  | word hword =>
      rw [(wordStops_of_wordLexeme? hword).wordEnd] at hrest
      exact Bool.noConfusion hrest
  | number hnumber =>
      obtain ⟨-, -, hwordEnd, -⟩ := NumericLiteral.recognize?_eq_some_iff.mp hnumber
      rw [hwordEnd] at hrest
      exact Bool.noConfusion hrest
  | stray c => exact ⟨c, rfl, hend⟩
  | blanks hne hblank =>
      have hlast := hblank _ (List.getLast_mem hne)
      unfold endsWithWordChar at hend
      rw [List.getLast?_eq_some_getLast hne, Option.any_some,
        not_isWordChar_of_isBlank hlast] at hend
      exact Bool.noConfusion hend
  | @string _ body _ hclose =>
      obtain ⟨inner, rfl⟩ := StringLiteral.exists_eq_append_of_throughClosingQuote? hclose
      have hquote : endsWithWordChar ('"' :: inner ++ ['"']) = false :=
        not_endsWithWordChar_append_singleton (by decide)
      rw [List.cons_append] at hquote
      rw [hquote] at hend
      exact Bool.noConfusion hend
  | longer hlonger =>
      rcases hlonger.not_endsWithWordChar with hlast | rfl
      · rw [hlast] at hend
        exact Bool.noConfusion hend
      · exact Bool.noConfusion hrest
  | sign operator =>
      have hsign : endsWithWordChar [operator.char] = false := operator.not_isWordChar_char
      rw [Operator.symbol, hsign] at hend
      exact Bool.noConfusion hend
  | mark mark =>
      have hmark : endsWithWordChar [mark.char] = false := mark.not_isWordChar_char
      rw [hmark] at hend
      exact Bool.noConfusion hend

/-- Words and numbers are read only where no word character stands before them or behind. -/
theorem Reading.wordEnds (h : Reading comments afterWord token rest)
    (hclass : token.tokenClass ∈ .numericLiteral :: TokenClass.words) :
    afterWord = false ∧ startsWithWordChar rest = false := by
  rcases List.mem_cons.mp hclass with hnumber | hword
  · obtain ⟨hafter, hnumber⟩ := h.recognize?_number hnumber
    obtain ⟨-, -, hend, -⟩ := NumericLiteral.recognize?_eq_some_iff.mp hnumber
    exact ⟨hafter, hend⟩
  · obtain ⟨hafter, hword⟩ := h.wordLexeme? hword
    exact ⟨hafter, (wordStops_of_wordLexeme? hword).wordEnd⟩

end

section

variable {comments : Bool} {tokens₁ tokens₂ : List Token}

/-- In front of a word character, the characters of its run that are tokens of their own reach back
to the start of the run. -/
theorem Readable.exists_stray_before (h : Readable (Rule.table comments) false (tokens₁ ++ tokens₂))
    (hstart : startsWithWordChar (covered tokens₂) = true) :
    ∃ (before : List Token) (left : Text), tokens₁ = before ++ left.map strayToken ∧
      (∀ c ∈ left, isWordChar c = true) ∧ endsWithWordChar (covered before) = false := by
  induction tokens₁ using List.reverseRecOn generalizing tokens₂ with
  | nil => exact ⟨[], [], rfl, by simp, rfl⟩
  | append_singleton tokens₁ token ih =>
      rw [List.append_assoc, List.singleton_append] at h
      have hne := h.reads.lexeme_ne_nil
      cases hend : endsWithWordChar token.lexeme with
      | false =>
          refine ⟨tokens₁ ++ [token], [], by simp, by simp, ?_⟩
          rw [covered_append, covered_cons, covered_nil, List.append_nil,
            endsWithWordChar_append hne, hend]
      | true =>
          -- The token ends between two word characters, so it is one of the run as well.
          obtain ⟨c, rfl, hc⟩ := h.reads.reading.eq_strayToken hend hstart
          obtain ⟨before, left, rfl, hleft, hbefore⟩ := ih h hc
          refine ⟨before, left ++ [c], by simp, ?_, hbefore⟩
          intro d hd
          rcases List.mem_append.mp hd with hd | hd
          · exact hleft d hd
          · rwa [List.mem_singleton.mp hd]

/-- Behind a word character, the characters that are tokens of their own reach on to the end of the
run. -/
theorem Readable.exists_stray_behind {rules : List Rule} (h : Readable rules true tokens₂) :
    ∃ (right : Text) (behind : List Token), tokens₂ = right.map strayToken ++ behind ∧
      (∀ c ∈ right, isWordChar c = true) ∧ startsWithWordChar (covered behind) = false := by
  have hsplit : (covered tokens₂).takeWhile isWordChar ++ (covered tokens₂).dropWhile isWordChar
      = covered tokens₂ := List.takeWhile_append_dropWhile
  have hright : ∀ c ∈ (covered tokens₂).takeWhile isWordChar, isWordChar c = true :=
    fun c hc => List.mem_takeWhile_imp hc
  obtain ⟨behind, hbehind⟩ := h.inside hright hsplit.symm
  refine ⟨_, behind, hbehind, hright, ?_⟩
  have hrest : (covered tokens₂).dropWhile isWordChar = covered behind := by
    have hcovered := congrArg covered hbehind
    rw [covered_append, covered_map_strayToken] at hcovered
    exact List.append_cancel_left (hsplit.trans hcovered)
  rw [← hrest]
  cases hdrop : (covered tokens₂).dropWhile isWordChar with
  | nil => rfl
  | cons c rest =>
      have hhead := List.head?_dropWhile_not isWordChar (covered tokens₂)
      rw [hdrop] at hhead
      simpa using hhead

/-- A word character that is a token of its own belongs to a run that is neither a word nor a
number. -/
theorem Readable.inStrayRun {c : Char} (hword : isWordChar c = true)
    (h : Readable (Rule.table comments) false (tokens₁ ++ strayToken c :: tokens₂)) :
    InStrayRun tokens₁ (strayToken c) tokens₂ := by
  obtain ⟨before, left, rfl, hleft, hbefore⟩ := h.exists_stray_before hword
  have hsuffix := h.suffix.2
  rw [strayToken, endsWithWordChar_singleton, hword] at hsuffix
  obtain ⟨right, behind, rfl, hright, hbehind⟩ := hsuffix.exists_stray_behind
  have hrun : ∀ d ∈ left ++ c :: right, isWordChar d = true := by
    intro d hd
    rcases List.mem_append.mp hd with hd | hd
    · exact hleft d hd
    · rcases List.mem_cons.mp hd with rfl | hd
      · exact hword
      · exact hright d hd
  have htokens : before ++ left.map strayToken ++ strayToken c :: (right.map strayToken ++ behind)
      = before ++ ((left ++ c :: right).map strayToken ++ behind) := by simp
  rw [htokens] at h
  have hreadable := h.suffix
  rw [wordBehind_false, hbefore] at hreadable
  have hcovered : covered ((left ++ c :: right).map strayToken ++ behind)
      = (left ++ c :: right) ++ covered behind := by
    rw [covered_append, covered_map_strayToken]
  -- The first token of the run is a character of its own, so it is neither a word nor a number.
  have hfirst : ∀ token tokens', (left ++ c :: right).map strayToken ++ behind = token :: tokens' →
      token.tokenClass = .text := by
    intro token tokens' heq
    cases left <;> cases heq <;> rfl
  refine ⟨before, left, c, right, behind, rfl, rfl, rfl, ⟨by simp, hrun, hbefore, hbehind⟩, ?_, ?_⟩
  · intro hname
    obtain ⟨token, tokens', heq, hclass, -⟩ := hreadable.name hrun hcovered hname
    rw [hfirst token tokens' heq] at hclass
    exact absurd hclass (by decide)
  · intro hdigits
    obtain ⟨token, tokens', heq, hclass, -⟩ := hreadable.digits hcovered hbehind hdigits
    rw [hfirst token tokens' heq] at hclass
    cases hclass

end

/-- **No run of word characters is classified in part.** Where a token begins at the start of a
run, the run is taken whole by a keyword or an identifier if it begins with a letter or an
underscore, and by a number if it consists of digits; of any other run every character is a token of
its own. Only those begin or end between two word characters, so none stands next to a keyword, an
identifier or a number. -/
theorem scan_wordRuns (comments : Bool) (line : Text) :
    (∀ tokens₁ tokens₂ run behind, scan (Rule.table comments) line = tokens₁ ++ tokens₂ →
      covered tokens₂ = run ++ behind → IsWordRun (covered tokens₁) run behind →
        (StartsName run → ∃ token tokens₃, tokens₂ = token :: tokens₃ ∧
          token.tokenClass ∈ TokenClass.words ∧ run <+: token.lexeme) ∧
        (NumericLiteral.IsDigits run → ∃ token tokens₃, tokens₂ = token :: tokens₃ ∧
          token.tokenClass = .numericLiteral ∧ run <+: token.lexeme) ∧
        (¬ StartsName run → ¬ NumericLiteral.IsDigits run →
          ∃ tokens₃, tokens₂ = run.map strayToken ++ tokens₃)) ∧
    (∀ tokens₁ token tokens₂, scan (Rule.table comments) line = tokens₁ ++ token :: tokens₂ →
      (endsWithWordChar (covered tokens₁) = true ∧ startsWithWordChar token.lexeme = true) ∨
        (endsWithWordChar token.lexeme = true ∧ startsWithWordChar (covered tokens₂) = true) →
      InStrayRun tokens₁ token tokens₂) ∧
    (∀ tokens₁ token tokens₂, scan (Rule.table comments) line = tokens₁ ++ token :: tokens₂ →
      token.tokenClass ∈ .numericLiteral :: TokenClass.words →
      endsWithWordChar (covered tokens₁) = false ∧
        startsWithWordChar (covered tokens₂) = false) := by
  refine ⟨?_, ?_, ?_⟩
  · intro tokens₁ tokens₂ run behind hscan hcovered hrun
    have hreadable := (scan_eq_iff.mp hscan).2.suffix
    rw [wordBehind_false, hrun.before] at hreadable
    exact ⟨hreadable.name hrun.isWordChar hcovered, hreadable.digits hcovered hrun.behind,
      hreadable.stray hrun.ne_nil hrun.isWordChar hcovered⟩
  · intro tokens₁ token tokens₂ hscan hinside
    have hreadable := (scan_eq_iff.mp hscan).2
    obtain ⟨c, rfl, hword⟩ : ∃ c, token = strayToken c ∧ isWordChar c = true := by
      rcases hinside with ⟨hbefore, hstart⟩ | ⟨hend, hbehind⟩
      · -- A token that begins behind a word character is read with every anchored rule left out.
        have hsuffix := hreadable.suffix
        rw [wordBehind_false, hbefore] at hsuffix
        cases hlexeme : token.lexeme with
        | nil => exact absurd hlexeme hreadable.reads.lexeme_ne_nil
        | cons c lexeme =>
            rw [hlexeme] at hstart
            have hcovered : covered (token :: tokens₂) = [c] ++ (lexeme ++ covered tokens₂) := by
              rw [covered_cons, hlexeme]
              rfl
            obtain ⟨tokens', heq⟩ := hsuffix.inside (by simpa using hstart) hcovered
            exact ⟨c, (List.cons.inj heq).1, hstart⟩
      · exact hreadable.reads.reading.eq_strayToken hend hbehind
    exact hreadable.inStrayRun hword
  · intro tokens₁ token tokens₂ hscan hclass
    have hreadable := (scan_eq_iff.mp hscan).2
    have hends := hreadable.reads.reading.wordEnds hclass
    rwa [wordBehind_false] at hends

example : scan (Rule.table false) "12ab".toList = "12ab".toList.map strayToken := by
  decide +kernel

end PseudocodeLexer
