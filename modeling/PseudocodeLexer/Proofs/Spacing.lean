import PseudocodeLexer.Proofs.Blanks
import PseudocodeLexer.Proofs.KeywordKinds

/-!
# Tokens with spaces between them

Tokens that are each read on their own can be written one behind the other with a single space
between them, and scanning gives them back (`scan_spaced_iff`). In front of a space a token stops
whatever comes behind the space (`stops_space_iff`), with two exceptions: a line comment takes the
space as well, and the first word of a phrase goes on with the second one. Which two tokens would
come together as a phrase is said by `FormsPhrase`, where an apostrophe counts as the end of the
second word although an identifier goes on across it.
-/

namespace PseudocodeLexer

open Text

/-- The lexeme is the name, or goes on behind it with an apostrophe. -/
def HeadedBy (name lexeme : Text) : Prop :=
  lexeme = name ∨ name ++ ['\''] <+: lexeme

instance (name lexeme : Text) : Decidable (HeadedBy name lexeme) :=
  inferInstanceAs (Decidable (_ ∨ _))

/-- With a space between them the two tokens begin with a phrase of the vocabularies. -/
def FormsPhrase (token next : Token) : Prop :=
  next.kind = .identifier ∧
    ((token.kind = .identifier ∧ token.lexeme = "Tant".toList ∧
        HeadedBy "que".toList next.lexeme) ∨
      (token.kind = .dataType .array ∧ HeadedBy "d'entier".toList next.lexeme))

instance (token next : Token) : Decidable (FormsPhrase token next) :=
  inferInstanceAs (Decidable (_ ∧ _))

/-! ## Phrases across a space -/

theorem standsAt_cons (c : Char) (word input : Text) :
    standsAt (c :: word) (c :: input) = standsAt word input := by
  simp [standsAt, behind?]

/-- A name that heads a lexeme stands there as a whole word. -/
theorem HeadedBy.standsAt {name lexeme : Text} (h : HeadedBy name lexeme) :
    standsAt name lexeme = true := by
  rcases h with rfl | ⟨rest, rfl⟩
  · exact standsAt_iff.mpr ⟨[], List.append_nil _, rfl⟩
  · exact standsAt_iff.mpr ⟨'\'' :: rest, by simp, not_isWordChar_apostrophe⟩

theorem IsIdentifier.headedBy {name lexeme : Text} (h : IsIdentifier lexeme)
    (hstands : PseudocodeLexer.standsAt name lexeme = true) : HeadedBy name lexeme := by
  obtain ⟨rest, rfl, hrest⟩ := standsAt_iff.mp hstands
  cases rest with
  | nil => exact .inl (List.append_nil _)
  | cons c rest =>
      -- What follows the name inside an identifier and is no word character is an apostrophe.
      have hc := h.continues c (by simp)
      rw [startsWithWordChar_cons] at hrest
      obtain rfl : c = '\'' := by simpa [isIdentifierContinue, hrest] using hc
      exact .inr ⟨rest, by simp⟩

/-- The text is over, or a blank comes next. -/
def AtBlank (rest : Text) : Prop :=
  rest = [] ∨ startsWithBlank rest = true

theorem AtBlank.not_startsWithWordChar {rest : Text} (h : AtBlank rest) :
    startsWithWordChar rest = false := by
  rcases h with rfl | hblank
  · rfl
  · cases rest with
    | nil => rfl
    | cons c rest => exact not_isWordChar_of_isBlank hblank

/-- A name without blanks does not reach behind a blank. -/
theorem AtBlank.standsAt_append {name lexeme more : Text} (hmore : AtBlank more)
    (hname : ∀ c ∈ name, isBlank c = false) :
    standsAt name (lexeme ++ more) = true ↔ standsAt name lexeme = true := by
  rw [PseudocodeLexer.standsAt_append hmore.not_startsWithWordChar]
  constructor
  · rintro (hstands | ⟨tail, htail, rfl, hreach⟩)
    · exact hstands
    · obtain ⟨after, rfl, -⟩ := standsAt_iff.mp hreach
      cases tail with
      | nil => exact absurd rfl htail
      | cons c tail =>
          rcases hmore with hnil | hblank
          · cases hnil
          · exact absurd rfl (ne_of_isBlank hblank (hname c (by simp)))
  · exact .inl

section

variable {comments : Bool} {token next : Token} {name more : Text}

/-- The first word of a phrase is read as an identifier or as the keyword for arrays. -/
theorem Reads.phrase_mem_iff (h : Reads (Rule.table comments) false token [])
    (hname : name ∈ phraseTails) :
    token.lexeme ++ ' ' :: name ∈ keywordWords ↔
      (token.kind = .identifier ∧ token.lexeme = "Tant".toList ∧ name = "que".toList) ∨
        (token.kind = .dataType .array ∧ name = "d'entier".toList) := by
  have harray : token.kind = .dataType .array ↔ token.lexeme = "tableau".toList :=
    (h.kind_eq_iff (TypeKeyword.spellings_ne_nil .array)).trans List.mem_singleton
  have htant (hlexeme : token.lexeme = "Tant".toList) : token.kind = .identifier := by
    rw [h.eq_wordToken hlexeme (by decide), hlexeme]
    decide +kernel
  rw [PseudocodeLexer.phrase_mem_iff hname, harray]
  apply or_congr_left
  constructor
  · rintro ⟨hlexeme, hque⟩
    exact ⟨htant hlexeme, hlexeme, hque⟩
  · exact And.right

/-- What begins like the second word of a phrase is an identifier. -/
theorem Reads.identifier_of_phraseTail (h : Reads (Rule.table comments) false next [])
    (hname : name ∈ phraseTails) (hstands : standsAt name next.lexeme = true) :
    next.kind = .identifier ∧ IsIdentifier next.lexeme := by
  obtain ⟨c, tail, rfl, hstart⟩ := (isIdentifier_of_mem_phraseTails hname).start
  obtain ⟨after, happend, -⟩ := standsAt_iff.mp hstands
  have hnext := h
  unfold Reads at hnext
  rw [List.append_nil, ← happend, List.cons_append, nextToken?_word hstart] at hnext
  obtain ⟨⟨word, rest⟩, hword, heq⟩ := Option.map_eq_some_iff.mp hnext
  cases heq
  have hnew : word ∉ keywordWords := by
    intro hmem
    apply (phraseTails_spec _ hname).2 word hmem
    rw [show word = c :: (tail ++ after) from happend.symm]
    rfl
  constructor
  · rw [wordToken, keywordKind?_eq_none hnew]
    rfl
  · exact (mem_or_isIdentifier_of_wordLexeme? hword).resolve_left hnew

theorem Reads.standsAt_phraseTail_iff (h : Reads (Rule.table comments) false next [])
    (hname : name ∈ phraseTails) (hmore : AtBlank more) :
    standsAt name (next.lexeme ++ more) = true ↔
      next.kind = .identifier ∧ HeadedBy name next.lexeme := by
  rw [hmore.standsAt_append (isIdentifier_of_mem_phraseTails hname).not_isBlank]
  constructor
  · intro hstands
    obtain ⟨hkind, hidentifier⟩ := h.identifier_of_phraseTail hname hstands
    exact ⟨hkind, hidentifier.headedBy hstands⟩
  · rintro ⟨-, hheaded⟩
    exact hheaded.standsAt

/-- A phrase goes on behind a word and a space exactly if the next token completes it. -/
theorem phraseGoesOn_iff_formsPhrase (htoken : Reads (Rule.table comments) false token [])
    (hclass : token.tokenClass ∈ TokenClass.words)
    (hnext : Reads (Rule.table comments) false next []) (hmore : AtBlank more) :
    PhraseGoesOn token.lexeme (' ' :: (next.lexeme ++ more)) ↔ FormsPhrase token next := by
  constructor
  · intro hgoesOn
    have hword := mem_or_isIdentifier_of_wordLexeme? (htoken.reading.wordLexeme? hclass).2
    obtain ⟨name, hname, hphrase, hstands⟩ := hgoesOn.exists_phraseTail hword rfl
    rw [standsAt_cons, hnext.standsAt_phraseTail_iff hname hmore] at hstands
    obtain ⟨hkind, hheaded⟩ := hstands
    rcases (htoken.phrase_mem_iff hname).mp hphrase with ⟨hfirst, hlexeme, rfl⟩ | ⟨hfirst, rfl⟩
    · exact ⟨hkind, .inl ⟨hfirst, hlexeme, hheaded⟩⟩
    · exact ⟨hkind, .inr ⟨hfirst, hheaded⟩⟩
  · have hcompletes {name : Text} (hname : name ∈ phraseTails)
        (hphrase : token.lexeme ++ ' ' :: name ∈ keywordWords)
        (hsecond : next.kind = .identifier ∧ HeadedBy name next.lexeme) :
        PhraseGoesOn token.lexeme (' ' :: (next.lexeme ++ more)) := by
      refine ⟨' ' :: name, List.cons_ne_nil _ _, hphrase, ?_⟩
      rwa [standsAt_cons, hnext.standsAt_phraseTail_iff hname hmore]
    have hque : "que".toList ∈ phraseTails := by simp [phraseTails]
    have hentier : "d'entier".toList ∈ phraseTails := by simp [phraseTails]
    rintro ⟨hkind, ⟨hfirst, hlexeme, hheaded⟩ | ⟨hfirst, hheaded⟩⟩
    · have hphrase := (htoken.phrase_mem_iff hque).mpr (.inl ⟨hfirst, hlexeme, rfl⟩)
      exact hcompletes hque hphrase ⟨hkind, hheaded⟩
    · have hphrase := (htoken.phrase_mem_iff hentier).mpr (.inr ⟨hfirst, rfl⟩)
      exact hcompletes hentier hphrase ⟨hkind, hheaded⟩

/-! ## In front of a space -/

theorem wordStops_space_iff {lexeme rest : Text} :
    WordStops lexeme (' ' :: rest) ↔ ¬ PhraseGoesOn lexeme (' ' :: rest) :=
  ⟨WordStops.phraseEnd, fun hphrase => ⟨rfl, hphrase, fun _ => rfl⟩⟩

theorem numberStops_space (lexeme rest : Text) : NumberStops lexeme (' ' :: rest) where
  wordEnd := rfl
  fractionEnd _ hfits := by
    obtain ⟨fraction, after, hfraction, -⟩ := hfits
    cases hfraction

/-- No sign becomes a longer one with a space. -/
theorem not_longerStands_space (sign : Operator) (rest : Text) :
    ¬ LongerStands comments (sign.char :: ' ' :: rest) := by
  rintro ⟨kind, lexeme, after, hlonger, happend⟩
  -- A longer sign has a second character, which is no space.
  have hsecond : ∃ c d tail, lexeme = c :: d :: tail ∧ d ≠ ' ' := by
    cases hlonger with
    | assignment => exact ⟨_, _, _, rfl, by decide⟩
    | comparison _ comparison => cases comparison <;> exact ⟨_, _, _, rfl, by decide⟩
    | block => exact ⟨_, _, _, rfl, by decide⟩
    | line => exact ⟨_, _, _, rfl, by decide⟩
  obtain ⟨c, d, tail, rfl, hd⟩ := hsecond
  exact hd (List.cons.inj (List.cons.inj happend).2).1

/-- In front of a space every token stops but a line comment and the first word of a phrase. -/
theorem stops_space_iff {afterWord : Bool} {rest : Text}
    (hkind : token.kind ≠ .whitespace ∧ token.kind ≠ .text) :
    Stops comments afterWord token (' ' :: rest) ↔ token.kind ≠ .comment .line ∧
      (token.tokenClass ∈ TokenClass.words → ¬ PhraseGoesOn token.lexeme (' ' :: rest)) := by
  obtain ⟨kind, lexeme⟩ := token
  cases kind with
  | control | io | dataType | identifier =>
      simp [Stops, Token.tokenClass, Kind.tokenClass, TokenClass.words, wordStops_space_iff]
  | number =>
      simp [Stops, Token.tokenClass, Kind.tokenClass, TokenClass.words, numberStops_space]
  | operator sign =>
      simp [Stops, Token.tokenClass, Kind.tokenClass, TokenClass.words, not_longerStands_space]
  | comment style =>
      cases style <;> simp [Stops, Token.tokenClass, Kind.tokenClass, TokenClass.words]
  | string | assignment | comparison | punctuation =>
      simp [Stops, Token.tokenClass, Kind.tokenClass, TokenClass.words]
  | whitespace => exact absurd rfl hkind.1
  | text => exact absurd rfl hkind.2

theorem FormsPhrase.tokenClass_mem (h : FormsPhrase token next) :
    token.tokenClass ∈ TokenClass.words := by
  unfold Token.tokenClass
  rcases h.2 with ⟨hkind, -⟩ | ⟨hkind, -⟩ <;> rw [hkind] <;> decide

/-- A token that is read on its own is read in front of a space and another one, unless it is a
line comment or forms a phrase with the other one. -/
theorem reads_space_iff (hkind : token.kind ≠ .whitespace ∧ token.kind ≠ .text)
    (htoken : Reads (Rule.table comments) false token [])
    (hnext : Reads (Rule.table comments) false next []) (hmore : AtBlank more) :
    Reads (Rule.table comments) false token (' ' :: (next.lexeme ++ more)) ↔
      token.kind ≠ .comment .line ∧ ¬ FormsPhrase token next := by
  have hphrase (hclass : token.tokenClass ∈ TokenClass.words) :=
    phraseGoesOn_iff_formsPhrase htoken hclass hnext hmore
  rw [reads_iff_stops htoken, stops_space_iff hkind, and_congr_right_iff]
  intro _
  constructor
  · intro hstops hforms
    exact hstops hforms.tokenClass_mem ((hphrase hforms.tokenClass_mem).mpr hforms)
  · intro hforms hclass hgoesOn
    exact hforms ((hphrase hclass).mp hgoesOn)

/-! ## Spaces between all tokens -/

theorem covered_spaced (tokens : List Token) :
    covered (tokens.intersperse spaceToken) = [' '].intercalate (tokens.map Token.lexeme) := by
  induction tokens with
  | nil => rfl
  | cons token tokens ih =>
      cases tokens with
      | nil => simp
      | cons next tokens =>
          have hne : (next :: tokens).map Token.lexeme ≠ [] := List.cons_ne_nil _ _
          rw [List.map_cons, List.intercalate_cons_of_ne_nil hne, List.intersperse_cons_cons,
            covered_cons, covered_cons, ih, List.append_assoc]
          rfl

/-- Between two tokens a space is read by itself, and what is behind it as if it began a line. -/
theorem readable_space_iff {tokens : List Token}
    (hstart : startsWithBlank (covered tokens) = false) :
    Readable (Rule.table comments) false (token :: spaceToken :: tokens) ↔
      Reads (Rule.table comments) false token (' ' :: covered tokens) ∧
        Readable (Rule.table comments) false tokens := by
  constructor
  · rintro ⟨hreads, -, hreadable⟩
    exact ⟨hreads, hreadable⟩
  · rintro ⟨hreads, hreadable⟩
    exact ⟨hreads, reads_blankRun isBlankRun_space hstart, hreadable⟩

theorem exists_covered_spaced (token : Token) (tokens : List Token) :
    ∃ more, AtBlank more ∧
      covered ((token :: tokens).intersperse spaceToken) = token.lexeme ++ more := by
  cases tokens with
  | nil => exact ⟨[], .inl rfl, rfl⟩
  | cons next tokens =>
      refine ⟨covered (spaceToken :: (next :: tokens).intersperse spaceToken), .inr rfl, ?_⟩
      rw [List.intersperse_cons_cons, covered_cons]

end

theorem readable_spaced_iff {comments : Bool} {tokens : List Token}
    (hkind : ∀ token ∈ tokens, token.kind ≠ .whitespace ∧ token.kind ≠ .text)
    (halone : ∀ token ∈ tokens, Reads (Rule.table comments) false token []) :
    Readable (Rule.table comments) false (tokens.intersperse spaceToken) ↔
      (∀ token ∈ tokens.dropLast, token.kind ≠ .comment .line) ∧
        tokens.IsChain fun token next => ¬ FormsPhrase token next := by
  induction tokens with
  | nil => simp [Readable]
  | cons token tokens ih =>
      obtain ⟨hkindHead, hkindTail⟩ := List.forall_mem_cons.mp hkind
      obtain ⟨haloneHead, haloneTail⟩ := List.forall_mem_cons.mp halone
      cases tokens with
      | nil => simpa [Readable] using haloneHead
      | cons next tokens =>
          have hnext := haloneTail next List.mem_cons_self
          obtain ⟨more, hmore, hcovered⟩ := exists_covered_spaced next tokens
          have hstart : startsWithBlank (covered ((next :: tokens).intersperse spaceToken))
              = false := by
            rw [hcovered, startsWithBlank_append hnext.lexeme_ne_nil, Bool.eq_false_iff]
            exact hnext.kind_eq_whitespace_iff.not.mp (hkindTail next List.mem_cons_self).1
          rw [List.intersperse_cons_cons, readable_space_iff hstart, ih hkindTail haloneTail,
            hcovered, reads_space_iff hkindHead haloneHead hnext hmore, List.dropLast_cons_cons,
            List.forall_mem_cons, List.isChain_cons_cons]
          exact and_and_and_comm

/-- **Spaces keep tokens apart.** Tokens that each make up a line by themselves, blanks and
unclassified characters left out, can be written with single spaces between them: scanning gives
them back, with the spaces, exactly if only the last one is a line comment and no two of them that
follow one another form a phrase. -/
theorem scan_spaced_iff (comments : Bool) (tokens : List Token)
    (hkind : ∀ token ∈ tokens, token.kind ≠ .whitespace ∧ token.kind ≠ .text)
    (halone : ∀ token ∈ tokens, scan (Rule.table comments) token.lexeme = [token]) :
    scan (Rule.table comments) ([' '].intercalate (tokens.map Token.lexeme))
        = tokens.intersperse spaceToken ↔
      (∀ token ∈ tokens.dropLast, token.kind ≠ .comment .line) ∧
        tokens.IsChain fun token next => ¬ FormsPhrase token next := by
  rw [scan_eq_iff, and_iff_right (covered_spaced tokens)]
  apply readable_spaced_iff hkind
  intro token hmem
  exact (scan_eq_iff.mp (halone token hmem)).2.1

/-- The first word of a phrase in front of the letters of the second, and a line comment that comes
last. -/
theorem scan_spaced_almost_phrase :
    scan (Rule.table true) "Tant quel //".toList
      = [⟨.identifier, "Tant".toList⟩, spaceToken, ⟨.identifier, "quel".toList⟩, spaceToken,
          ⟨.comment .line, "//".toList⟩] :=
  (scan_spaced_iff true
    [⟨.identifier, "Tant".toList⟩, ⟨.identifier, "quel".toList⟩, ⟨.comment .line, "//".toList⟩]
    (by decide) (by decide +kernel)).mpr (by decide +kernel)

/-- The two identifiers come together, and what is left behind the apostrophe is a third one. -/
example : FormsPhrase ⟨.identifier, "Tant".toList⟩ ⟨.identifier, "que'x".toList⟩ ∧
    scan (Rule.table false) "Tant que'x".toList
      = [⟨.control .whileLoop, "Tant que".toList⟩, ⟨.text, ['\'']⟩, ⟨.identifier, ['x']⟩] := by
  decide +kernel

end PseudocodeLexer
