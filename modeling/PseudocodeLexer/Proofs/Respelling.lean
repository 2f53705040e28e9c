import PseudocodeLexer.Proofs.ExchangedText

/-!
# Both languages at once

Any keyword of a scanned line can be put in any other spelling of its concept, and the line scans to
the same tokens with that spelling in place (`scan_respelled`). The one thing that could stand in
the way is a phrase: a word in front of the keyword that begins one, or a spelling that begins one
itself. The second part of every phrase is an identifier on its own that no keyword begins like, so
it is never what was respelled (`standsAt_of_respelled`), and a concept spelled by the beginning of
a phrase has no other spelling (`Kind.spellings_of_extends`).
-/

namespace PseudocodeLexer

open Text

/-- The spellings of the keyword concept that a kind stands for. -/
def Kind.spellings : Kind → List Text
  | .control keyword => keyword.spellings
  | .io keyword => [keyword.french, keyword.english]
  | .dataType keyword => TypeKeyword.vocabulary.accepted keyword
  | _ => []

/-- The second token is the first, or the same keyword in a spelling of its concept. -/
inductive Respelled : Token → Token → Prop where
  | same (token : Token) : Respelled token token
  | spelled {kind : Kind} (old : Text) {new : Text} : new ∈ kind.spellings →
      Respelled ⟨kind, old⟩ ⟨kind, new⟩

/-! ## Spellings -/

theorem Kind.mem_all (kind : Kind) : kind ∈ Kind.all := by
  cases kind with
  | control keyword => cases keyword <;> decide
  | io keyword => cases keyword <;> decide
  | dataType keyword => cases keyword <;> decide
  | comparison relation => cases relation <;> decide
  | operator sign => cases sign <;> decide
  | punctuation mark => cases mark <;> decide
  | comment style => cases style <;> decide
  | string | number | assignment | identifier | whitespace | text => decide

-- The tables are checked at once: the kernel decodes each spelling only once in a proof.
private theorem spellings_table :
    (∀ kind ∈ Kind.all, ∀ word ∈ kind.spellings, word ∈ keywordWords ∧
      wordLexeme? word = some (word, []) ∧ wordToken word = ⟨kind, word⟩) ∧
    (∀ kind ∈ Kind.all, ∀ word ∈ kind.spellings, ∀ phrase ∈ keywordWords,
      extends? word phrase = true → kind.spellings = [word]) := by
  decide +kernel

/-- Every spelling of a concept is one of the words that are tried, alone is taken whole, and is
read as that concept. -/
theorem Kind.spellings_spec (kind : Kind) : ∀ word ∈ kind.spellings,
    word ∈ keywordWords ∧ wordLexeme? word = some (word, []) ∧ wordToken word = ⟨kind, word⟩ :=
  spellings_table.1 kind kind.mem_all

/-- A spelling that begins a phrase is the only one of its concept. -/
theorem Kind.spellings_of_extends (kind : Kind) : ∀ word ∈ kind.spellings,
    ∀ phrase ∈ keywordWords, extends? word phrase = true → kind.spellings = [word] :=
  spellings_table.2 kind kind.mem_all

/-- Words of the vocabularies look alike to what stands in front of them: they begin with a letter
and hold no quote, backslash, star or slash. -/
def keywordPieces : PieceSort where
  IsPiece word := word ∈ keywordWords
  opens := isIdentifierStart
  exists_cons hword := keywordWords_open.exists_cons hword
  isPlain {word} hword := by
    have hplain : ∀ word ∈ keywordWords, word.all isPlain = true := by decide +kernel
    exact hplain word hword
  isWordChar_eq hc hd := by
    rw [isWordChar_of_isIdentifierStart hc, isWordChar_of_isIdentifierStart hd]
  isBlank_eq hc hd := by
    rw [not_isBlank_of_isWordChar (isWordChar_of_isIdentifierStart hc),
      not_isBlank_of_isWordChar (isWordChar_of_isIdentifierStart hd)]
  not_opens hc := by
    apply eq_false_of_goesOn _ (by decide) hc
    intro d hdigit
    exact not_isIdentifierStart_of_isDigit hdigit

theorem mem_spellings_of_keywordKind? {word : Text} {kind : Kind}
    (h : keywordKind? word = some kind) : word ∈ kind.spellings := by
  unfold keywordKind? at h
  rcases Option.or_eq_some_iff.mp h with hcontrol | ⟨-, h⟩
  · obtain ⟨keyword, hkeyword, rfl⟩ := Option.map_eq_some_iff.mp hcontrol
    have haccepted := Vocabulary.mem_accepted_of_ofSpelling? hkeyword
    rwa [keyword.accepted_eq_spellings] at haccepted
  · rcases Option.or_eq_some_iff.mp h with hio | ⟨-, htype⟩
    · obtain ⟨keyword, hkeyword, rfl⟩ := Option.map_eq_some_iff.mp hio
      have haccepted := Vocabulary.mem_accepted_of_ofSpelling? hkeyword
      rwa [keyword.accepted_eq_languages] at haccepted
    · obtain ⟨keyword, hkeyword, rfl⟩ := Option.map_eq_some_iff.mp htype
      exact Vocabulary.mem_accepted_of_ofSpelling? hkeyword

/-- A keyword is read in a spelling of its concept, and never behind a word character. -/
theorem Reading.mem_spellings {comments afterWord : Bool} {kind : Kind} {lexeme rest new : Text}
    (h : Reading comments afterWord ⟨kind, lexeme⟩ rest) (hnew : new ∈ kind.spellings) :
    afterWord = false ∧ lexeme ∈ kind.spellings ∧ WordStops lexeme rest := by
  generalize htoken : (⟨kind, lexeme⟩ : Token) = token at h
  cases h with
  | @word word _ hword =>
      obtain ⟨hkind, rfl⟩ := Token.mk.inj htoken
      refine ⟨rfl, ?_, wordStops_of_wordLexeme? hword⟩
      cases hfound : keywordKind? lexeme with
      | none =>
          rw [hfound] at hkind
          subst hkind
          cases hnew
      | some found =>
          rw [hfound] at hkind
          subst hkind
          exact mem_spellings_of_keywordKind? hfound
  | longer hlonger =>
      cases htoken
      cases hlonger <;> cases hnew
  | number | stray | blanks | string | sign | mark =>
      cases htoken
      cases hnew

theorem Respelled.exchangedText {comments afterWord : Bool} {token token' : Token}
    {rest s t : Text} (h : Respelled token token')
    (hreading : Reading comments afterWord token rest) (htext : ExchangedText keywordPieces s t) :
    ExchangedText keywordPieces (token.lexeme ++ s) (token'.lexeme ++ t) := by
  cases h with
  | same => exact htext.append_left _
  | @spelled kind old new hnew =>
      have hold := (hreading.mem_spellings hnew).2.1
      exact .piece (kind.spellings_spec old hold).1 (kind.spellings_spec new hnew).1 htext

theorem Respelled.endsWithWordChar_eq {comments afterWord : Bool} {token token' : Token}
    {rest : Text} (h : Respelled token token')
    (hreading : Reading comments afterWord token rest) :
    endsWithWordChar token'.lexeme = endsWithWordChar token.lexeme := by
  cases h with
  | same => rfl
  | @spelled kind old new hnew =>
      have hold := (hreading.mem_spellings hnew).2.1
      rw [endsWithWordChar_of_mem_keywordWords _ (kind.spellings_spec old hold).1,
        endsWithWordChar_of_mem_keywordWords _ (kind.spellings_spec new hnew).1]

/-- A token whose lexeme begins like no keyword is not respelled. -/
theorem Respelled.eq_of_head {token token' : Token} {c : Char} {lexeme : Text}
    (h : Respelled token token') (hlexeme : token'.lexeme = c :: lexeme)
    (hnew : ∀ word ∈ keywordWords, word.head? ≠ some c) : token' = token := by
  cases h with
  | same => rfl
  | @spelled kind old new hmem =>
      have hhead : new.head? = some c := by
        rw [show new = c :: lexeme from hlexeme]
        rfl
      exact absurd hhead (hnew new (kind.spellings_spec new hmem).1)

section

variable {comments afterWord : Bool} {tokens tokens' : List Token}

theorem Readable.respelledText (h : Readable (Rule.table comments) afterWord tokens)
    (hrespelled : List.Forall₂ Respelled tokens tokens') :
    ExchangedText keywordPieces (covered tokens) (covered tokens') :=
  .of_readable (fun hreads htoken => htoken.exchangedText hreads.reading) h hrespelled

/-- A text that begins like no keyword begins with a token that was not respelled. -/
theorem Readable.exists_first (h : Readable (Rule.table comments) afterWord tokens)
    (hrespelled : List.Forall₂ Respelled tokens tokens') {c : Char} {input : Text}
    (hcovered : covered tokens' = c :: input)
    (hnew : ∀ word ∈ keywordWords, word.head? ≠ some c) :
    ∃ token rest rest' lexeme, tokens = token :: rest ∧ tokens' = token :: rest' ∧
      token.lexeme = c :: lexeme ∧ lexeme ++ covered rest' = input ∧
      nextToken? (Rule.table comments) afterWord (c :: (lexeme ++ covered rest))
        = some (token, covered rest) ∧
      Readable (Rule.table comments) (endsWithWordChar token.lexeme) rest ∧
      List.Forall₂ Respelled rest rest' := by
  cases hrespelled with
  | nil => cases hcovered
  | @cons token token' rest rest' htoken hrest =>
      obtain ⟨hreads, hreadable⟩ := h
      cases hlexeme : token'.lexeme with
      | nil =>
          -- An empty lexeme can neither be read nor be a spelling.
          cases htoken with
          | same => exact absurd hlexeme hreads.lexeme_ne_nil
          | @spelled kind old new hmem =>
              obtain ⟨d, tail, rfl, -⟩ :=
                keywordWords_open.exists_cons (kind.spellings_spec new hmem).1
              cases hlexeme
      | cons d lexeme =>
          rw [covered_cons, hlexeme] at hcovered
          obtain ⟨rfl, hinput⟩ := List.cons.inj hcovered
          obtain rfl := htoken.eq_of_head hlexeme hnew
          unfold Reads at hreads
          rw [hlexeme] at hreads
          exact ⟨_, rest, rest', lexeme, rfl, rfl, hlexeme, hinput, hreads, hreadable, hrest⟩

end

/-! ## Phrases -/

section

variable {comments afterWord : Bool} {tokens tokens' : List Token}

/-- The second word of a phrase is an identifier that was there before. -/
theorem exists_eq_append_of_phraseTail {name after : Text} (hname : name ∈ phraseTails)
    (h : Readable (Rule.table comments) false tokens)
    (hrespelled : List.Forall₂ Respelled tokens tokens')
    (hcovered : covered tokens' = name ++ after)
    (hafter : startsWithWordChar after = false) :
    ∃ after', covered tokens = name ++ after' ∧ startsWithWordChar after' = false := by
  have hnew := (phraseTails_spec name hname).2
  have hidentifier := isIdentifier_of_mem_phraseTails hname
  obtain ⟨c, tail, heq, hstart⟩ := hidentifier.start
  have hhead : name.head? = some c := by rw [heq]; rfl
  rw [hhead] at hnew
  have hinput : covered tokens' = c :: (tail ++ after) := by
    rw [hcovered, heq]
    rfl
  obtain ⟨token, rest, rest', lexeme, rfl, rfl, hlexeme, hbehind, hnext, hreadable, hrest⟩ :=
    h.exists_first hrespelled hinput hnew
  rw [nextToken?_word hstart] at hnext
  obtain ⟨⟨word, _⟩, hword, htoken⟩ := Option.map_eq_some_iff.mp hnext
  obtain ⟨rfl, rfl⟩ := Prod.mk.inj htoken
  obtain rfl : word = c :: lexeme := hlexeme
  -- No keyword begins like the second word, so an identifier was taken there up to its end.
  have hkeyword : c :: lexeme ∉ keywordWords := fun hmem => hnew _ hmem rfl
  have htext := hreadable.respelledText hrest
  have hends := htext.endsIdentifier ((wordStops_of_wordLexeme? hword).identifierEnd hkeyword)
  have happend : (c :: lexeme) ++ covered rest' = name ++ after := by
    rw [heq, List.cons_append, hbehind]
    rfl
  obtain ⟨more, hmore, rfl⟩ := hidentifier.exists_eq_append happend (by simp) hends
  refine ⟨more ++ covered rest, ?_, ?_⟩
  · rw [← List.append_assoc, ← hmore]
    rfl
  · rw [(htext.append_left more).startsWithWordChar_eq, hafter]

/-- Respelling keywords completes no phrase. -/
theorem standsAt_of_respelled {name : Text} (hname : name ∈ phraseTails)
    (h : Readable (Rule.table comments) afterWord tokens)
    (hrespelled : List.Forall₂ Respelled tokens tokens')
    (hstands : standsAt (' ' :: name) (covered tokens') = true) :
    standsAt (' ' :: name) (covered tokens) = true := by
  obtain ⟨after, happend, hafter⟩ := standsAt_iff.mp hstands
  have hnew : ∀ word ∈ keywordWords, word.head? ≠ some ' ' := by
    intro word hword heq
    obtain ⟨d, _, rfl, hd⟩ := keywordWords_open.exists_cons hword
    cases heq
    exact absurd hd (by decide)
  obtain ⟨blank, rest, rest', lexeme, rfl, rfl, hlexeme, hinput, hnext, hreadable, hrest⟩ :=
    h.exists_first hrespelled happend.symm hnew
  rw [nextToken?_blank (by decide)] at hnext
  obtain ⟨rfl, -⟩ := Prod.mk.inj (Option.some.inj hnext)
  have hrun : (lexeme ++ covered rest).takeWhile isBlank = lexeme := (List.cons.inj hlexeme).2
  -- The blank is a token of its own, since the second word follows at once.
  have hempty : lexeme = [] := by
    cases lexeme with
    | nil => rfl
    | cons d lexeme =>
        obtain ⟨c, tail, rfl, hstart⟩ := (isIdentifier_of_mem_phraseTails hname).start
        obtain ⟨rfl, -⟩ := List.cons.inj hinput
        have hblank : isBlank d = true := by
          have hmem : d ∈ (d :: lexeme ++ covered rest).takeWhile isBlank := by
            rw [hrun]
            exact List.mem_cons_self
          exact List.mem_takeWhile_imp hmem
        rw [not_isBlank_of_isWordChar (isWordChar_of_isIdentifierStart hstart)] at hblank
        exact Bool.noConfusion hblank
  subst lexeme
  rw [hrun] at hreadable
  obtain ⟨after', hcovered, hafter'⟩ :=
    exists_eq_append_of_phraseTail hname hreadable hrest hinput hafter
  refine standsAt_iff.mpr ⟨after', ?_, hafter'⟩
  rw [covered_cons, hrun, hcovered]
  rfl

/-- A word in front of respelled keywords stops where it stopped. -/
theorem WordStops.respelled {lexeme : Text} (hword : lexeme ∈ keywordWords ∨ IsIdentifier lexeme)
    (h : Readable (Rule.table comments) afterWord tokens)
    (hrespelled : List.Forall₂ Respelled tokens tokens')
    (hstops : WordStops lexeme (covered tokens)) :
    WordStops lexeme (covered tokens') :=
  hstops.exchanged hword (h.respelledText hrespelled)
    fun _ hname => standsAt_of_respelled hname h hrespelled

/-- Another spelling of a keyword stops where the keyword stopped. -/
theorem WordStops.respelled_keyword {kind : Kind} {old new : Text} (hold : old ∈ kind.spellings)
    (hnew : new ∈ kind.spellings) (h : Readable (Rule.table comments) afterWord tokens)
    (hrespelled : List.Forall₂ Respelled tokens tokens') (hstops : WordStops old (covered tokens)) :
    WordStops new (covered tokens') := by
  have hmem := (kind.spellings_spec new hnew).1
  have hold' := hstops.respelled (.inl (kind.spellings_spec old hold).1) h hrespelled
  refine ⟨hold'.wordEnd, ?_, fun hnot => absurd hmem hnot⟩
  rintro ⟨tail, htail, hphrase, hstands⟩
  -- A spelling that begins a phrase has no other beside it, so nothing was respelled here.
  have hextends : extends? new (new ++ tail) = true :=
    extends?_append htail hstands hold'.wordEnd
  have honly := kind.spellings_of_extends new hnew _ hphrase hextends
  rw [honly] at hold
  obtain rfl := List.mem_singleton.mp hold
  exact hold'.phraseEnd ⟨tail, htail, hphrase, hstands⟩

end

/-! ## The line in another spelling -/

theorem reads_spelling {comments : Bool} {kind : Kind} {word : Text}
    (hword : word ∈ kind.spellings) :
    Reads (Rule.table comments) false ⟨kind, word⟩ [] := by
  obtain ⟨hmem, htaken, htoken⟩ := kind.spellings_spec word hword
  obtain ⟨c, tail, rfl, hstart⟩ := keywordWords_open.exists_cons hmem
  unfold Reads
  rw [List.append_nil, nextToken?_word hstart, htaken, ← htoken]
  rfl

section

variable {comments afterWord : Bool} {tokens tokens' : List Token}

/-- Every token is read in its place when keywords are respelled. -/
theorem Reads.respelled {token token' : Token}
    (hreads : Reads (Rule.table comments) afterWord token (covered tokens))
    (htoken : Respelled token token')
    (h : Readable (Rule.table comments) (endsWithWordChar token.lexeme) tokens)
    (hrespelled : List.Forall₂ Respelled tokens tokens') :
    Reads (Rule.table comments) afterWord token' (covered tokens') := by
  cases htoken with
  | same =>
      exact hreads.exchanged (h.respelledText hrespelled)
        fun _ hname => standsAt_of_respelled hname h hrespelled
  | @spelled kind old new hnew =>
      obtain ⟨rfl, hold, hstops⟩ := hreads.reading.mem_spellings hnew
      -- The spelling is read at the end of a line, so only what stands behind it is to be asked.
      have hspelling : Reads (Rule.table comments) false ⟨kind, new⟩ [] := reads_spelling hnew
      rw [reads_iff_stops hspelling, ← (kind.spellings_spec new hnew).2.2, stops_wordToken]
      exact hstops.respelled_keyword hold hnew h hrespelled

theorem Readable.respelled (h : Readable (Rule.table comments) afterWord tokens)
    (hrespelled : List.Forall₂ Respelled tokens tokens') :
    Readable (Rule.table comments) afterWord tokens' := by
  refine h.exchanged ?_ hrespelled
  intro _ _ _ _ _ hreadable htoken hrest
  exact ⟨hreadable.1.respelled htoken hreadable.2 hrest,
    htoken.endsWithWordChar_eq hreadable.1.reading⟩

end

/-- **Both languages are read alike.** If keywords of a scanned line are put in other spellings of
their concepts, the line that results scans to the same tokens in those spellings. -/
theorem scan_respelled (comments : Bool) (line : Text) (tokens : List Token)
    (hrespelled : List.Forall₂ Respelled (scan (Rule.table comments) line) tokens) :
    scan (Rule.table comments) (covered tokens) = tokens := by
  have hreadable := readable_scan (Rule.table comments) line
  exact scanFrom_covered (hreadable.respelled hrespelled)

/-- A spelling of two words takes the place of one, behind a quote that stays unclosed. -/
theorem scan_respelled_whileLoop :
    scan (Rule.table false) (covered [⟨.text, ['"']⟩, ⟨.control .whileLoop, "Tant que".toList⟩])
      = [⟨.text, ['"']⟩, ⟨.control .whileLoop, "Tant que".toList⟩] := by
  refine scan_respelled false "\"While".toList _ ?_
  have hscan : scan (Rule.table false) "\"While".toList
      = [⟨.text, ['"']⟩, ⟨.control .whileLoop, "While".toList⟩] := by decide +kernel
  rw [hscan]
  exact .cons (.same _) (.cons (.spelled _ List.mem_cons_self) .nil)

end PseudocodeLexer
