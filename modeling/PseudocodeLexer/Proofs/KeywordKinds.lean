import PseudocodeLexer.Proofs.Respelling

/-!
# Keywords by their spellings

The kind of a scanned token and its lexeme say the same about keywords: a token stands for a concept
exactly if it is written in one of the spellings of that concept (`scan_keyword_iff`). One direction
is that the words which are tried all belong to a concept, so that none is found in vain
(`Vocabulary.map_keyword?_eq`). The other is that a spelling is never read as anything else: it
begins like a name and has more than one character, and what does is read as a word
(`Reads.eq_wordToken`), whose kind depends on its spelling alone.
-/

namespace PseudocodeLexer

open Text

/-! ## From a spelling to its concept -/

/-- If the vocabulary knows a concept for each word that is tried, every word found is a keyword. -/
theorem Vocabulary.map_keyword?_eq {κ : Type} {v : Vocabulary κ} {make : κ → Kind}
    (hwords : ∀ word ∈ v.words, ∃ keyword, v.ofSpelling? word = some keyword ∧
      keywordKind? word = some (make keyword)) (input : Text) :
    (v.keyword? input).map Prod.snd = wholeWord? v.words input := by
  unfold Vocabulary.keyword?
  cases hword : wholeWord? v.words input with
  | none => rfl
  | some split =>
      obtain ⟨word, rest⟩ := split
      obtain ⟨keyword, hkeyword, -⟩ := hwords word (wholeWord?_mem hword)
      simp [hkeyword]

/-! ## From a lexeme to its kind -/

/-- Every word of the vocabularies is longer than a single character. -/
theorem exists_two_of_mem_keywordWords {word : Text} (h : word ∈ keywordWords) :
    ∃ c d tail, word = c :: d :: tail ∧ isIdentifierStart c = true := by
  have hlength : ∀ word ∈ keywordWords, 1 < word.length := by decide +kernel
  obtain ⟨c, tail, rfl, hstart⟩ := keywordWords_open.exists_cons h
  cases tail with
  | nil => exact absurd (hlength _ h) (by simp)
  | cons d tail => exact ⟨c, d, tail, rfl, hstart⟩

section

variable {comments afterWord : Bool} {token : Token} {rest : Text}

/-- A token that begins like a name and is longer than one character is read as a word. -/
theorem Reads.eq_wordToken {c d : Char} {tail : Text}
    (h : Reads (Rule.table comments) afterWord token rest) (hlexeme : token.lexeme = c :: d :: tail)
    (hstart : isIdentifierStart c = true) : token = wordToken token.lexeme := by
  unfold Reads at h
  rw [hlexeme, List.cons_append] at h
  cases afterWord with
  | true =>
      -- Inside a run of word characters only single characters are read.
      rw [nextToken?_inside _ (isWordChar_of_isIdentifierStart hstart)] at h
      obtain ⟨rfl, -⟩ := Prod.mk.inj (Option.some.inj h)
      cases hlexeme
  | false =>
      rw [nextToken?_word hstart] at h
      obtain ⟨⟨lexeme, after⟩, -, heq⟩ := Option.map_eq_some_iff.mp h
      cases heq
      rfl

/-- What is written in a spelling of a concept is read as that concept. -/
theorem Reads.kind_of_mem_spellings {kind : Kind}
    (h : Reads (Rule.table comments) afterWord token rest) (hmem : token.lexeme ∈ kind.spellings) :
    token.kind = kind := by
  obtain ⟨hword, -, htoken⟩ := kind.spellings_spec _ hmem
  obtain ⟨c, d, tail, hlexeme, hstart⟩ := exists_two_of_mem_keywordWords hword
  rw [h.eq_wordToken hlexeme hstart, htoken]

/-- A kind that has spellings is read off them and off nothing else. -/
theorem Reads.kind_eq_iff {kind : Kind} (h : Reads (Rule.table comments) afterWord token rest)
    (hkind : kind.spellings ≠ []) : token.kind = kind ↔ token.lexeme ∈ kind.spellings := by
  constructor
  · rintro rfl
    obtain ⟨spelling, hspelling⟩ := List.exists_mem_of_ne_nil _ hkind
    exact (h.reading.mem_spellings hspelling).2.1
  · exact h.kind_of_mem_spellings

end

theorem ControlKeyword.spellings_ne_nil (keyword : ControlKeyword) :
    (Kind.control keyword).spellings ≠ [] := by
  cases keyword <;> exact List.cons_ne_nil _ _

theorem IoKeyword.spellings_ne_nil (keyword : IoKeyword) : (Kind.io keyword).spellings ≠ [] :=
  List.cons_ne_nil _ _

theorem TypeKeyword.spellings_ne_nil (keyword : TypeKeyword) :
    (Kind.dataType keyword).spellings ≠ [] :=
  List.cons_ne_nil _ _

/-- **Keywords are known by their spellings.** On every line the tokens of a keyword concept are
those that are written in one of its spellings, and no identifier is written like a keyword. Of the
words that the rules for keywords find on any text, none is lost for want of a concept. -/
theorem scan_keyword_iff (comments : Bool) (line : Text) :
    (∀ token ∈ scan (Rule.table comments) line,
      (∀ keyword, token.kind = .control keyword ↔
        token.lexeme ∈ ControlKeyword.spellings keyword) ∧
      (∀ keyword, token.kind = .io keyword ↔
        token.lexeme = IoKeyword.french keyword ∨
          token.lexeme = IoKeyword.english keyword) ∧
      (∀ keyword, token.kind = .dataType keyword ↔
        token.lexeme ∈ TypeKeyword.vocabulary.accepted keyword) ∧
      (token.kind = .identifier → ∀ kind : Kind, token.lexeme ∉ kind.spellings)) ∧
    (∀ input,
      (ControlKeyword.vocabulary.keyword? input).map Prod.snd
          = wholeWord? ControlKeyword.words input ∧
        (IoKeyword.vocabulary.keyword? input).map Prod.snd = wholeWord? IoKeyword.words input ∧
        (TypeKeyword.vocabulary.keyword? input).map Prod.snd
          = wholeWord? TypeKeyword.words input) := by
  constructor
  · intro token hmem
    have hreadable := readable_scan (Rule.table comments) line
    obtain ⟨tokens₁, tokens₂, hsplit⟩ := List.append_of_mem hmem
    rw [hsplit] at hreadable
    have hreads := hreadable.reads
    refine ⟨?_, ?_, ?_, ?_⟩
    · intro keyword
      exact hreads.kind_eq_iff keyword.spellings_ne_nil
    · intro keyword
      rw [← List.mem_pair]
      exact hreads.kind_eq_iff keyword.spellings_ne_nil
    · intro keyword
      exact hreads.kind_eq_iff keyword.spellings_ne_nil
    · intro hidentifier kind hspelling
      have hkind := hreads.kind_of_mem_spellings hspelling
      rw [hidentifier] at hkind
      subst hkind
      cases hspelling
  · intro input
    obtain ⟨hcontrol, hio, htype⟩ := keywordKind?_words
    exact ⟨Vocabulary.map_keyword?_eq (v := ControlKeyword.vocabulary) hcontrol input,
      Vocabulary.map_keyword?_eq (v := IoKeyword.vocabulary) hio input,
      Vocabulary.map_keyword?_eq (v := TypeKeyword.vocabulary) htype input⟩

end PseudocodeLexer
