import Mathlib.Data.List.Find
import PseudocodeLexer.Proofs.Identifier
import PseudocodeLexer.Proofs.Opening

/-!
# Words

Where a word begins, the scanner takes a keyword if one stands there as a whole word, and otherwise
an identifier; the kind of the token follows from its lexeme alone (`nextToken?_word`). What comes
behind a word decides whether it is taken by three conditions only, which `WordStops` collects: no
word character follows at once, no phrase of the vocabularies begins with the word and goes on
behind it, and an identifier is not continued across apostrophes (`wordLexeme?_iff`).
-/

namespace PseudocodeLexer

open Text

/-! ## Whole words -/

/-- Whether the word stands at the start of the input with no word character behind it. -/
def standsAt (word input : Text) : Bool :=
  match behind? word input with
  | some rest => !startsWithWordChar rest
  | none => false

theorem standsAt_iff {word input : Text} :
    standsAt word input = true ↔
      ∃ rest, word ++ rest = input ∧ startsWithWordChar rest = false := by
  unfold standsAt
  constructor
  · intro h
    cases hbehind : behind? word input with
    | none => simp [hbehind] at h
    | some rest => exact ⟨rest, append_of_behind? hbehind, by simpa [hbehind] using h⟩
  · rintro ⟨rest, rfl, hrest⟩
    simp [behind?_append, hrest]

theorem standsAt_self (word : Text) {rest : Text} (h : startsWithWordChar rest = false) :
    standsAt word (word ++ rest) = true :=
  standsAt_iff.mpr ⟨rest, rfl, h⟩

/-- A word stands in front of two texts if it stands in the first alone, or if it goes on into the
second. -/
theorem standsAt_append {word s t : Text} (ht : startsWithWordChar t = false) :
    standsAt word (s ++ t) = true ↔
      standsAt word s = true ∨ ∃ tail, tail ≠ [] ∧ s ++ tail = word ∧ standsAt tail t = true := by
  rw [standsAt_iff]
  constructor
  · rintro ⟨rest, happend, hrest⟩
    rcases List.append_eq_append_iff.mp happend with ⟨tail, rfl, rfl⟩ | ⟨tail, rfl, rfl⟩
    · refine Or.inl (standsAt_iff.mpr ⟨tail, rfl, ?_⟩)
      by_cases htail : tail = []
      · subst tail
        rfl
      · rwa [startsWithWordChar_append htail] at hrest
    · by_cases htail : tail = []
      · subst tail
        exact Or.inl (standsAt_iff.mpr ⟨[], by simp, rfl⟩)
      · exact Or.inr ⟨tail, htail, rfl, standsAt_self tail hrest⟩
  · rintro (hword | ⟨tail, -, rfl, htail⟩)
    · obtain ⟨rest, rfl, hrest⟩ := standsAt_iff.mp hword
      refine ⟨rest ++ t, by simp, ?_⟩
      by_cases hempty : rest = []
      · subst rest
        exact ht
      · rwa [startsWithWordChar_append hempty]
    · obtain ⟨rest, rfl, hrest⟩ := standsAt_iff.mp htail
      exact ⟨rest, by simp, hrest⟩

theorem wholeWord?_eq_find? (words : List Text) (input : Text) :
    wholeWord? words input
      = (words.find? (standsAt · input)).map fun word => (word, input.drop word.length) := by
  unfold wholeWord?
  induction words with
  | nil => rfl
  | cons word words ih =>
      rw [List.findSome?_cons, List.find?_cons, ih]
      unfold standsAt
      cases hbehind : behind? word input with
      | none => simp
      | some rest =>
          cases hrest : startsWithWordChar rest with
          | true => simp [hrest]
          | false => simp [hrest, ← append_of_behind? hbehind]

theorem wholeWord?_eq_some_iff {words : List Text} {input word rest : Text} :
    wholeWord? words input = some (word, rest) ↔
      words.find? (standsAt · input) = some word ∧ word ++ rest = input := by
  rw [wholeWord?_eq_find?, Option.map_eq_some_iff]
  constructor
  · rintro ⟨found, hfind, heq⟩
    cases heq
    have hstands := List.find?_some hfind
    obtain ⟨rest, happend, -⟩ := standsAt_iff.mp hstands
    exact ⟨hfind, by rw [← happend, List.drop_left]⟩
  · rintro ⟨hfind, rfl⟩
    exact ⟨word, hfind, by rw [List.drop_left]⟩

theorem wholeWord?_eq_none_iff {words : List Text} {input : Text} :
    wholeWord? words input = none ↔ ∀ word ∈ words, standsAt word input = false := by
  rw [wholeWord?_eq_find?, Option.map_eq_none_iff, List.find?_eq_none]
  simp

theorem wholeWord?_append_words (words₁ words₂ : List Text) (input : Text) :
    wholeWord? (words₁ ++ words₂) input
      = (wholeWord? words₁ input).or (wholeWord? words₂ input) := by
  unfold wholeWord?
  exact List.findSome?_append

/-! ## The three vocabularies together -/

/-- The words of all vocabularies, in the order in which they are tried. -/
def keywordWords : List Text :=
  ControlKeyword.words ++ IoKeyword.words ++ TypeKeyword.words

/-- The kind that the vocabularies give to a spelling. -/
def keywordKind? (word : Text) : Option Kind :=
  ((ControlKeyword.vocabulary.ofSpelling? word).map .control).or
    (((IoKeyword.vocabulary.ofSpelling? word).map .io).or
      ((TypeKeyword.vocabulary.ofSpelling? word).map .dataType))

/-- A word is a keyword if it is spelled as one, and otherwise an identifier. -/
def wordToken (lexeme : Text) : Token :=
  ⟨(keywordKind? lexeme).getD .identifier, lexeme⟩

/-- The classes of words. -/
def TokenClass.words : List TokenClass :=
  [.controlKeyword, .ioKeyword, .typeKeyword, .identifier]

theorem tokenClass_wordToken (lexeme : Text) :
    (wordToken lexeme).tokenClass ∈ TokenClass.words := by
  unfold wordToken keywordKind?
  cases ControlKeyword.vocabulary.ofSpelling? lexeme with
  | some keyword => exact List.mem_cons_self
  | none =>
      cases IoKeyword.vocabulary.ofSpelling? lexeme with
      | some keyword => exact List.mem_of_elem_eq_true rfl
      | none =>
          cases TypeKeyword.vocabulary.ofSpelling? lexeme <;>
            exact List.mem_of_elem_eq_true rfl

/-- What the scanner takes where a word begins. -/
def wordLexeme? (input : Text) : Option (Text × Text) :=
  (wholeWord? keywordWords input).or (identifier? input)

/-- Each vocabulary tells its own words, and the other two do not know them. -/
theorem keywordKind?_words :
    (∀ word ∈ ControlKeyword.words, ∃ keyword, ControlKeyword.vocabulary.ofSpelling? word
      = some keyword ∧ keywordKind? word = some (.control keyword)) ∧
    (∀ word ∈ IoKeyword.words, ∃ keyword, IoKeyword.vocabulary.ofSpelling? word
      = some keyword ∧ keywordKind? word = some (.io keyword)) ∧
    (∀ word ∈ TypeKeyword.words, ∃ keyword, TypeKeyword.vocabulary.ofSpelling? word
      = some keyword ∧ keywordKind? word = some (.dataType keyword)) := by
  decide +kernel

theorem Vocabulary.mem_accepted_of_ofSpelling? {κ : Type} {v : Vocabulary κ} {word : Text}
    {keyword : κ} (h : v.ofSpelling? word = some keyword) : word ∈ v.accepted keyword := by
  have hspelling := List.find?_some h
  exact List.contains_iff_mem.mp hspelling

/-- A text that is none of the words has no kind. -/
theorem keywordKind?_eq_none {word : Text} (h : word ∉ keywordWords) :
    keywordKind? word = none := by
  simp only [keywordWords, List.mem_append, not_or] at h
  obtain ⟨⟨hcontrol, hio⟩, htype⟩ := h
  have hnone {κ : Type} {v : Vocabulary κ}
      (hv : ∀ keyword ∈ v.concepts, ∀ word ∈ v.accepted keyword, word ∈ v.words)
      (hword : word ∉ v.words) : v.ofSpelling? word = none := by
    cases hkeyword : v.ofSpelling? word with
    | none => rfl
    | some keyword =>
        have hconcept := List.mem_of_find?_eq_some hkeyword
        have hspelling := Vocabulary.mem_accepted_of_ofSpelling? hkeyword
        exact absurd (hv keyword hconcept word hspelling) hword
  unfold keywordKind?
  rw [hnone (v := ControlKeyword.vocabulary) (by decide +kernel) hcontrol,
    hnone (v := IoKeyword.vocabulary) (by decide +kernel) hio,
    hnone (v := TypeKeyword.vocabulary) (by decide +kernel) htype]
  rfl

/-- A vocabulary rule finds the first of its words, with the kind that belongs to it. -/
private theorem keywordRule?_eq {κ : Type} {v : Vocabulary κ} {make : κ → Kind}
    (hwords : ∀ word ∈ v.words, ∃ keyword, v.ofSpelling? word = some keyword ∧
      keywordKind? word = some (make keyword)) (input : Text) :
    ((v.keyword? input).map fun (keyword, split) => Rule.ofKind (make keyword) split)
      = (wholeWord? v.words input).map fun (word, rest) =>
          ((wordToken word).kind, word, rest) := by
  unfold Vocabulary.keyword?
  cases hword : wholeWord? v.words input with
  | none => rfl
  | some split =>
      obtain ⟨word, rest⟩ := split
      obtain ⟨keyword, hkeyword, hkind⟩ := hwords word (wholeWord?_mem hword)
      simp [hkeyword, hkind, wordToken, Rule.ofKind]

/-- An identifier taken where no keyword stands is not spelled as one. -/
theorem not_mem_keywordWords_of_identifier? {input lexeme rest : Text}
    (hnone : wholeWord? keywordWords input = none)
    (h : identifier? input = some (lexeme, rest)) : lexeme ∉ keywordWords := by
  obtain ⟨rfl, -, hrest⟩ := identifier?_eq_some_iff.mp h
  intro hmem
  have hstands := standsAt_self lexeme hrest.not_startsWithWordChar
  rw [wholeWord?_eq_none_iff.mp hnone lexeme hmem] at hstands
  exact Bool.noConfusion hstands

private theorem firstMatch?_word {comments : Bool} {c : Char} {input : Text}
    (hstart : isIdentifierStart c = true) :
    firstMatch? (Rule.table comments) false (c :: input)
      = (wordLexeme? (c :: input)).map fun (lexeme, rest) =>
          ((wordToken lexeme).kind, lexeme, rest) := by
  obtain ⟨hcontrol, hio, htype⟩ := keywordKind?_words
  rw [firstMatch?_cons, candidates_of_isIdentifierStart hstart]
  simp only [List.findSome?_cons, List.findSome?_nil, Rule.recognize?,
    keywordRule?_eq (v := ControlKeyword.vocabulary) hcontrol,
    keywordRule?_eq (v := IoKeyword.vocabulary) hio,
    keywordRule?_eq (v := TypeKeyword.vocabulary) htype]
  have hwords : wholeWord? keywordWords (c :: input)
      = ((wholeWord? ControlKeyword.vocabulary.words (c :: input)).or
          (wholeWord? IoKeyword.vocabulary.words (c :: input))).or
            (wholeWord? TypeKeyword.vocabulary.words (c :: input)) := by
    rw [keywordWords, wholeWord?_append_words, wholeWord?_append_words]
    rfl
  -- One case for each vocabulary that may be the first to find a word.
  unfold wordLexeme?
  cases hword₁ : wholeWord? ControlKeyword.vocabulary.words (c :: input) with
  | some split => simp [hwords, hword₁]
  | none =>
      cases hword₂ : wholeWord? IoKeyword.vocabulary.words (c :: input) with
      | some split => simp [hwords, hword₁, hword₂]
      | none =>
          cases hword₃ : wholeWord? TypeKeyword.vocabulary.words (c :: input) with
          | some split => simp [hwords, hword₁, hword₂, hword₃]
          | none =>
              rw [hword₁, hword₂, hword₃] at hwords
              cases hid : identifier? (c :: input) with
              | none => simp [hwords]
              | some split =>
                  have hnew := not_mem_keywordWords_of_identifier? hwords hid
                  simp [hwords, wordToken, keywordKind?_eq_none hnew, Rule.ofKind]

/-- Where a word begins, the next token is the word taken there, of the kind of its spelling. -/
theorem nextToken?_word {comments : Bool} {c : Char} {input : Text}
    (hstart : isIdentifierStart c = true) :
    nextToken? (Rule.table comments) false (c :: input)
      = (wordLexeme? (c :: input)).map fun (lexeme, rest) => (wordToken lexeme, rest) := by
  have htaken : (wordLexeme? (c :: input)).isSome = true := by
    simp [wordLexeme?, identifier?, hstart]
  simp only [nextToken?, firstMatch?_word hstart]
  cases hword : wordLexeme? (c :: input) with
  | none => simp [hword] at htaken
  | some split => rfl

theorem keywordWords_open : OpenAsIdentifiers keywordWords := by
  intro word hmem
  rcases List.mem_append.mp hmem with hmem | hmem
  · rcases List.mem_append.mp hmem with hmem | hmem
    · exact ControlKeyword.words_open word hmem
    · exact IoKeyword.words_open word hmem
  · exact TypeKeyword.words_open word hmem

theorem endsWithWordChar_of_mem_keywordWords :
    ∀ word ∈ keywordWords, endsWithWordChar word = true := by
  decide +kernel

/-! ## Where words stop -/

/-- A phrase of the vocabularies begins with the word and goes on in what follows. -/
def PhraseGoesOn (lexeme rest : Text) : Prop :=
  ∃ tail, tail ≠ [] ∧ lexeme ++ tail ∈ keywordWords ∧ standsAt tail rest = true

/-- What follows lets a word stop where it stops. -/
structure WordStops (lexeme rest : Text) : Prop where
  wordEnd : startsWithWordChar rest = false
  phraseEnd : ¬ PhraseGoesOn lexeme rest
  identifierEnd : lexeme ∉ keywordWords → EndsIdentifier rest

/-- Whether the second word is the first with a character behind it that is no word character. -/
def extends? (word phrase : Text) : Bool :=
  match behind? word phrase with
  | some (c :: _) => !isWordChar c
  | _ => false

theorem extends?_append {word tail rest : Text} (htail : tail ≠ [])
    (hstands : standsAt tail rest = true) (hrest : startsWithWordChar rest = false) :
    extends? word (word ++ tail) = true := by
  obtain ⟨after, rfl, -⟩ := standsAt_iff.mp hstands
  cases tail with
  | nil => exact absurd rfl htail
  | cons c tail =>
      have hc : isWordChar c = false := hrest
      simp [extends?, behind?_append, hc]

/-- Of two words at one place the longer is a phrase that begins with the other. -/
theorem extends?_of_standsAt {word phrase input : Text} (hword : standsAt word input = true)
    (hphrase : standsAt phrase input = true) (hlength : word.length < phrase.length) :
    extends? word phrase = true := by
  obtain ⟨rest, rfl, hrest⟩ := standsAt_iff.mp hword
  rcases (standsAt_append hrest).mp hphrase with hwithin | ⟨tail, htail, rfl, hstands⟩
  · obtain ⟨after, rfl, -⟩ := standsAt_iff.mp hwithin
    rw [List.length_append] at hlength
    omega
  · exact extends?_append htail hstands hrest

/-- Words of which neither is a phrase that begins with the other do not stand at one place. -/
theorem eq_of_standsAt {word word' input : Text} (hword : standsAt word input = true)
    (hword' : standsAt word' input = true) (hextends : extends? word word' = false)
    (hextends' : extends? word' word = false) : word = word' := by
  rcases Nat.lt_trichotomy word.length word'.length with hless | hsame | hmore
  · rw [extends?_of_standsAt hword hword' hless] at hextends
    exact Bool.noConfusion hextends
  · obtain ⟨rest, rfl, -⟩ := standsAt_iff.mp hword
    obtain ⟨rest', happend, -⟩ := standsAt_iff.mp hword'
    exact (List.append_inj_left happend hsame.symm).symm
  · rw [extends?_of_standsAt hword' hword hmore] at hextends'
    exact Bool.noConfusion hextends'

/-- No word is tried before a phrase that begins with it. -/
def PhrasesFirst (words : List Text) : Prop :=
  words.Pairwise fun earlier later => extends? earlier later = false

theorem phrasesFirst_keywordWords : PhrasesFirst keywordWords := by
  unfold PhrasesFirst
  decide +kernel

/-- The word found is the longest of those at its place if phrases are tried first. -/
theorem PhrasesFirst.length_le_of_find? {words : List Text} {input word other : Text}
    (hfirst : PhrasesFirst words) (hfind : words.find? (standsAt · input) = some word)
    (hmem : other ∈ words) (hstands : standsAt other input = true) :
    other.length ≤ word.length := by
  obtain ⟨hword, earlier, later, rfl, hearlier⟩ := List.find?_eq_some_iff_append.mp hfind
  -- A word tried earlier would have been found, and no longer one is tried later.
  rcases List.mem_append.mp hmem with hmem | hmem
  · have := hearlier _ hmem
    simp [hstands] at this
  · rcases List.mem_cons.mp hmem with rfl | hmem
    · exact Nat.le_refl _
    · have hlater := (List.pairwise_append.mp hfirst).2.1
      have hnot := (List.pairwise_cons.mp hlater).1 _ hmem
      by_contra hlonger
      rw [extends?_of_standsAt hword hstands (Nat.lt_of_not_le hlonger)] at hnot
      exact Bool.noConfusion hnot

/-- The keyword found is the longest: no phrase goes on behind it. -/
theorem not_phraseGoesOn_of_find? {lexeme rest : Text} (hrest : startsWithWordChar rest = false)
    (hfind : keywordWords.find? (standsAt · (lexeme ++ rest)) = some lexeme) :
    ¬ PhraseGoesOn lexeme rest := by
  rintro ⟨tail, htail, hmem, hstands⟩
  have hphrase : standsAt (lexeme ++ tail) (lexeme ++ rest) = true :=
    (standsAt_append hrest).mpr (Or.inr ⟨tail, htail, rfl, hstands⟩)
  have hlength := phrasesFirst_keywordWords.length_le_of_find? hfind hmem hphrase
  have hpos := List.length_pos_iff.mpr htail
  rw [List.length_append] at hlength
  omega

/-- A rest that lets the word stop adds nothing to the keywords that stand in the word. -/
theorem WordStops.standsAt_eq {lexeme rest word : Text} (h : WordStops lexeme rest)
    (hmem : word ∈ keywordWords) : standsAt word (lexeme ++ rest) = standsAt word lexeme := by
  rw [Bool.eq_iff_iff, standsAt_append h.wordEnd]
  constructor
  · rintro (hstands | ⟨tail, htail, rfl, hstands⟩)
    · exact hstands
    · exact absurd ⟨tail, htail, hmem, hstands⟩ h.phraseEnd
  · exact Or.inl

theorem WordStops.find?_eq {lexeme rest : Text} (h : WordStops lexeme rest) :
    keywordWords.find? (standsAt · (lexeme ++ rest)) = keywordWords.find? (standsAt · lexeme) :=
  List.find?_congr fun _ hmem => h.standsAt_eq hmem

/-- The rest behind a word that was taken lets it stop. -/
theorem wordStops_of_wordLexeme? {lexeme rest : Text}
    (h : wordLexeme? (lexeme ++ rest) = some (lexeme, rest)) : WordStops lexeme rest := by
  unfold wordLexeme? at h
  cases hword : wholeWord? keywordWords (lexeme ++ rest) with
  | some split =>
      rw [hword, Option.some_or] at h
      cases h
      have hfind := (wholeWord?_eq_some_iff.mp hword).1
      have hstands := List.find?_some hfind
      obtain ⟨after, hafter, hend⟩ := standsAt_iff.mp hstands
      rw [List.append_cancel_left hafter] at hend
      exact ⟨hend, not_phraseGoesOn_of_find? hend hfind,
        fun hnot => absurd (List.mem_of_find?_eq_some hfind) hnot⟩
  | none =>
      rw [hword, Option.none_or] at h
      have hends := (identifier?_eq_some_iff.mp h).2.2
      refine ⟨hends.not_startsWithWordChar, ?_, fun _ => hends⟩
      rintro ⟨tail, htail, hmem, hstands⟩
      have hphrase := (standsAt_append (s := lexeme) hends.not_startsWithWordChar).mpr
        (Or.inr ⟨tail, htail, rfl, hstands⟩)
      rw [wholeWord?_eq_none_iff.mp hword _ hmem] at hphrase
      exact Bool.noConfusion hphrase

/-- What is taken as a word is a keyword or an identifier. -/
theorem mem_or_isIdentifier_of_wordLexeme? {input lexeme rest : Text}
    (h : wordLexeme? input = some (lexeme, rest)) :
    lexeme ∈ keywordWords ∨ IsIdentifier lexeme := by
  rcases Option.or_eq_some_iff.mp h with hword | ⟨-, hidentifier⟩
  · exact .inl (wholeWord?_mem hword)
  · exact .inr (identifier?_eq_some_iff.mp hidentifier).2.1

/-- A word that is taken in front of one rest is taken exactly in front of those that let it
stop. -/
theorem wordLexeme?_iff {lexeme rest rest' : Text}
    (h : wordLexeme? (lexeme ++ rest) = some (lexeme, rest)) :
    wordLexeme? (lexeme ++ rest') = some (lexeme, rest') ↔ WordStops lexeme rest' := by
  refine ⟨wordStops_of_wordLexeme?, ?_⟩
  intro hstops
  -- Nothing that stands in front of one rest fails in front of the other.
  have hsame : keywordWords.find? (standsAt · (lexeme ++ rest'))
      = keywordWords.find? (standsAt · (lexeme ++ rest)) := by
    rw [hstops.find?_eq, (wordStops_of_wordLexeme? h).find?_eq]
  unfold wordLexeme? at h ⊢
  cases hword : wholeWord? keywordWords (lexeme ++ rest) with
  | some split =>
      rw [hword, Option.some_or] at h
      cases h
      rw [(wholeWord?_eq_some_iff.mp hword).1] at hsame
      rw [wholeWord?_eq_some_iff.mpr ⟨hsame, rfl⟩, Option.some_or]
  | none =>
      rw [hword, Option.none_or] at h
      have hnew := not_mem_keywordWords_of_identifier? hword h
      have hlexeme := (identifier?_eq_some_iff.mp h).2.1
      have hword' : wholeWord? keywordWords (lexeme ++ rest') = none := by
        rw [wholeWord?_eq_find?, Option.map_eq_none_iff] at hword ⊢
        rw [hsame, hword]
      rw [hword', Option.none_or]
      exact identifier?_eq_some_iff.mpr ⟨rfl, hlexeme, hstops.identifierEnd hnew⟩

end PseudocodeLexer
