import PseudocodeLexer.Proofs.WholeWord

/-!
# The longest word

Several words of a list fit one place only if one of them is a phrase that begins with another and
goes on with a character that is no word character (`BeginsPhrase`). Without such phrases the order
of the list does not matter at all, and with one it does (`phraseFree_iff_perm`). A list that tries
phrases first finds the longest of the words that fit (`PhrasesFirst.wholeWord?_eq_some_iff`). The
vocabularies are such lists, with a single phrase among them that begins with another word.
-/

namespace PseudocodeLexer

open Text

/-! ## Phrases of a list -/

/-- The phrase is the word, a character that is no word character, and any further text. -/
def BeginsPhrase (word phrase : Text) : Prop :=
  ∃ c further, isWordChar c = false ∧ phrase = word ++ c :: further

theorem extends?_eq_true_iff {word phrase : Text} :
    extends? word phrase = true ↔ BeginsPhrase word phrase := by
  constructor
  · intro h
    unfold extends? at h
    split at h
    · rename_i c further hbehind
      exact ⟨c, further, by simpa using h, (append_of_behind? hbehind).symm⟩
    · cases h
  · rintro ⟨c, further, hc, rfl⟩
    simp [extends?, behind?_append, hc]

instance (word phrase : Text) : Decidable (BeginsPhrase word phrase) :=
  decidable_of_iff (extends? word phrase = true) extends?_eq_true_iff

theorem BeginsPhrase.ne {word phrase : Text} (h : BeginsPhrase word phrase) : word ≠ phrase := by
  obtain ⟨c, further, -, rfl⟩ := h
  simp

/-- No word of the list begins a phrase of the list. -/
def PhraseFree (words : List Text) : Prop :=
  ∀ word ∈ words, ∀ phrase ∈ words, ¬ BeginsPhrase word phrase

instance (words : List Text) : Decidable (PhraseFree words) :=
  inferInstanceAs (Decidable (∀ word ∈ words, ∀ phrase ∈ words, ¬ BeginsPhrase word phrase))

/-! ## Words that fit -/

/-- One of the words begins the input, and the rest goes on with no word character. -/
structure Fits (words : List Text) (input word rest : Text) : Prop where
  mem : word ∈ words
  append : word ++ rest = input
  wordEnd : startsWithWordChar rest = false

/-- No word of the list that fits is longer. -/
structure FitsLongest (words : List Text) (input word rest : Text) : Prop
    extends Fits words input word rest where
  longest : ∀ other rest', Fits words input other rest' → other.length ≤ word.length

section

variable {words words' : List Text} {input word rest word' rest' : Text}

theorem Fits.standsAt (h : Fits words input word rest) : standsAt word input = true :=
  standsAt_iff.mpr ⟨rest, h.append, h.wordEnd⟩

theorem fits_self (hmem : word ∈ words) : Fits words word word [] :=
  ⟨hmem, List.append_nil word, rfl⟩

theorem BeginsPhrase.exists_fits {phrase : Text} (h : BeginsPhrase word phrase)
    (hmem : word ∈ words) : ∃ rest, Fits words phrase word rest := by
  obtain ⟨c, further, hc, rfl⟩ := h
  exact ⟨c :: further, hmem, rfl, hc⟩

theorem fits_iff_of_perm (hperm : words'.Perm words) :
    Fits words' input word rest ↔ Fits words input word rest :=
  ⟨fun h => ⟨hperm.mem_iff.mp h.mem, h.append, h.wordEnd⟩,
    fun h => ⟨hperm.mem_iff.mpr h.mem, h.append, h.wordEnd⟩⟩

/-- Which word fits is decided by its length. -/
theorem Fits.unique (h : Fits words input word rest) (h' : Fits words input word' rest')
    (hlength : word.length = word'.length) : word = word' ∧ rest = rest' :=
  List.append_inj (h.append.trans h'.append.symm) hlength

theorem fits_of_wholeWord? (h : wholeWord? words input = some (word, rest)) :
    Fits words input word rest := by
  obtain ⟨hfind, rfl⟩ := wholeWord?_eq_some_iff.mp h
  have hstands := List.find?_some hfind
  obtain ⟨after, hafter, hend⟩ := standsAt_iff.mp hstands
  rw [List.append_cancel_left hafter] at hend
  exact ⟨wholeWord?_mem h, rfl, hend⟩

theorem wholeWord?_eq_none_iff_forall_not_fits :
    wholeWord? words input = none ↔ ∀ word rest, ¬ Fits words input word rest := by
  rw [wholeWord?_eq_none_iff]
  constructor
  · intro hnone word rest hfits
    have hstands := hfits.standsAt
    rw [hnone word hfits.mem] at hstands
    exact Bool.noConfusion hstands
  · intro hnone word hmem
    rw [Bool.eq_false_iff]
    intro hstands
    obtain ⟨rest, happend, hend⟩ := standsAt_iff.mp hstands
    exact hnone word rest ⟨hmem, happend, hend⟩

/-- Some word is found where one fits. -/
theorem Fits.exists_wholeWord? (h : Fits words input word rest) :
    ∃ word' rest', wholeWord? words input = some (word', rest') := by
  cases hfound : wholeWord? words input with
  | none => exact absurd h (wholeWord?_eq_none_iff_forall_not_fits.mp hfound word rest)
  | some split => exact ⟨split.1, split.2, rfl⟩

/-- The word that is tried first is found where it fits. -/
theorem Fits.wholeWord?_cons (h : Fits words input word rest) (others : List Text) :
    wholeWord? (word :: others) input = some (word, rest) :=
  wholeWord?_eq_some_iff.mpr ⟨List.find?_cons_of_pos h.standsAt, h.append⟩

/-! ## Lists without phrases -/

theorem PhraseFree.of_perm (hfree : PhraseFree words) (hperm : words'.Perm words) :
    PhraseFree words' :=
  fun word hword phrase hphrase =>
    hfree word (hperm.mem_iff.mp hword) phrase (hperm.mem_iff.mp hphrase)

theorem PhraseFree.extends?_eq_false (hfree : PhraseFree words) (hword : word ∈ words)
    (hword' : word' ∈ words) : extends? word word' = false := by
  rw [Bool.eq_false_iff]
  intro hextends
  exact hfree word hword word' hword' (extends?_eq_true_iff.mp hextends)

/-- At most one word of the list fits. -/
theorem PhraseFree.eq_of_fits (hfree : PhraseFree words) (h : Fits words input word rest)
    (h' : Fits words input word' rest') : word = word' := by
  apply eq_of_standsAt h.standsAt h'.standsAt
  · exact hfree.extends?_eq_false h.mem h'.mem
  · exact hfree.extends?_eq_false h'.mem h.mem

theorem PhraseFree.wholeWord?_eq_some_iff (hfree : PhraseFree words) :
    wholeWord? words input = some (word, rest) ↔ Fits words input word rest := by
  constructor
  · exact fits_of_wholeWord?
  · intro h
    obtain ⟨word', rest', hfound⟩ := h.exists_wholeWord?
    have h' := fits_of_wholeWord? hfound
    obtain ⟨rfl, rfl⟩ := h.unique h' (congrArg List.length (hfree.eq_of_fits h h'))
    exact hfound

theorem phraseFree_iff_fits :
    PhraseFree words ↔ ∀ input word rest word' rest',
      Fits words input word rest → Fits words input word' rest' → word = word' := by
  constructor
  · intro hfree input word rest word' rest' h h'
    exact hfree.eq_of_fits h h'
  · intro hone word hword phrase hphrase hbegins
    obtain ⟨rest, hfits⟩ := hbegins.exists_fits hword
    exact hbegins.ne (hone phrase word rest phrase [] hfits (fits_self hphrase))

/-- The lists whose order does not matter are those without phrases. -/
theorem phraseFree_iff_perm :
    PhraseFree words ↔ ∀ words' : List Text, words'.Perm words →
      ∀ input, wholeWord? words' input = wholeWord? words input := by
  constructor
  · intro hfree words' hperm input
    apply Option.ext
    rintro ⟨word, rest⟩
    rw [(hfree.of_perm hperm).wholeWord?_eq_some_iff, hfree.wholeWord?_eq_some_iff,
      fits_iff_of_perm hperm]
  · -- At a phrase, both the phrase and the word that begins it are found if they are tried first.
    intro hsame word hword phrase hphrase hbegins
    obtain ⟨rest, hfits⟩ := hbegins.exists_fits hword
    have hfirst := hsame _ (List.perm_cons_erase hword).symm phrase
    have hfirst' := hsame _ (List.perm_cons_erase hphrase).symm phrase
    rw [hfits.wholeWord?_cons] at hfirst
    rw [(fits_self hphrase).wholeWord?_cons, ← hfirst] at hfirst'
    cases hfirst'
    exact hbegins.ne rfl

/-! ## Lists that try phrases first -/

theorem PhrasesFirst.fitsLongest (hfirst : PhrasesFirst words)
    (h : wholeWord? words input = some (word, rest)) : FitsLongest words input word rest := by
  refine ⟨fits_of_wholeWord? h, ?_⟩
  intro other rest' hother
  have hfind := (wholeWord?_eq_some_iff.mp h).1
  exact hfirst.length_le_of_find? hfind hother.mem hother.standsAt

/-- The word found is the longest of those that fit. -/
theorem PhrasesFirst.wholeWord?_eq_some_iff (hfirst : PhrasesFirst words) :
    wholeWord? words input = some (word, rest) ↔ FitsLongest words input word rest := by
  constructor
  · exact hfirst.fitsLongest
  · intro h
    obtain ⟨word', rest', hfound⟩ := h.toFits.exists_wholeWord?
    have h' := hfirst.fitsLongest hfound
    have hlength : word.length = word'.length :=
      Nat.le_antisymm (h'.longest word rest h.toFits) (h.longest word' rest' h'.toFits)
    obtain ⟨rfl, rfl⟩ := h.toFits.unique h'.toFits hlength
    exact hfound

end

/-! ## The vocabularies -/

/-- The words of each vocabulary, in the order in which they are tried. -/
def keywordTables : List (List Text) :=
  [ControlKeyword.words, IoKeyword.words, TypeKeyword.words]

theorem phrasesFirst_of_mem_keywordTables {table : List Text} (h : table ∈ keywordTables) :
    PhrasesFirst table := by
  have htables : keywordTables.flatten = keywordWords := by
    simp [keywordTables, keywordWords]
  have hsublist : table.Sublist keywordWords := htables ▸ List.sublist_flatten_of_mem h
  exact phrasesFirst_keywordWords.sublist hsublist

private theorem eq_of_beginsPhrase_tables : ∀ table ∈ keywordTables, ∀ word ∈ table,
    ∀ phrase ∈ table, BeginsPhrase word phrase →
      table = TypeKeyword.words ∧ word = "tableau".toList ∧ phrase = "tableau d'entier".toList := by
  decide +kernel

/-- Only one word of the vocabularies begins a phrase of its own vocabulary. -/
theorem beginsPhrase_iff {table : List Text} {word phrase : Text} (htable : table ∈ keywordTables) :
    (word ∈ table ∧ phrase ∈ table ∧ BeginsPhrase word phrase) ↔
      (table = TypeKeyword.words ∧ word = "tableau".toList ∧
        phrase = "tableau d'entier".toList) := by
  constructor
  · rintro ⟨hword, hphrase, hbegins⟩
    exact eq_of_beginsPhrase_tables table htable word hword phrase hphrase hbegins
  · rintro ⟨rfl, rfl, rfl⟩
    decide +kernel

/-- **The order of the words matters only for phrases.** The lists of words that can be tried in any
order are those in which no word begins a phrase, and they are those of which at most one word fits
any input. Only one word of the vocabularies begins a phrase of its own vocabulary, and in each of
them the word found is the longest that fits, and none is found exactly where none fits. -/
theorem wholeWord?_order :
    (∀ words : List Text,
      (PhraseFree words ↔ ∀ words' : List Text, words'.Perm words →
        ∀ input, wholeWord? words' input = wholeWord? words input) ∧
      (PhraseFree words ↔ ∀ input word rest word' rest',
        Fits words input word rest → Fits words input word' rest' → word = word')) ∧
    ∀ table ∈ keywordTables,
      (∀ word phrase, (word ∈ table ∧ phrase ∈ table ∧ BeginsPhrase word phrase) ↔
        (table = TypeKeyword.words ∧ word = "tableau".toList ∧
          phrase = "tableau d'entier".toList)) ∧
      ∀ input,
        (∀ word rest, wholeWord? table input = some (word, rest) ↔
          FitsLongest table input word rest) ∧
        (wholeWord? table input = none ↔ ∀ word rest, ¬ Fits table input word rest) := by
  refine ⟨fun words => ⟨phraseFree_iff_perm, phraseFree_iff_fits⟩, ?_⟩
  intro table htable
  have hfirst := phrasesFirst_of_mem_keywordTables htable
  refine ⟨fun word phrase => beginsPhrase_iff htable, fun input => ⟨?_, ?_⟩⟩
  · intro word rest
    exact hfirst.wholeWord?_eq_some_iff
  · exact wholeWord?_eq_none_iff_forall_not_fits

/-- The phrase for arrays is found where it stands as a whole, and otherwise the word it begins
with; the control keywords can be tried backwards. -/
theorem wholeWord?_order_arrays :
    PhraseFree ControlKeyword.words ∧
    wholeWord? ControlKeyword.words.reverse "Sinon x".toList
      = some ("Sinon".toList, " x".toList) ∧
    FitsLongest TypeKeyword.words "tableau d'entier(".toList "tableau d'entier".toList ['('] ∧
    FitsLongest TypeKeyword.words "tableau d'entiers".toList "tableau".toList
      " d'entiers".toList := by
  obtain ⟨horder, htables⟩ := wholeWord?_order
  have hfree : PhraseFree ControlKeyword.words := by decide +kernel
  obtain ⟨-, hlongest⟩ := htables TypeKeyword.words (by decide +kernel)
  refine ⟨hfree, ?_, ?_, ?_⟩
  · rw [(horder ControlKeyword.words).1.mp hfree _ (List.reverse_perm _)]
    decide +kernel
  · apply ((hlongest _).1 _ _).mp
    decide +kernel
  · apply ((hlongest _).1 _ _).mp
    decide +kernel

end PseudocodeLexer
