import PseudocodeLexer.Proofs.WholeWord

/-!
# Phrases

Two keywords are phrases of two words with a single space between them. A word that stops in front
of a text stops there unless it is the first word of a phrase and the second one stands behind a
space (`PhraseGoesOn.exists_phraseTail`). Which word goes with which is `phrase_mem_iff`. The second
words are identifiers on their own, and no keyword begins like one of them (`phraseTails_spec`).
-/

namespace PseudocodeLexer

open Text

/-- What stands behind the blank of a phrase. -/
def phraseTails : List Text :=
  ["que".toList, "d'entier".toList]

/-- The only phrases that begin with a word are of two words with a blank between them. -/
private theorem phrase_splits : ∀ phrase ∈ keywordWords, ∀ n < phrase.length,
    startsWithWordChar (phrase.drop n) = false →
      (∃ name ∈ phraseTails, phrase.drop n = ' ' :: name) ∨
        (phrase.take n ∉ keywordWords ∧ ' ' ∈ phrase.take n) := by
  decide +kernel

theorem exists_phraseTail {lexeme tail : Text} (hword : lexeme ∈ keywordWords ∨ IsIdentifier lexeme)
    (htail : tail ≠ []) (hphrase : lexeme ++ tail ∈ keywordWords)
    (hstart : startsWithWordChar tail = false) : ∃ name ∈ phraseTails, tail = ' ' :: name := by
  have hlength : lexeme.length < (lexeme ++ tail).length := by
    have := List.length_pos_iff.mpr htail
    rw [List.length_append]
    omega
  have hsplit := phrase_splits _ hphrase lexeme.length hlength
  rw [List.drop_left, List.take_left] at hsplit
  rcases hsplit hstart with hname | ⟨hnew, hblank⟩
  · exact hname
  · rcases hword with hmem | hidentifier
    · exact absurd hmem hnew
    · exact absurd (hidentifier.continues ' ' hblank) (by decide)

/-- Behind a word a phrase goes on with a space and its second word. -/
theorem PhraseGoesOn.exists_phraseTail {lexeme rest : Text}
    (hword : lexeme ∈ keywordWords ∨ IsIdentifier lexeme)
    (hrest : startsWithWordChar rest = false) (h : PhraseGoesOn lexeme rest) :
    ∃ name ∈ phraseTails, lexeme ++ ' ' :: name ∈ keywordWords ∧
      standsAt (' ' :: name) rest = true := by
  obtain ⟨tail, htail, hphrase, hstands⟩ := h
  have hstart : startsWithWordChar tail = false := by
    obtain ⟨after, happend, -⟩ := standsAt_iff.mp hstands
    rwa [← happend, startsWithWordChar_append htail] at hrest
  obtain ⟨name, hname, rfl⟩ := PseudocodeLexer.exists_phraseTail hword htail hphrase hstart
  exact ⟨name, hname, hphrase, hstands⟩

/-- The words of the two phrases. -/
private theorem phrase_words : ∀ phrase ∈ keywordWords, ∀ name ∈ phraseTails,
    ∀ n ≤ phrase.length, phrase.drop n = ' ' :: name →
      (phrase.take n = "Tant".toList ∧ name = "que".toList) ∨
        (phrase.take n = "tableau".toList ∧ name = "d'entier".toList) := by
  decide +kernel

theorem phrase_mem_iff {first name : Text} (hname : name ∈ phraseTails) :
    first ++ ' ' :: name ∈ keywordWords ↔
      (first = "Tant".toList ∧ name = "que".toList) ∨
        (first = "tableau".toList ∧ name = "d'entier".toList) := by
  constructor
  · intro hphrase
    have hwords := phrase_words _ hphrase name hname first.length (by simp)
    rw [List.drop_left, List.take_left] at hwords
    exact hwords rfl
  · rintro (⟨rfl, rfl⟩ | ⟨rfl, rfl⟩) <;> decide +kernel

theorem phraseTails_spec : ∀ name ∈ phraseTails,
    identifier? name = some (name, []) ∧ ∀ word ∈ keywordWords, word.head? ≠ name.head? := by
  decide +kernel

theorem isIdentifier_of_mem_phraseTails {name : Text} (h : name ∈ phraseTails) :
    IsIdentifier name :=
  (identifier?_eq_some_iff.mp (phraseTails_spec name h).1).2.1

end PseudocodeLexer
