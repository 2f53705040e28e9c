import PseudocodeLexer.Word

/-!
# Vocabularies

A vocabulary is a family of keyword concepts, each with the spellings that are accepted for it: the
one that it is displayed in, which is French, and the others. Whatever its spelling, a keyword
stands for its concept: reading a word goes through the concept, and the spelling survives only in
the text that was read. The words of a vocabulary are tried in a fixed order, which decides between
a phrase and a shorter word that the phrase begins with.
-/

namespace PseudocodeLexer

structure Vocabulary (κ : Type) where
  concepts : List κ
  /-- The spelling in which a concept is displayed. -/
  display : κ → Text
  /-- The other spellings that are accepted for a concept. -/
  others : κ → List Text
  /-- The words to look for, in the order in which they are tried. -/
  words : List Text

namespace Vocabulary

variable {κ : Type}

/-- All spellings that are read as the concept. -/
def accepted (v : Vocabulary κ) (concept : κ) : List Text :=
  v.display concept :: v.others concept

def ofSpelling? (v : Vocabulary κ) (word : Text) : Option κ :=
  v.concepts.find? fun concept => (v.accepted concept).contains word

/-- The keyword that starts the input as a whole word: its concept, the spelling found and the
rest of the input. -/
def keyword? (v : Vocabulary κ) (input : Text) : Option (κ × Text × Text) :=
  match wholeWord? v.words input with
  | none => none
  | some (word, rest) =>
      match v.ofSpelling? word with
      | none => none
      | some concept => some (concept, word, rest)

theorem wholeWord?_of_keyword? {v : Vocabulary κ} {input word rest : Text} {concept : κ}
    (h : v.keyword? input = some (concept, word, rest)) :
    wholeWord? v.words input = some (word, rest) := by
  unfold keyword? at h
  split at h
  · simp at h
  · rename_i w r hword
    split at h
    · simp at h
    · simp only [Option.some.injEq, Prod.mk.injEq] at h
      rw [hword, h.2.1, h.2.2]

theorem keyword?_cut {v : Vocabulary κ} {input word rest : Text} {concept : κ}
    (hwords : [] ∉ v.words) (h : v.keyword? input = some (concept, word, rest)) :
    Text.Cut input word rest := by
  have hword := wholeWord?_of_keyword? h
  refine ⟨wholeWord?_append hword, ?_⟩
  rintro rfl
  exact hwords (wholeWord?_mem hword)

end Vocabulary

end PseudocodeLexer
