import PseudocodeLexer.Text.Alphabetic
import PseudocodeLexer.Text.Basic
import PseudocodeLexer.Text.Blank
import PseudocodeLexer.Text.Numeric

/-!
# Words and blanks

Word characters are letters of any script, digits of any kind and the underscore. A fixed word is
recognized only where no word character follows it, so that no word is ever cut in half. An
identifier may hold apostrophes between its word characters but never ends in one. Between words
stand runs of blanks, which are always taken whole.
-/

namespace PseudocodeLexer

open Text

def isWordChar (c : Char) : Bool :=
  isAlphabetic c || isNumeric c || c == '_'

def isIdentifierStart (c : Char) : Bool :=
  isAlphabetic c || c == '_'

/-- Whether a word could go on into this text. -/
def startsWithWordChar : Text → Bool
  | [] => false
  | c :: _ => isWordChar c

/-! ## Fixed words -/

/-- What is left of the input behind a word that it starts with. -/
def behind? : Text → Text → Option Text
  | [], input => some input
  | _ :: _, [] => none
  | c :: word, d :: input => if c = d then behind? word input else none

theorem append_of_behind? {word input rest : Text} (h : behind? word input = some rest) :
    word ++ rest = input := by
  induction word generalizing input with
  | nil => simpa [behind?] using h.symm
  | cons c word ih =>
      cases input with
      | nil => simp [behind?] at h
      | cons d input =>
          simp only [behind?] at h
          split at h
          · rename_i hcd
            rw [List.cons_append, ih h, hcd]
          · simp at h

theorem behind?_append (word rest : Text) : behind? word (word ++ rest) = some rest := by
  induction word with
  | nil => rfl
  | cons c word ih => simp [behind?, ih]

/-- The first of the words that starts the input and is not followed by a word character,
with the rest of the input. -/
def wholeWord? (words : List Text) (input : Text) : Option (Text × Text) :=
  words.findSome? fun word =>
    match behind? word input with
    | some rest => if startsWithWordChar rest then none else some (word, rest)
    | none => none

theorem wholeWord?_mem {words : List Text} {input word rest : Text}
    (h : wholeWord? words input = some (word, rest)) : word ∈ words := by
  obtain ⟨w, hw, hmatch⟩ := List.exists_of_findSome?_eq_some h
  split at hmatch
  · split at hmatch
    · simp at hmatch
    · simp at hmatch
      exact hmatch.1 ▸ hw
  · simp at hmatch

theorem wholeWord?_append {words : List Text} {input word rest : Text}
    (h : wholeWord? words input = some (word, rest)) : word ++ rest = input := by
  obtain ⟨w, _, hmatch⟩ := List.exists_of_findSome?_eq_some h
  split at hmatch
  · rename_i r hr
    split at hmatch
    · simp at hmatch
    · simp at hmatch
      obtain ⟨rfl, rfl⟩ := hmatch
      exact append_of_behind? hr
  · simp at hmatch

/-! ## Identifiers -/

/-- Splits off the longest initial stretch of word characters and apostrophes that does not end in
an apostrophe. -/
def identifierTail : Text → Text × Text
  | [] => ([], [])
  | c :: rest =>
      if isWordChar c then
        let (tail, after) := identifierTail rest
        (c :: tail, after)
      else if c = '\'' then
        match identifierTail rest with
        | ([], _) => ([], c :: rest)
        | (d :: tail, after) => (c :: d :: tail, after)
      else ([], c :: rest)

theorem identifierTail_append (input : Text) :
    (identifierTail input).1 ++ (identifierTail input).2 = input := by
  induction input with
  | nil => rfl
  | cons c rest ih =>
      rw [identifierTail]
      split
      · simpa using ih
      · split
        · split
          · simp
          · rename_i hrest
            simpa [hrest] using ih
        · simp

/-- An identifier at the start of the input, with the rest of the input. -/
def identifier? : Text → Option (Text × Text)
  | [] => none
  | c :: rest =>
      if isIdentifierStart c then
        let (tail, after) := identifierTail rest
        some (c :: tail, after)
      else none

theorem identifier?_cut {input name rest : Text} (h : identifier? input = some (name, rest)) :
    Cut input name rest := by
  unfold identifier? at h
  split at h
  · simp at h
  · split at h
    · simp only [Option.some.injEq, Prod.mk.injEq] at h
      obtain ⟨rfl, rfl⟩ := h
      exact ⟨by simp [identifierTail_append], by simp⟩
    · simp at h

/-! ## Runs of blanks -/

/-- A run of blanks at the start of the input, and the rest. -/
def blanks? (input : Text) : Option (Text × Text) :=
  match input.takeWhile isBlank with
  | [] => none
  | c :: run => some (c :: run, input.dropWhile isBlank)

theorem blanks?_cut {input run rest : Text} (h : blanks? input = some (run, rest)) :
    Cut input run rest := by
  have hwhole : input.takeWhile isBlank ++ input.dropWhile isBlank = input :=
    List.takeWhile_append_dropWhile
  unfold blanks? at h
  split at h
  · simp at h
  · rename_i htake
    simp only [Option.some.injEq, Prod.mk.injEq] at h
    obtain ⟨rfl, rfl⟩ := h
    rw [htake] at hwhole
    exact ⟨hwhole, by simp⟩

end PseudocodeLexer
