import Mathlib.Data.List.DropRight
import PseudocodeLexer.Proofs.Characters
import PseudocodeLexer.Proofs.Reading

/-!
# Identifiers

An identifier is the longest stretch of word characters and apostrophes at its place, less the
apostrophes at its end. Which stretch is taken therefore depends on what follows: an apostrophe is
taken if a word character stands behind the apostrophes there. `identifier?_eq_some_iff` says
exactly which lexemes are taken in front of which rests.
-/

namespace PseudocodeLexer

open Text

/-- A character that can stand inside an identifier. -/
def isIdentifierContinue (c : Char) : Bool :=
  isWordChar c || c == '\''

/-- No identifier goes on into this text, be it across apostrophes. -/
def EndsIdentifier (rest : Text) : Prop :=
  startsWithWordChar (rest.dropWhile (· == '\'')) = false

/-- Characters of an identifier behind its first one. -/
structure IsIdentifierTail (tail : Text) : Prop where
  continues : ∀ c ∈ tail, isIdentifierContinue c = true
  getLast?_ne : tail.getLast? ≠ some '\''

/-- What an identifier looks like. -/
structure IsIdentifier (lexeme : Text) : Prop where
  start : ∃ c tail, lexeme = c :: tail ∧ isIdentifierStart c = true
  tail : IsIdentifierTail lexeme.tail

theorem not_isWordChar_apostrophe : isWordChar '\'' = false := by decide

theorem EndsIdentifier.not_startsWithWordChar {rest : Text} (h : EndsIdentifier rest) :
    startsWithWordChar rest = false := by
  cases rest with
  | nil => rfl
  | cons c rest =>
      unfold EndsIdentifier at h
      rw [List.dropWhile_cons] at h
      split at h
      · rename_i hc
        obtain rfl : c = '\'' := beq_iff_eq.mp hc
        exact not_isWordChar_apostrophe
      · exact h

theorem endsIdentifier_apostrophe_cons {rest : Text} :
    EndsIdentifier ('\'' :: rest) ↔ EndsIdentifier rest := by
  unfold EndsIdentifier
  rw [List.dropWhile_cons_of_pos (by rfl)]

theorem IsIdentifierTail.of_cons {c : Char} {tail : Text} (h : IsIdentifierTail (c :: tail)) :
    IsIdentifierTail tail where
  continues d hd := h.continues d (List.mem_cons_of_mem _ hd)
  getLast?_ne hlast := h.getLast?_ne (by
    cases tail with
    | nil => simp at hlast
    | cons d tail => rwa [List.getLast?_cons_cons])

/-! ## What is taken -/

theorem identifierTail_of_endsIdentifier {rest : Text} (h : EndsIdentifier rest) :
    identifierTail rest = ([], rest) := by
  induction rest with
  | nil => rfl
  | cons c rest ih =>
      have hword : isWordChar c = false := h.not_startsWithWordChar
      rw [identifierTail, hword]
      by_cases hc : c = '\''
      · subst c
        simp [ih (endsIdentifier_apostrophe_cons.mp h)]
      · simp [hc]

/-- A tail is taken where the identifier ends behind it. -/
theorem identifierTail_append_of_ends {tail rest : Text} (htail : IsIdentifierTail tail)
    (hrest : EndsIdentifier rest) : identifierTail (tail ++ rest) = (tail, rest) := by
  induction tail with
  | nil => exact identifierTail_of_endsIdentifier hrest
  | cons c tail ih =>
      have htaken := ih htail.of_cons
      have hc := htail.continues c List.mem_cons_self
      rw [List.cons_append, identifierTail, htaken]
      cases hword : isWordChar c with
      | true => rfl
      | false =>
          obtain rfl : c = '\'' := by simpa [isIdentifierContinue, hword] using hc
          -- An apostrophe is never the last character of a tail.
          cases tail with
          | nil => exact absurd rfl htail.getLast?_ne
          | cons d tail => rfl

theorem isIdentifierTail_identifierTail (input : Text) :
    IsIdentifierTail (identifierTail input).1 := by
  induction input with
  | nil => exact ⟨by simp [identifierTail], by simp [identifierTail]⟩
  | cons c rest ih =>
      rw [identifierTail]
      cases hword : isWordChar c with
      | true =>
          refine ⟨?_, ?_⟩
          · intro d hd
            rcases List.mem_cons.mp hd with rfl | hd
            · simp [isIdentifierContinue, hword]
            · exact ih.continues d hd
          · show (c :: (identifierTail rest).1).getLast? ≠ some '\''
            cases htail : (identifierTail rest).1 with
            | nil =>
                rintro hlast
                obtain rfl : c = '\'' := by simpa using hlast
                rw [not_isWordChar_apostrophe] at hword
                exact Bool.noConfusion hword
            | cons d tail =>
                rw [List.getLast?_cons_cons, ← htail]
                exact ih.getLast?_ne
      | false =>
          by_cases hc : c = '\''
          · subst c
            cases htail : identifierTail rest with
            | mk tail after =>
                rw [htail] at ih
                cases tail with
                | nil => exact ⟨by simp, by simp⟩
                | cons d tail =>
                    refine ⟨?_, ?_⟩
                    · intro e he
                      rcases List.mem_cons.mp he with rfl | he
                      · rfl
                      · exact ih.continues e he
                    · exact ih.getLast?_ne
          · simp [hc]
            exact ⟨by simp, by simp⟩

theorem endsIdentifier_identifierTail (input : Text) :
    EndsIdentifier (identifierTail input).2 := by
  induction input with
  | nil => rfl
  | cons c rest ih =>
      rw [identifierTail]
      cases hword : isWordChar c with
      | true => exact ih
      | false =>
          by_cases hc : c = '\''
          · subst c
            cases htail : identifierTail rest with
            | mk tail after =>
                cases tail with
                | nil =>
                    have happend := identifierTail_append rest
                    rw [htail] at ih happend
                    obtain rfl : after = rest := happend
                    exact endsIdentifier_apostrophe_cons.mpr ih
                | cons d tail =>
                    rw [htail] at ih
                    exact ih
          · simp only [hc, Bool.false_eq_true, if_false]
            unfold EndsIdentifier
            rw [List.dropWhile_cons_of_neg (by simpa using hc)]
            exact hword

/-- An identifier is taken exactly where no identifier goes on behind it. -/
theorem identifier?_eq_some_iff {input lexeme rest : Text} :
    identifier? input = some (lexeme, rest) ↔
      lexeme ++ rest = input ∧ IsIdentifier lexeme ∧ EndsIdentifier rest := by
  constructor
  · intro h
    have happend := (identifier?_cut h).append
    cases input with
    | nil => simp [identifier?] at h
    | cons c input =>
        by_cases hstart : isIdentifierStart c = true
        · rw [identifier?, if_pos hstart] at h
          cases h
          exact ⟨happend, ⟨⟨c, _, rfl, hstart⟩, isIdentifierTail_identifierTail input⟩,
            endsIdentifier_identifierTail input⟩
        · rw [identifier?, if_neg hstart] at h
          cases h
  · rintro ⟨rfl, ⟨⟨c, tail, rfl, hstart⟩, htail⟩, hrest⟩
    have htaken : identifierTail (tail ++ rest) = (tail, rest) :=
      identifierTail_append_of_ends htail hrest
    rw [List.cons_append, identifier?, if_pos hstart, htaken]

theorem IsIdentifierTail.of_append {s t : Text} (h : IsIdentifierTail (s ++ t)) :
    IsIdentifierTail t := by
  induction s with
  | nil => exact h
  | cons c s ih => exact ih h.of_cons

/-- No identifier ends in front of its own tail. -/
theorem IsIdentifierTail.not_endsIdentifier {tail after : Text} (h : IsIdentifierTail tail)
    (hne : tail ≠ []) : ¬ EndsIdentifier (tail ++ after) := by
  induction tail with
  | nil => exact absurd rfl hne
  | cons c tail ih =>
      intro hends
      have hword : isWordChar c = false := hends.not_startsWithWordChar
      have hc := h.continues c List.mem_cons_self
      obtain rfl : c = '\'' := by simpa [isIdentifierContinue, hword] using hc
      have htail : tail ≠ [] := by
        rintro rfl
        exact h.getLast?_ne rfl
      exact ih h.of_cons htail (endsIdentifier_apostrophe_cons.mp hends)

/-- What is taken where an identifier stands takes at least that identifier, if it ends where an
identifier can end. -/
theorem IsIdentifier.exists_eq_append {name after lexeme rest : Text} (h : IsIdentifier name)
    (happend : lexeme ++ rest = name ++ after) (hne : lexeme ≠ []) (hrest : EndsIdentifier rest) :
    ∃ more, lexeme = name ++ more ∧ after = more ++ rest := by
  rcases List.append_eq_append_iff.mp happend with ⟨left, hname, hleft⟩ | ⟨more, hlexeme, hafter⟩
  · cases lexeme with
    | nil => exact absurd rfl hne
    | cons c lexeme =>
        have htail : IsIdentifierTail (lexeme ++ left) := by
          have htail := h.tail
          rwa [hname] at htail
        by_cases hempty : left = []
        · subst left
          exact ⟨[], by simp [hname], by simpa using hleft.symm⟩
        · rw [hleft] at hrest
          exact absurd hrest (htail.of_append.not_endsIdentifier hempty)
  · exact ⟨more, hlexeme, hafter⟩

/-! ## The apostrophes given back -/

theorem IsIdentifier.continues {lexeme : Text} (h : IsIdentifier lexeme) :
    ∀ c ∈ lexeme, isIdentifierContinue c = true := by
  obtain ⟨⟨c, tail, rfl, hstart⟩, htail⟩ := h
  intro d hd
  rcases List.mem_cons.mp hd with rfl | hd
  · simp [isIdentifierContinue, isWordChar_of_isIdentifierStart hstart]
  · exact htail.continues d hd

theorem IsIdentifier.getLast?_ne {lexeme : Text} (h : IsIdentifier lexeme) :
    lexeme.getLast? ≠ some '\'' := by
  obtain ⟨⟨c, tail, rfl, hstart⟩, htail⟩ := h
  cases tail with
  | nil =>
      have hword := isWordChar_of_isIdentifierStart hstart
      simpa using ne_of_isWordChar hword not_isWordChar_apostrophe
  | cons d tail =>
      rw [List.getLast?_cons_cons]
      exact htail.getLast?_ne

/-- Where an identifier ends, the stretch that could go on is made of apostrophes. -/
theorem EndsIdentifier.eq_apostrophe {rest : Text} (h : EndsIdentifier rest) :
    ∀ c ∈ rest.takeWhile isIdentifierContinue, c = '\'' := by
  induction rest with
  | nil => simp
  | cons c rest ih =>
      have hword : isWordChar c = false := h.not_startsWithWordChar
      intro d hd
      by_cases hc : c = '\''
      · subst c
        rw [List.takeWhile_cons_of_pos (by rfl)] at hd
        rcases List.mem_cons.mp hd with rfl | hd
        · rfl
        · exact ih (endsIdentifier_apostrophe_cons.mp h) d hd
      · rw [List.takeWhile_cons_of_neg (by simp [isIdentifierContinue, hword, hc])] at hd
        simp at hd

/-- An identifier is the longest stretch of word characters and apostrophes, less the apostrophes
at its end. -/
theorem identifier?_eq_rdropWhile {input lexeme rest : Text}
    (h : identifier? input = some (lexeme, rest)) :
    lexeme = (input.takeWhile isIdentifierContinue).rdropWhile (· == '\'') := by
  obtain ⟨rfl, hlexeme, hrest⟩ := identifier?_eq_some_iff.mp h
  rw [List.takeWhile_append_of_pos hlexeme.continues, List.rdropWhile, List.reverse_append,
    List.dropWhile_append_of_pos (by simpa using hrest.eq_apostrophe)]
  symm
  rw [← List.rdropWhile, List.rdropWhile_eq_self_iff]
  intro hne hlast
  apply hlexeme.getLast?_ne
  rw [List.getLast?_eq_some_getLast hne, beq_iff_eq.mp hlast]

end PseudocodeLexer
