import PseudocodeLexer.Number.Numeral
import PseudocodeLexer.Word

/-!
# Numeric literals

A numeric literal is a run of ASCII digits with an optional fraction, not followed by a word
character. When the fraction cannot end where it does, the whole part is tried alone; the point
after it is then left to the next token.
-/

namespace PseudocodeLexer.NumericLiteral

open Text

/-- A point and the digits after it, and the rest. -/
def fraction? : Text → Option (Text × Text)
  | '.' :: rest =>
      match rest.takeWhile Char.isDigit with
      | [] => none
      | d :: digits => some ('.' :: d :: digits, rest.dropWhile Char.isDigit)
  | _ => none

theorem fraction?_append {input fraction rest : Text}
    (h : fraction? input = some (fraction, rest)) : fraction ++ rest = input := by
  unfold fraction? at h
  split at h
  · rename_i tail
    split at h
    · simp at h
    · rename_i d digits hdigits
      simp only [Option.some.injEq, Prod.mk.injEq] at h
      obtain ⟨rfl, rfl⟩ := h
      have hsplit : tail.takeWhile Char.isDigit ++ tail.dropWhile Char.isDigit = tail :=
        List.takeWhile_append_dropWhile
      rw [hdigits] at hsplit
      simpa using hsplit
  · simp at h

/-- Accepts a lexeme only where no word character follows it. -/
def atWordEnd? (lexeme rest : Text) : Option (Text × Text) :=
  if startsWithWordChar rest then none else some (lexeme, rest)

/-- A numeric literal at the start of the input, and the rest. -/
def recognize? (input : Text) : Option (Text × Text) :=
  let whole := input.takeWhile Char.isDigit
  let rest := input.dropWhile Char.isDigit
  if whole = [] then none
  else match fraction? rest with
    | none => atWordEnd? whole rest
    | some (fraction, after) =>
        match atWordEnd? (whole ++ fraction) after with
        | some found => some found
        | none => atWordEnd? whole rest

theorem atWordEnd?_eq_some {lexeme rest lexeme' rest' : Text}
    (h : atWordEnd? lexeme rest = some (lexeme', rest')) : lexeme = lexeme' ∧ rest = rest' := by
  unfold atWordEnd? at h
  split at h
  · simp at h
  · simpa using h

theorem recognize?_cut {input lexeme rest : Text}
    (h : recognize? input = some (lexeme, rest)) : Cut input lexeme rest := by
  have hsplit : input.takeWhile Char.isDigit ++ input.dropWhile Char.isDigit = input :=
    List.takeWhile_append_dropWhile
  unfold recognize? at h
  simp only at h
  split at h
  · simp at h
  · rename_i hwhole
    have hshort (h' : atWordEnd? (input.takeWhile Char.isDigit) (input.dropWhile Char.isDigit)
        = some (lexeme, rest)) : Cut input lexeme rest := by
      obtain ⟨rfl, rfl⟩ := atWordEnd?_eq_some h'
      exact ⟨hsplit, hwhole⟩
    split at h
    · exact hshort h
    · rename_i fraction after hfraction
      split at h
      · rename_i found hfound
        cases h
        obtain ⟨rfl, rfl⟩ := atWordEnd?_eq_some hfound
        refine ⟨?_, by simp [hwhole]⟩
        rw [List.append_assoc, fraction?_append hfraction, hsplit]
      · exact hshort h

/-- The value nearest to a lexeme that is written as a number, if it is. -/
def value? (lexeme : Text) : Option Binary64 :=
  (Numeral.ofText? lexeme).map Numeral.toBinary64

end PseudocodeLexer.NumericLiteral
