import Mathlib.Data.List.TakeWhile
import PseudocodeLexer.Proofs.Characters
import PseudocodeLexer.Proofs.Reading

/-!
# Numbers

A number is a run of digits, with a fraction if one fits: a point and digits that no word character
follows. `NumericLiteral.recognize?_eq_some_iff` says which lexemes are taken in front of which
rests, and `NumericLiteral.recognize?_eq_none_iff` that digits are refused only where a word
character follows the run of them.
-/

namespace PseudocodeLexer.NumericLiteral

open Text

/-- ASCII digits, at least one of them. -/
structure IsDigits (digits : Text) : Prop where
  isDigit : ∀ c ∈ digits, c.isDigit = true
  ne_nil : digits ≠ []

/-- A fraction stands here that no word character follows. -/
def FractionFits (rest : Text) : Prop :=
  ∃ fraction after, fraction? rest = some (fraction, after) ∧ startsWithWordChar after = false

/-- What a number looks like. -/
def IsNumber (lexeme : Text) : Prop :=
  ∃ whole, IsDigits whole ∧
    (lexeme = whole ∨ ∃ digits, IsDigits digits ∧ lexeme = whole ++ '.' :: digits)

/-! ## Runs of digits -/

theorem takeWhile_isDigit_of_wordEnd {rest : Text} (h : startsWithWordChar rest = false) :
    rest.takeWhile Char.isDigit = [] := by
  cases rest with
  | nil => rfl
  | cons c rest =>
      cases hc : c.isDigit with
      | false => exact List.takeWhile_cons_of_neg (by simp [hc])
      | true =>
          rw [startsWithWordChar_cons, isWordChar_of_isDigit hc] at h
          exact Bool.noConfusion h

theorem takeWhile_digits_append {digits rest : Text} (hdigits : ∀ c ∈ digits, c.isDigit = true)
    (hrest : rest.takeWhile Char.isDigit = []) :
    (digits ++ rest).takeWhile Char.isDigit = digits := by
  rw [List.takeWhile_append_of_pos hdigits, hrest, List.append_nil]

theorem dropWhile_digits_append {digits rest : Text} (hdigits : ∀ c ∈ digits, c.isDigit = true)
    (hrest : rest.takeWhile Char.isDigit = []) :
    (digits ++ rest).dropWhile Char.isDigit = rest := by
  have hsplit : rest.takeWhile Char.isDigit ++ rest.dropWhile Char.isDigit = rest :=
    List.takeWhile_append_dropWhile
  rw [hrest, List.nil_append] at hsplit
  rw [List.dropWhile_append_of_pos hdigits, hsplit]

theorem dropWhile_isDigit_of_wordEnd {rest : Text} (h : startsWithWordChar rest = false) :
    rest.dropWhile Char.isDigit = rest :=
  @dropWhile_digits_append [] rest (by simp) (takeWhile_isDigit_of_wordEnd h)

theorem takeWhile_dropWhile_isDigit (input : Text) :
    (input.dropWhile Char.isDigit).takeWhile Char.isDigit = [] := by
  induction input with
  | nil => rfl
  | cons c input ih =>
      cases hc : c.isDigit with
      | true => rw [List.dropWhile_cons_of_pos hc, ih]
      | false =>
          rw [List.dropWhile_cons_of_neg (by simp [hc]), List.takeWhile_cons_of_neg (by simp [hc])]

/-! ## Fractions -/

theorem fraction?_eq_some_iff {input fraction after : Text} :
    fraction? input = some (fraction, after) ↔
      ∃ digits, IsDigits digits ∧ fraction = '.' :: digits ∧ input = '.' :: (digits ++ after) ∧
        after.takeWhile Char.isDigit = [] := by
  constructor
  · intro h
    have happend := fraction?_append h
    unfold fraction? at h
    split at h
    · rename_i tail
      split at h
      · simp at h
      · rename_i d digits hdigits
        cases h
        refine ⟨d :: digits, ⟨?_, by simp⟩, rfl, happend.symm, takeWhile_dropWhile_isDigit tail⟩
        intro c hc
        rw [← hdigits] at hc
        exact List.mem_takeWhile_imp hc
    · simp at h
  · rintro ⟨digits, hdigits, rfl, rfl, hafter⟩
    have htake := takeWhile_digits_append hdigits.isDigit hafter
    have hdrop := dropWhile_digits_append hdigits.isDigit hafter
    cases digits with
    | nil => exact absurd rfl hdigits.ne_nil
    | cons d digits =>
        simp only [fraction?, htake, hdrop]

/-! ## What is taken -/

theorem atWordEnd?_of_wordEnd {lexeme rest : Text} (h : startsWithWordChar rest = false) :
    atWordEnd? lexeme rest = some (lexeme, rest) := by
  simp [atWordEnd?, h]

theorem wordEnd_of_atWordEnd? {lexeme rest : Text} {found : Text × Text}
    (h : atWordEnd? lexeme rest = some found) :
    found = (lexeme, rest) ∧ startsWithWordChar rest = false := by
  unfold atWordEnd? at h
  split at h
  · simp at h
  · rename_i hend
    cases h
    exact ⟨rfl, by simpa using hend⟩

/-- A number is tried with the fraction first. -/
theorem recognize?_digits {whole rest : Text} (hwhole : IsDigits whole)
    (hrest : rest.takeWhile Char.isDigit = []) :
    recognize? (whole ++ rest)
      = match fraction? rest with
        | none => atWordEnd? whole rest
        | some (fraction, after) =>
            (atWordEnd? (whole ++ fraction) after).or (atWordEnd? whole rest) := by
  unfold recognize?
  simp only [takeWhile_digits_append hwhole.isDigit hrest,
    dropWhile_digits_append hwhole.isDigit hrest, if_neg hwhole.ne_nil]
  cases fraction? rest with
  | none => rfl
  | some split =>
      obtain ⟨fraction, after⟩ := split
      cases hlong : atWordEnd? (whole ++ fraction) after <;> simp [hlong]

theorem IsDigits.point_not_mem {digits : Text} (h : IsDigits digits) : '.' ∉ digits :=
  fun hmem => absurd (h.isDigit '.' hmem) (by decide)

/-- A number is taken exactly where no word character follows and no fraction could be added. -/
theorem recognize?_eq_some_iff {input lexeme rest : Text} :
    recognize? input = some (lexeme, rest) ↔
      lexeme ++ rest = input ∧ IsNumber lexeme ∧ startsWithWordChar rest = false ∧
        ('.' ∉ lexeme → ¬ FractionFits rest) := by
  constructor
  · intro h
    refine ⟨(recognize?_cut h).append, ?_⟩
    have hsplit : input.takeWhile Char.isDigit ++ input.dropWhile Char.isDigit = input :=
      List.takeWhile_append_dropWhile
    by_cases hempty : input.takeWhile Char.isDigit = []
    · simp [recognize?, hempty] at h
    have hwhole : IsDigits (input.takeWhile Char.isDigit) :=
      ⟨fun c hc => List.mem_takeWhile_imp hc, hempty⟩
    rw [← hsplit, recognize?_digits hwhole (takeWhile_dropWhile_isDigit input)] at h
    cases hfraction : fraction? (input.dropWhile Char.isDigit) with
    | none =>
        simp only [hfraction] at h
        obtain ⟨heq, hend⟩ := wordEnd_of_atWordEnd? h
        cases heq
        refine ⟨⟨_, hwhole, Or.inl rfl⟩, hend, ?_⟩
        rintro - ⟨fraction, after, hfits, -⟩
        rw [hfraction] at hfits
        cases hfits
    | some split =>
        obtain ⟨fraction, after⟩ := split
        obtain ⟨digits, hdigits, rfl, -⟩ := fraction?_eq_some_iff.mp hfraction
        simp only [hfraction] at h
        rcases Option.or_eq_some_iff.mp h with hlong | ⟨hlong, hshort⟩
        · -- The fraction is taken, and a number has no second one.
          obtain ⟨heq, hend⟩ := wordEnd_of_atWordEnd? hlong
          cases heq
          refine ⟨⟨_, hwhole, Or.inr ⟨digits, hdigits, rfl⟩⟩, hend, ?_⟩
          intro hpoint
          simp at hpoint
        · -- The fraction is given up, so a word character follows it.
          obtain ⟨heq, hend⟩ := wordEnd_of_atWordEnd? hshort
          cases heq
          refine ⟨⟨_, hwhole, Or.inl rfl⟩, hend, ?_⟩
          rintro - ⟨fraction', after', hfits, hafter⟩
          rw [hfraction] at hfits
          cases hfits
          rw [atWordEnd?_of_wordEnd hafter] at hlong
          cases hlong
  · rintro ⟨rfl, ⟨whole, hwhole, hlexeme⟩, hrest, hfraction⟩
    rcases hlexeme with rfl | ⟨digits, hdigits, rfl⟩
    · rw [recognize?_digits hwhole (takeWhile_isDigit_of_wordEnd hrest)]
      cases hfits : fraction? rest with
      | none => exact atWordEnd?_of_wordEnd hrest
      | some split =>
          obtain ⟨fraction, after⟩ := split
          cases hafter : startsWithWordChar after with
          | false => exact absurd ⟨fraction, after, hfits, hafter⟩ (hfraction hwhole.point_not_mem)
          | true => simp [atWordEnd?, hafter, hrest]
    · have hfits : fraction? ('.' :: (digits ++ rest)) = some ('.' :: digits, rest) :=
        fraction?_eq_some_iff.mpr
          ⟨digits, hdigits, rfl, rfl, takeWhile_isDigit_of_wordEnd hrest⟩
      rw [List.append_assoc, List.cons_append, recognize?_digits hwhole (by rfl)]
      simp only [hfits, atWordEnd?_of_wordEnd hrest, Option.some_or]

/-- Digits are refused exactly where a word character follows the run of them. -/
theorem recognize?_eq_none_iff {c : Char} {input : Text} (hc : c.isDigit = true) :
    recognize? (c :: input) = none ↔
      startsWithWordChar ((c :: input).dropWhile Char.isDigit) = true := by
  have hsplit : (c :: input).takeWhile Char.isDigit ++ (c :: input).dropWhile Char.isDigit
      = c :: input := List.takeWhile_append_dropWhile
  have hwhole : IsDigits ((c :: input).takeWhile Char.isDigit) :=
    ⟨fun d hd => List.mem_takeWhile_imp hd, by simp [List.takeWhile_cons_of_pos hc]⟩
  constructor
  · intro hnone
    cases hend : startsWithWordChar ((c :: input).dropWhile Char.isDigit) with
    | true => rfl
    | false =>
        rw [← hsplit, recognize?_digits hwhole (takeWhile_dropWhile_isDigit _),
          atWordEnd?_of_wordEnd hend] at hnone
        cases hfraction : fraction? ((c :: input).dropWhile Char.isDigit) <;>
          simp [hfraction] at hnone
  · intro hword
    have hfraction : fraction? ((c :: input).dropWhile Char.isDigit) = none := by
      cases hfits : fraction? ((c :: input).dropWhile Char.isDigit) with
      | none => rfl
      | some split =>
          obtain ⟨digits, -, -, hpoint, -⟩ := fraction?_eq_some_iff.mp hfits
          rw [hpoint, startsWithWordChar_cons] at hword
          exact absurd hword (by decide)
    rw [← hsplit, recognize?_digits hwhole (takeWhile_dropWhile_isDigit _), hfraction]
    simp [atWordEnd?, hword]

end PseudocodeLexer.NumericLiteral
