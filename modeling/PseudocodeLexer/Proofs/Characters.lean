import PseudocodeLexer.Token.Rule

/-!
# Classes of characters

The classes by which the rules tell lexemes apart exclude each other: no character is both a blank
and a word character, and the characters of symbols, marks and quotes are neither. Of the tables
behind these classes only the ranges of the blanks are walked; the other tables are looked up.
-/

namespace PseudocodeLexer

open Text

/-! ## Look-up in a table -/

namespace Text.CodeRanges

/-- A covered code point lies in one of the ranges. -/
theorem exists_range_of_coversCode {ranges : CodeRanges} {code : Nat}
    (h : ranges.coversCode code = true) :
    ∃ range ∈ ranges, range.1 ≤ code ∧ code ≤ range.2 := by
  induction ranges with
  | nil => simp [coversCode] at h
  | cons range ranges ih =>
      obtain ⟨first, last⟩ := range
      rw [coversCode] at h
      by_cases hfirst : code < first
      · simp [hfirst] at h
      · by_cases hlast : code ≤ last
        · exact ⟨(first, last), List.mem_cons_self, Nat.le_of_not_lt hfirst, hlast⟩
        · rw [if_neg hfirst, if_neg hlast] at h
          obtain ⟨range, hrange, hcode⟩ := ih h
          exact ⟨range, List.mem_cons_of_mem _ hrange, hcode⟩

end Text.CodeRanges

/-! ## Digits -/

theorem toNat_of_isDigit {c : Char} (h : c.isDigit = true) : 0x30 ≤ c.toNat ∧ c.toNat ≤ 0x39 := by
  simp only [Char.isDigit, Bool.and_eq_true, decide_eq_true_eq] at h
  exact ⟨UInt32.le_iff_toNat_le.mp h.1, UInt32.le_iff_toNat_le.mp h.2⟩

/-- ASCII digits lie in the first range of the numeric characters. -/
theorem isNumeric_of_isDigit {c : Char} (h : c.isDigit = true) : isNumeric c = true := by
  obtain ⟨hlow, hhigh⟩ := toNat_of_isDigit h
  unfold isNumeric CodeRanges.covers numericRanges
  rw [CodeRanges.coversCode, if_neg (Nat.not_lt.mpr hlow), if_pos hhigh]

theorem isWordChar_of_isDigit {c : Char} (h : c.isDigit = true) : isWordChar c = true := by
  simp [isWordChar, isNumeric_of_isDigit h]

/-- ASCII digits lie below the first letter. -/
theorem not_isAlphabetic_of_isDigit {c : Char} (h : c.isDigit = true) : isAlphabetic c = false := by
  have hbelow : c.toNat < 0x41 := by
    have := (toNat_of_isDigit h).2
    omega
  unfold isAlphabetic CodeRanges.covers alphabeticRanges
  rw [CodeRanges.coversCode, if_pos hbelow]

theorem ne_of_isDigit {c d : Char} (h : c.isDigit = true) (hd : d.isDigit = false) : c ≠ d := by
  rintro rfl
  rw [h] at hd
  exact Bool.noConfusion hd

theorem not_isIdentifierStart_of_isDigit {c : Char} (h : c.isDigit = true) :
    isIdentifierStart c = false := by
  simp [isIdentifierStart, not_isAlphabetic_of_isDigit h, ne_of_isDigit h (d := '_') (by decide)]

theorem not_isDigit_of_isIdentifierStart {c : Char} (h : isIdentifierStart c = true) :
    c.isDigit = false := by
  cases hdigit : c.isDigit with
  | false => rfl
  | true =>
      rw [not_isIdentifierStart_of_isDigit hdigit] at h
      exact Bool.noConfusion h

/-! ## Word characters -/

theorem isWordChar_of_isIdentifierStart {c : Char} (h : isIdentifierStart c = true) :
    isWordChar c = true := by
  simp only [isIdentifierStart, Bool.or_eq_true] at h
  rcases h with h | h <;> simp [isWordChar, h]

theorem ne_of_isWordChar {c d : Char} (h : isWordChar c = true) (hd : isWordChar d = false) :
    c ≠ d := by
  rintro rfl
  rw [h] at hd
  exact Bool.noConfusion hd

/-- Every code point of a blank, tried one by one, is neither a letter nor numeric. -/
private theorem blankRanges_apart :
    ∀ range ∈ blankRanges, ∀ k < range.2 + 1 - range.1,
      alphabeticRanges.coversCode (range.1 + k) = false ∧
        numericRanges.coversCode (range.1 + k) = false ∧ range.1 + k ≠ '_'.toNat := by
  decide +kernel

/-- No blank is a word character. -/
theorem not_isWordChar_of_isBlank {c : Char} (h : isBlank c = true) : isWordChar c = false := by
  obtain ⟨range, hrange, hlow, hhigh⟩ := CodeRanges.exists_range_of_coversCode h
  have hcode : range.1 + (c.toNat - range.1) = c.toNat := by omega
  have hapart := blankRanges_apart range hrange (c.toNat - range.1) (by omega)
  rw [hcode] at hapart
  obtain ⟨halpha, hnumeric, hunderscore⟩ := hapart
  have hne : c ≠ '_' := fun heq => hunderscore (congrArg Char.toNat heq)
  simp [isWordChar, isAlphabetic, isNumeric, CodeRanges.covers, halpha, hnumeric, hne]

theorem not_isBlank_of_isWordChar {c : Char} (h : isWordChar c = true) : isBlank c = false := by
  cases hblank : isBlank c with
  | false => rfl
  | true =>
      rw [not_isWordChar_of_isBlank hblank] at h
      exact Bool.noConfusion h

/-! ## Signs and marks -/

theorem Operator.ofChar?_eq_some {c : Char} {operator : Operator}
    (h : Operator.ofChar? c = some operator) : c = operator.char := by
  have := List.find?_some h
  exact (beq_iff_eq.mp this).symm

theorem Punctuation.ofChar?_eq_some {c : Char} {mark : Punctuation}
    (h : Punctuation.ofChar? c = some mark) : c = mark.char := by
  have := List.find?_some h
  exact (beq_iff_eq.mp this).symm

theorem Operator.not_isWordChar_char (operator : Operator) : isWordChar operator.char = false := by
  cases operator <;> decide

theorem Punctuation.not_isWordChar_char (mark : Punctuation) : isWordChar mark.char = false := by
  cases mark <;> decide

theorem Comparison.ofFirst?_eq_some {c : Char} {comparison : Comparison}
    (h : Comparison.ofFirst? c = some comparison) : comparison.symbol = [c, '='] := by
  unfold ofFirst? at h
  split at h
  · subst c; cases h; rfl
  · split at h
    · subst c; cases h; rfl
    · split at h
      · subst c; cases h; rfl
      · split at h
        · subst c; cases h; rfl
        · simp at h

/-- A comparison begins with a character that is an operator of its own. -/
theorem Comparison.exists_operator_of_ofFirst? {c : Char} {comparison : Comparison}
    (h : Comparison.ofFirst? c = some comparison) :
    ∃ operator, Operator.ofChar? c = some operator := by
  have hsymbol := ofFirst?_eq_some h
  cases comparison <;> simp only [symbol, List.cons.injEq, and_true] at hsymbol <;>
    subst hsymbol <;> exact ⟨_, rfl⟩

end PseudocodeLexer
