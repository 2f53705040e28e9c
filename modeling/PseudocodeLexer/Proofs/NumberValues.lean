import PseudocodeLexer.Proofs.NextToken
import PseudocodeLexer.Proofs.Number

/-!
# Values of numbers

A number takes the longest run of digits that the input begins with, and behind a point the longest
run of further digits, if there are any and no word character follows them (`IsFraction`). What is
taken is written in the grammar of numerals, so it has a value: that of its digits over a power of
ten, rounded. Rounding keeps the sign and never leads to what is no number, so however many digits
there are, the value is a number or infinite, and not negative.
-/

namespace PseudocodeLexer

open Text

/-! ## Signs -/

namespace Binary64

/-- The sign, true for minus; what is no number has none. -/
def sign? : Binary64 → Option Bool
  | .nan => none
  | .infinite negative => some negative
  | .finite negative _ _ => some negative

theorem ne_nan_of_sign? {x : Binary64} {negative : Bool} (h : x.sign? = some negative) :
    x ≠ .nan := by
  rintro rfl
  cases h

@[simp]
theorem sign?_zero (negative : Bool) : (zero negative).sign? = some negative := rfl

/-- Rounding a quotient keeps the sign, also where it leads to zero or out of range. -/
@[simp]
theorem sign?_ofRatio (negative : Bool) (num den : Nat) :
    (ofRatio negative num den).sign? = some negative := by
  by_cases hnum : num = 0
  · rw [ofRatio, if_pos hnum, sign?_zero]
  · rw [ofRatio, if_neg hnum]
    dsimp only
    -- The significand may be carried into the exponent, and the exponent may then be too large.
    split <;> split <;> rfl

@[simp]
theorem sign?_ofDecimal (negative : Bool) (digits : Nat) (exponent : Int) :
    (ofDecimal negative digits exponent).sign? = some negative := by
  simp only [ofDecimal]
  split_ifs
  · exact sign?_zero negative
  · rfl
  · exact sign?_zero negative
  · exact sign?_ofRatio negative _ 1
  · exact sign?_ofRatio negative digits _

end Binary64

/-! ## The grammar of numerals -/

namespace Numeral

theorem sign_of_isDigit {c : Char} (hc : c.isDigit = true) (t : Text) :
    sign (c :: t) = (false, c :: t) := by
  have hminus : c ≠ '-' := ne_of_isDigit hc (by decide)
  have hplus : c ≠ '+' := ne_of_isDigit hc (by decide)
  simp [sign, hminus, hplus]

theorem toLower_of_isDigit {c : Char} (hc : c.isDigit = true) : c.toLower = c := by
  have hbelow := (toNat_of_isDigit hc).2
  apply dif_neg
  rintro ⟨hupper, -⟩
  have : 0x41 ≤ c.toNat := UInt32.le_iff_toNat_le.mp hupper
  omega

/-- The words begin with letters. -/
theorem word?_of_isDigit (negative : Bool) {c : Char} (hc : c.isDigit = true) (t : Text) :
    word? negative (c :: t) = none := by
  have hi : c ≠ 'i' := ne_of_isDigit hc (by decide)
  have hn : c ≠ 'n' := ne_of_isDigit hc (by decide)
  simp [word?, toLower_of_isDigit hc, hi, hn]

end Numeral

namespace NumericLiteral

/-! ## Runs of digits -/

/-- The longest run of digits that the input begins with, and the rest. -/
structure IsDigitRun (input digits rest : Text) : Prop where
  append : digits ++ rest = input
  isDigit : ∀ c ∈ digits, c.isDigit = true
  longest : ∀ run, run <+: input → (∀ c ∈ run, c.isDigit = true) → run <+: digits

/-- A point stands here with the longest run of digits behind it, one digit at least, and no word
character follows. -/
structure IsFraction (rest places after : Text) : Prop where
  run : ∃ behind, rest = '.' :: behind ∧ IsDigitRun behind places after
  ne_nil : places ≠ []
  wordEnd : startsWithWordChar after = false

theorem isDigitRun_iff {input digits rest : Text} : IsDigitRun input digits rest ↔
    digits = input.takeWhile Char.isDigit ∧ rest = input.dropWhile Char.isDigit := by
  have hsplit : input.takeWhile Char.isDigit ++ input.dropWhile Char.isDigit = input :=
    List.takeWhile_append_dropWhile
  constructor
  · intro h
    have htake : input.takeWhile Char.isDigit <+: digits :=
      h.longest _ (List.takeWhile_prefix _) fun c hc => List.mem_takeWhile_imp hc
    have hdigits : digits <+: input.takeWhile Char.isDigit := by
      rw [← h.append, List.takeWhile_append_of_pos h.isDigit]
      exact List.prefix_append _ _
    obtain rfl : digits = input.takeWhile Char.isDigit :=
      hdigits.eq_of_length (le_antisymm hdigits.length_le htake.length_le)
    exact ⟨rfl, List.append_cancel_left (h.append.trans hsplit.symm)⟩
  · rintro ⟨rfl, rfl⟩
    refine ⟨hsplit, fun c hc => List.mem_takeWhile_imp hc, ?_⟩
    rintro run ⟨behind, rfl⟩ hrun
    rw [List.takeWhile_append_of_pos hrun]
    exact List.prefix_append _ _

theorem IsDigitRun.takeWhile_rest {input digits rest : Text} (h : IsDigitRun input digits rest) :
    rest.takeWhile Char.isDigit = [] := by
  rw [(isDigitRun_iff.mp h).2]
  exact takeWhile_dropWhile_isDigit input

theorem isDigitRun_append {digits rest : Text} (hdigits : ∀ c ∈ digits, c.isDigit = true)
    (hrest : rest.takeWhile Char.isDigit = []) : IsDigitRun (digits ++ rest) digits rest :=
  isDigitRun_iff.mpr ⟨(takeWhile_digits_append hdigits hrest).symm,
    (dropWhile_digits_append hdigits hrest).symm⟩

theorem isFraction_iff {rest places after : Text} : IsFraction rest places after ↔
    fraction? rest = some ('.' :: places, after) ∧ startsWithWordChar after = false := by
  rw [fraction?_eq_some_iff]
  constructor
  · rintro ⟨⟨behind, rfl, hrun⟩, hplaces, hend⟩
    exact ⟨⟨places, ⟨hrun.isDigit, hplaces⟩, rfl, by rw [hrun.append], hrun.takeWhile_rest⟩, hend⟩
  · rintro ⟨⟨digits, hdigits, hpoint, rfl, hafter⟩, hend⟩
    cases hpoint
    exact ⟨⟨_, rfl, isDigitRun_append hdigits.isDigit hafter⟩, hdigits.ne_nil, hend⟩

theorem fractionFits_iff {rest : Text} :
    FractionFits rest ↔ ∃ places after, IsFraction rest places after := by
  constructor
  · rintro ⟨fraction, after, hfraction, hend⟩
    obtain ⟨places, -, rfl, -⟩ := fraction?_eq_some_iff.mp hfraction
    exact ⟨places, after, isFraction_iff.mpr ⟨hfraction, hend⟩⟩
  · rintro ⟨places, after, hfraction⟩
    obtain ⟨hfraction, hend⟩ := isFraction_iff.mp hfraction
    exact ⟨_, after, hfraction, hend⟩

/-! ## What is taken -/

section

variable {input digits rest : Text}

theorem IsDigitRun.recognize?_empty (h : IsDigitRun input digits rest) (hdigits : digits = []) :
    recognize? input = none := by
  rw [recognize?, ← (isDigitRun_iff.mp h).1, if_pos hdigits]

theorem IsDigitRun.recognize?_fraction {places after : Text} (h : IsDigitRun input digits rest)
    (hdigits : digits ≠ []) (hfraction : IsFraction rest places after) :
    recognize? input = some (digits ++ '.' :: places, after) := by
  obtain ⟨behind, hrest, hrun⟩ := hfraction.run
  refine recognize?_eq_some_iff.mpr ⟨?_, ?_, hfraction.wordEnd, by simp⟩
  · rw [← h.append, hrest, ← hrun.append, List.append_assoc, List.cons_append]
  · exact ⟨digits, ⟨h.isDigit, hdigits⟩, Or.inr ⟨places, ⟨hrun.isDigit, hfraction.ne_nil⟩, rfl⟩⟩

theorem IsDigitRun.recognize?_whole (h : IsDigitRun input digits rest) (hdigits : digits ≠ [])
    (hfraction : ¬ ∃ places after, IsFraction rest places after)
    (hend : startsWithWordChar rest = false) : recognize? input = some (digits, rest) := by
  refine recognize?_eq_some_iff.mpr ⟨h.append, ⟨digits, ⟨h.isDigit, hdigits⟩, Or.inl rfl⟩, hend, ?_⟩
  intro _ hfits
  exact hfraction (fractionFits_iff.mp hfits)

theorem IsDigitRun.recognize?_refused (h : IsDigitRun input digits rest) (hdigits : digits ≠ [])
    (hend : startsWithWordChar rest = true) : recognize? input = none := by
  obtain ⟨c, digits', rfl⟩ := List.exists_cons_of_ne_nil hdigits
  have hrest := (isDigitRun_iff.mp h).2
  rw [← h.append, List.cons_append] at hrest ⊢
  rw [recognize?_eq_none_iff (h.isDigit c List.mem_cons_self), ← hrest, hend]

end

/-! ## Values -/

/-- Digits with the places behind a point, without a point when there are no places. -/
def written (whole places : Text) : Text :=
  if places = [] then whole else whole ++ '.' :: places

theorem exists_written_of_isNumber {lexeme : Text} (h : IsNumber lexeme) :
    ∃ whole places, IsDigits whole ∧ (∀ c ∈ places, c.isDigit = true) ∧
      lexeme = written whole places := by
  obtain ⟨whole, hwhole, rfl | ⟨places, hplaces, rfl⟩⟩ := h
  · exact ⟨lexeme, [], hwhole, by simp, rfl⟩
  · exact ⟨whole, places, hwhole, hplaces.isDigit, by rw [written, if_neg hplaces.ne_nil]⟩

theorem decimal?_written (negative : Bool) {whole places : Text} (hwhole : IsDigits whole)
    (hplaces : ∀ c ∈ places, c.isDigit = true) :
    Numeral.decimal? negative (written whole places)
      = some (.decimal negative (Nat.ofDigitChars 10 (whole ++ places) 0) (-places.length)) := by
  have hcut (rest : Text) (hrest : rest.takeWhile Char.isDigit = []) :
      (whole ++ rest).takeWhile Char.isDigit = whole ∧
        (whole ++ rest).dropWhile Char.isDigit = rest :=
    ⟨takeWhile_digits_append hwhole.isDigit hrest, dropWhile_digits_append hwhole.isDigit hrest⟩
  by_cases hempty : places = []
  · subst hempty
    obtain ⟨htake, hdrop⟩ := hcut [] rfl
    rw [List.append_nil] at htake hdrop
    simp [Numeral.decimal?, written, htake, hdrop, Numeral.fraction, Numeral.exponent?,
      hwhole.ne_nil]
  · obtain ⟨htake, hdrop⟩ := hcut ('.' :: places) rfl
    have hall : places.takeWhile Char.isDigit = places ∧ places.dropWhile Char.isDigit = [] :=
      ⟨List.takeWhile_eq_self_iff.mpr hplaces, List.dropWhile_eq_nil_iff.mpr hplaces⟩
    simp [Numeral.decimal?, written, hempty, htake, hdrop, Numeral.fraction, hall,
      Numeral.exponent?]

/-- What is written as a number is a numeral. -/
theorem ofText?_written {whole places : Text} (hwhole : IsDigits whole)
    (hplaces : ∀ c ∈ places, c.isDigit = true) :
    Numeral.ofText? (written whole places)
      = some (.decimal false (Nat.ofDigitChars 10 (whole ++ places) 0) (-places.length)) := by
  obtain ⟨c, t, hhead, hc⟩ : ∃ c t, written whole places = c :: t ∧ c.isDigit = true := by
    obtain ⟨c, whole', rfl⟩ := List.exists_cons_of_ne_nil hwhole.ne_nil
    refine ⟨c, written whole' places, ?_, hwhole.isDigit c List.mem_cons_self⟩
    by_cases hempty : places = [] <;> simp [written, hempty]
  have hdecimal := decimal?_written false hwhole hplaces
  rw [hhead] at hdecimal ⊢
  simp only [Numeral.ofText?, Numeral.sign_of_isDigit hc, Numeral.word?_of_isDigit false hc,
    hdecimal]

theorem value?_written {whole places : Text} (hwhole : IsDigits whole)
    (hplaces : ∀ c ∈ places, c.isDigit = true) :
    value? (written whole places)
      = some (.ofDecimal false (Nat.ofDigitChars 10 (whole ++ places) 0) (-places.length)) := by
  rw [value?, ofText?_written hwhole hplaces]
  rfl

theorem exists_value? {lexeme : Text} (h : IsNumber lexeme) :
    ∃ value, value? lexeme = some value ∧ value.sign? = some false := by
  obtain ⟨whole, places, hwhole, hplaces, rfl⟩ := exists_written_of_isNumber h
  exact ⟨_, value?_written hwhole hplaces, Binary64.sign?_ofDecimal _ _ _⟩

/-- The lexeme of a number that is read is written as one. -/
theorem isNumber_of_reading {comments afterWord : Bool} {token : Token} {rest : Text}
    (h : Reading comments afterWord token rest) (hkind : token.kind = .number) :
    IsNumber token.lexeme := by
  have hclass : token.tokenClass = .numericLiteral := by rw [Token.tokenClass, hkind]; rfl
  obtain ⟨-, hnumber⟩ := h.recognize?_number hclass
  exact (recognize?_eq_some_iff.mp hnumber).2.1

/-- **Numbers are matched exactly and have values.** Every input begins with one longest run of
digits, maybe an empty one. Where it is empty there is no number. Where a fraction fits behind it,
the number ends with the fraction; otherwise it ends with the run, or is refused when a word
character follows the run. The numbers of a line all have values, which are not negative. -/
theorem recognize?_longest :
    (∀ input, ∃! run : Text × Text, IsDigitRun input run.1 run.2) ∧
    (∀ input digits rest, IsDigitRun input digits rest →
      (digits = [] → recognize? input = none) ∧
      (digits ≠ [] →
        (∀ places after, IsFraction rest places after →
          recognize? input = some (digits ++ '.' :: places, after)) ∧
        ((¬ ∃ places after, IsFraction rest places after) →
          (startsWithWordChar rest = false → recognize? input = some (digits, rest)) ∧
          (startsWithWordChar rest = true → recognize? input = none)))) ∧
    (∀ comments line, ∀ token ∈ scan (Rule.table comments) line, token.kind = .number →
      ∃ value, token.numberValue? = some value ∧ value ≠ .nan ∧ value.sign? = some false) := by
  refine ⟨?_, ?_, ?_⟩
  · intro input
    refine ⟨(input.takeWhile Char.isDigit, input.dropWhile Char.isDigit),
      isDigitRun_iff.mpr ⟨rfl, rfl⟩, ?_⟩
    rintro ⟨digits, rest⟩ hrun
    exact Prod.ext (isDigitRun_iff.mp hrun).1 (isDigitRun_iff.mp hrun).2
  · intro input digits rest hrun
    refine ⟨hrun.recognize?_empty, fun hdigits => ⟨?_, ?_⟩⟩
    · intro places after hfraction
      exact hrun.recognize?_fraction hdigits hfraction
    · intro hnone
      exact ⟨hrun.recognize?_whole hdigits hnone, hrun.recognize?_refused hdigits⟩
  · intro comments line token hmem hkind
    obtain ⟨afterWord, rest, hreads⟩ := (readable_scan _ line).exists_reads hmem
    obtain ⟨value, hvalue, hsign⟩ := exists_value? (isNumber_of_reading hreads.reading hkind)
    refine ⟨value, ?_, Binary64.ne_nan_of_sign? hsign, hsign⟩
    rw [Token.numberValue?, hkind, ← hvalue]

/-- A digit outside ASCII is a word character, so the fraction before it is given up. -/
theorem recognize?_longest_other_digit :
    recognize? ['1', '.', '2', '٣'] = some (['1'], ['.', '2', '٣']) := by
  have hdigits : ∀ c ∈ ['1'], c.isDigit = true := List.forall_mem_singleton.mpr rfl
  have hrun : IsDigitRun ['1', '.', '2', '٣'] ['1'] ['.', '2', '٣'] :=
    isDigitRun_append hdigits rfl
  have hnone : ¬ ∃ places after, IsFraction ['.', '2', '٣'] places after := by
    rintro ⟨places, after, h⟩
    obtain ⟨hfraction, hend⟩ := isFraction_iff.mp h
    obtain ⟨-, rfl⟩ := Prod.mk.inj (Option.some.inj hfraction)
    exact absurd hend (by decide)
  exact (((recognize?_longest.2.1 _ _ _ hrun).2 (by decide)).2 hnone).1 (by decide)

end NumericLiteral

end PseudocodeLexer
