import PseudocodeLexer.Text.Quoted

/-!
# Quoted text is read back

A quoted text never breaks its line: line feeds, carriage returns and tabs are always escaped
(`not_mem_quoted`). The written form of each character tells where it ends, since a backslash says
what comes behind it and the hexadecimal digits of a code point stop at a brace. So the first
character can be read off whatever follows it (`unquoteChar?_quoteChar`), and by induction the whole
text is read back (`unquote?_quoted`), even one that looks like escapes itself.
-/

namespace PseudocodeLexer.Text

/-! ## Digits -/

theorem exists_digitChar_of_mem_toDigits {base n : Nat} (hbase : 1 < base) {c : Char}
    (h : c ∈ Nat.toDigits base n) : ∃ digit < base, c = digit.digitChar := by
  induction n using Nat.strongRecOn with
  | ind n ih =>
      rw [Nat.toDigits_eq_if hbase] at h
      split at h
      · rename_i hlt
        exact ⟨n, hlt, List.mem_singleton.mp h⟩
      · rcases List.mem_append.mp h with h | h
        · exact ih (n / base) (Nat.div_lt_self (by omega) hbase) h
        · exact ⟨n % base, Nat.mod_lt n (by omega), List.mem_singleton.mp h⟩

theorem isDigit_of_mem_decimal {n : Nat} {c : Char} (h : c ∈ decimal n) : c.isDigit = true :=
  Nat.isDigit_of_mem_toDigits (by decide) (by decide) h

/-- The number that is written in decimal digits, if it is. -/
def readDecimal? (t : Text) : Option Nat :=
  if !t.isEmpty && t.all Char.isDigit then some (Nat.ofDigitChars 10 t 0) else none

theorem readDecimal?_decimal (n : Nat) : readDecimal? (decimal n) = some n := by
  have hdigits : (!(decimal n).isEmpty && (decimal n).all Char.isDigit) = true := by
    rw [Bool.and_eq_true, Bool.not_eq_true', List.isEmpty_eq_false_iff, List.all_eq_true]
    exact ⟨Nat.toDigits_ne_nil, fun _ => isDigit_of_mem_decimal⟩
  rw [readDecimal?, if_pos hdigits, decimal, Nat.ofDigitChars_ten_toDigits]

def hexDigitValue (c : Char) : Nat :=
  if c.isDigit then c.toNat - '0'.toNat else c.toNat - 'a'.toNat + 10

/-- The number with these hexadecimal digits. -/
def hexValue (digits : Text) : Nat :=
  digits.foldl (fun n c => 16 * n + hexDigitValue c) 0

theorem hexDigitValue_digitChar : ∀ digit < 16, hexDigitValue digit.digitChar = digit := by
  decide

theorem hexValue_toDigits (n : Nat) : hexValue (Nat.toDigits 16 n) = n := by
  induction n using Nat.strongRecOn with
  | ind n ih =>
      rw [Nat.toDigits_eq_if (by decide)]
      split
      · rename_i hlt
        simp [hexValue, hexDigitValue_digitChar n hlt]
      · have hhigh := ih (n / 16) (by omega)
        have hlow := hexDigitValue_digitChar (n % 16) (by omega)
        unfold hexValue at hhigh ⊢
        rw [List.foldl_append, hhigh, List.foldl_cons, List.foldl_nil, hlow]
        omega

theorem ne_of_mem_hexDigits {n : Nat} {c : Char} (h : c ∈ Nat.toDigits 16 n) :
    c ≠ '}' ∧ c ≠ '\n' ∧ c ≠ '\r' ∧ c ≠ '\t' := by
  obtain ⟨digit, hlt, rfl⟩ := exists_digitChar_of_mem_toDigits (by decide) h
  have hall : ∀ digit < 16, digit.digitChar ≠ '}' ∧ digit.digitChar ≠ '\n' ∧
      digit.digitChar ≠ '\r' ∧ digit.digitChar ≠ '\t' := by decide
  exact hall digit hlt

/-! ## Written forms of characters -/

/-- The characters with an escape of two characters, and its second one. -/
def letterEscapes : List (Char × Char) :=
  [('\x00', '0'), ('\t', 't'), ('\r', 'r'), ('\n', 'n'), ('\\', '\\'), ('"', '"')]

/-- The characters at which lines and their columns are cut. -/
def isSeparator (c : Char) : Bool :=
  c = '\n' || c = '\r' || c = '\t'

/-- A character is written as an escape of two characters, as its code point, or as itself. -/
theorem quoteChar_cases (c : Char) :
    (∃ letter, (c, letter) ∈ letterEscapes ∧ quoteChar c = ['\\', letter]) ∨
    quoteChar c = '\\' :: 'u' :: '{' :: (Nat.toDigits 16 c.toNat ++ ['}']) ∨
    (c ≠ '\\' ∧ isSeparator c = false ∧ quoteChar c = [c]) := by
  by_cases hletter : ∃ letter, (c, letter) ∈ letterEscapes
  · obtain ⟨letter, hmem⟩ := hletter
    refine .inl ⟨letter, hmem, ?_⟩
    simp only [letterEscapes, List.mem_cons, Prod.mk.injEq, List.not_mem_nil, or_false] at hmem
    rcases hmem with ⟨rfl, rfl⟩ | ⟨rfl, rfl⟩ | ⟨rfl, rfl⟩ | ⟨rfl, rfl⟩ | ⟨rfl, rfl⟩ | ⟨rfl, rfl⟩ <;>
      rfl
  · simp only [letterEscapes, List.mem_cons, Prod.mk.injEq, List.not_mem_nil, or_false,
      exists_or, exists_eq_right, not_or] at hletter
    obtain ⟨hnull, htab, hreturn, hlineFeed, hbackslash, hquote⟩ := hletter
    by_cases hcode : needsCodePoint c = true
    · refine .inr (.inl ?_)
      simp [quoteChar, hnull, htab, hreturn, hlineFeed, hbackslash, hquote, hcode]
    · refine .inr (.inr ⟨hbackslash, ?_, ?_⟩)
      · simp [isSeparator, hlineFeed, hreturn, htab]
      · simp [quoteChar, hnull, htab, hreturn, hlineFeed, hbackslash, hquote, hcode]

/-! ## No breaks -/

theorem not_isSeparator_of_mem_quoteChar {c x : Char} (h : x ∈ quoteChar c) :
    isSeparator x = false := by
  rcases quoteChar_cases c with ⟨letter, hmem, hform⟩ | hform | ⟨-, hplain, hform⟩
  · have hletters : ∀ escape ∈ letterEscapes, isSeparator escape.2 = false := by decide
    simp only [hform, List.mem_cons, List.not_mem_nil, or_false] at h
    rcases h with rfl | rfl
    · decide
    · exact hletters _ hmem
  · simp only [hform, List.mem_cons, List.mem_append, List.not_mem_nil, or_false] at h
    rcases h with rfl | rfl | rfl | h | rfl
    · decide
    · decide
    · decide
    · simp [isSeparator, ne_of_mem_hexDigits h]
    · decide
  · rw [hform, List.mem_singleton] at h
    rwa [h]

/-- Quoted text has no character at which a line or a column would end. -/
theorem not_mem_quoted {t : Text} {x : Char} (h : isSeparator x = true) : x ∉ quoted t := by
  intro hmem
  simp only [quoted, List.mem_cons, List.mem_append, List.mem_flatMap, List.not_mem_nil,
    or_false] at hmem
  rcases hmem with rfl | ⟨c, -, hmem⟩ | rfl
  · cases h
  · rw [not_isSeparator_of_mem_quoteChar hmem] at h
    cases h
  · cases h

/-! ## Reading back -/

/-- The character whose written form comes first, and the rest behind it. -/
def unquoteChar? : Text → Option (Char × Text)
  | [] => none
  | '\\' :: '0' :: rest => some ('\x00', rest)
  | '\\' :: 't' :: rest => some ('\t', rest)
  | '\\' :: 'r' :: rest => some ('\r', rest)
  | '\\' :: 'n' :: rest => some ('\n', rest)
  | '\\' :: 'u' :: '{' :: rest =>
      some (Char.ofNat (hexValue (rest.takeWhile (· ≠ '}'))), (rest.dropWhile (· ≠ '}')).tail)
  | '\\' :: c :: rest => some (c, rest)
  | c :: rest => some (c, rest)

theorem unquoteChar?_quoteChar (c : Char) (rest : Text) :
    unquoteChar? (quoteChar c ++ rest) = some (c, rest) := by
  rcases quoteChar_cases c with ⟨letter, hmem, hform⟩ | hform | ⟨hbackslash, -, hform⟩
  · rw [hform]
    simp only [letterEscapes, List.mem_cons, Prod.mk.injEq, List.not_mem_nil, or_false] at hmem
    rcases hmem with ⟨rfl, rfl⟩ | ⟨rfl, rfl⟩ | ⟨rfl, rfl⟩ | ⟨rfl, rfl⟩ | ⟨rfl, rfl⟩ | ⟨rfl, rfl⟩ <;>
      rfl
  · -- The digits of a code point stop at the brace.
    have hdigits : ∀ d ∈ Nat.toDigits 16 c.toNat, decide (d ≠ '}') = true := by
      intro d hmem
      simpa using (ne_of_mem_hexDigits hmem).1
    have happend : quoteChar c ++ rest
        = '\\' :: 'u' :: '{' :: (Nat.toDigits 16 c.toNat ++ '}' :: rest) := by simp [hform]
    rw [happend, unquoteChar?, List.takeWhile_append_of_pos hdigits,
      List.dropWhile_append_of_pos hdigits]
    simp [hexValue_toDigits]
  · rw [hform, List.singleton_append, unquoteChar?]
    all_goals simp [hbackslash]

theorem quoteChar_ne_nil (c : Char) : quoteChar c ≠ [] := by
  intro hnil
  have hfirst := unquoteChar?_quoteChar c []
  rw [hnil] at hfirst
  cases hfirst

theorem length_lt_of_unquoteChar? {input rest : Text} {c : Char}
    (h : unquoteChar? input = some (c, rest)) : rest.length < input.length := by
  unfold unquoteChar? at h
  split at h <;> cases h
  case h_6 digits =>
    have hle : (digits.dropWhile (· ≠ '}')).length ≤ digits.length :=
      (List.dropWhile_suffix _).length_le
    simp only [List.length_tail, List.length_cons]
    omega
  all_goals simp only [List.length_cons]; omega

/-- The text that is written in front of a last quote. -/
def unquoteBody? (input : Text) : Option Text :=
  if input = ['"'] then some []
  else match _ : unquoteChar? input with
    | none => none
    | some (c, rest) => (unquoteBody? rest).map (c :: ·)
termination_by input.length
decreasing_by exact length_lt_of_unquoteChar? ‹_›

/-- Written characters are read one by one up to the last quote, which stands alone. -/
theorem unquoteBody?_flatMap (t : Text) : unquoteBody? (t.flatMap quoteChar ++ ['"']) = some t := by
  induction t with
  | nil =>
      rw [unquoteBody?]
      rfl
  | cons c t ih =>
      have hfirst := unquoteChar?_quoteChar c (t.flatMap quoteChar ++ ['"'])
      have hlonger : quoteChar c ++ (t.flatMap quoteChar ++ ['"']) ≠ ['"'] := by
        intro halone
        have hlength := congrArg List.length halone
        have hpos := List.length_pos_iff.mpr (quoteChar_ne_nil c)
        simp only [List.length_append, List.length_cons, List.length_nil] at hlength
        omega
      rw [List.flatMap_cons, List.append_assoc, unquoteBody?, if_neg hlonger]
      split
      · rename_i hnone
        rw [hfirst] at hnone
        cases hnone
      · rename_i d rest hsome
        rw [hfirst] at hsome
        cases hsome
        rw [ih, Option.map_some]

/-- The text that stands between quotes. -/
def unquote? : Text → Option Text
  | '"' :: body => unquoteBody? body
  | _ => none

theorem unquote?_quoted (t : Text) : unquote? (quoted t) = some t :=
  unquoteBody?_flatMap t

end PseudocodeLexer.Text
