import PseudocodeLexer.Comment
import PseudocodeLexer.StringLiteral

/-!
# Lexemes with a closing mark

A string and a block comment run to their closing mark. What stands behind the mark plays no part
in the search for it: text can be added there (`…_append_right`) or taken away (`…_body`). The
lexeme itself ends in the mark.
-/

namespace PseudocodeLexer

open Text

theorem throughBlockClose?_append_right {input body after : Text} (t : Text)
    (h : throughBlockClose? input = some (body, after)) :
    throughBlockClose? (input ++ t) = some (body, after ++ t) := by
  fun_induction throughBlockClose? input generalizing body with
  | case1 => cases h
  | case2 rest =>
      cases h
      rfl
  | case3 => cases h
  | case4 c rest hmark b a hrest ih =>
      cases h
      -- The text added does not complete a mark, for the rest reaches one of its own.
      have hcons : c = '*' → ∀ rest', rest ++ t ≠ '/' :: rest' := by
        rintro rfl rest' heq
        cases rest with
        | nil => cases hrest
        | cons d rest =>
            obtain ⟨rfl, -⟩ := List.cons.inj heq
            exact hmark rest rfl rfl
      rw [List.cons_append, throughBlockClose?, ih hrest]
      exact fun rest' hc heq => hcons hc rest' heq

theorem throughBlockClose?_body {input body after : Text}
    (h : throughBlockClose? input = some (body, after)) :
    throughBlockClose? body = some (body, []) := by
  fun_induction throughBlockClose? input generalizing body with
  | case1 => cases h
  | case2 rest =>
      cases h
      rfl
  | case3 => cases h
  | case4 c rest hmark b a hrest ih =>
      cases h
      rw [throughBlockClose?, ih hrest]
      rintro rest' rfl rfl
      have happend := throughBlockClose?_append hrest
      exact hmark (rest' ++ after) rfl happend.symm

/-- What is taken as a block comment is taken whatever comes behind it. -/
theorem throughBlockClose?_exchange {body rest : Text} (rest' : Text)
    (h : throughBlockClose? (body ++ rest) = some (body, rest)) :
    throughBlockClose? (body ++ rest') = some (body, rest') :=
  throughBlockClose?_append_right rest' (throughBlockClose?_body h)

theorem exists_eq_append_of_throughBlockClose? {input body after : Text}
    (h : throughBlockClose? input = some (body, after)) : ∃ inner, body = inner ++ ['/'] := by
  fun_induction throughBlockClose? input generalizing body with
  | case1 => cases h
  | case2 rest =>
      cases h
      exact ⟨['*'], rfl⟩
  | case3 => cases h
  | case4 c rest hmark b a hrest ih =>
      cases h
      obtain ⟨inner, rfl⟩ := ih hrest
      exact ⟨c :: inner, rfl⟩

namespace StringLiteral

/-- The search for the closing quote passes over a plain character. -/
theorem throughClosingQuote?_cons {c : Char} (hquote : c ≠ '"') (hbackslash : c ≠ '\\')
    (rest : Text) : throughClosingQuote? (c :: rest)
      = (throughClosingQuote? rest).map fun (body, after) => (c :: body, after) := by
  rw [throughClosingQuote?]
  · cases throughClosingQuote? rest <;> rfl
  · exact hquote
  · exact fun _ _ hc _ => hbackslash hc

/-- It passes over a backslash together with the character behind it. -/
theorem throughClosingQuote?_escape (c : Char) (rest : Text) :
    throughClosingQuote? ('\\' :: c :: rest)
      = (throughClosingQuote? rest).map fun (body, after) => ('\\' :: c :: body, after) := by
  rw [throughClosingQuote?]
  cases throughClosingQuote? rest <;> rfl

/-- A backslash at the very end closes nothing. -/
theorem ne_backslash_of_throughClosingQuote? {c : Char} {rest : Text} {found : Text × Text}
    (hescape : ∀ d rest', c = '\\' → rest = d :: rest' → False)
    (hrest : throughClosingQuote? rest = some found) : c ≠ '\\' := by
  rintro rfl
  cases rest with
  | nil => cases hrest
  | cons d rest => exact hescape d rest rfl rfl

theorem throughClosingQuote?_append_right {input body after : Text} (t : Text)
    (h : throughClosingQuote? input = some (body, after)) :
    throughClosingQuote? (input ++ t) = some (body, after ++ t) := by
  fun_induction throughClosingQuote? input generalizing body with
  | case1 => cases h
  | case2 rest =>
      cases h
      rfl
  | case3 => cases h
  | case4 c rest b a hrest ih =>
      cases h
      simp [throughClosingQuote?, ih hrest]
  | case5 => cases h
  | case6 c rest hquote hescape b a hrest ih =>
      cases h
      have hbackslash := ne_backslash_of_throughClosingQuote? hescape hrest
      rw [List.cons_append, throughClosingQuote?, ih hrest]
      · exact hquote
      · exact fun _ _ hc _ => hbackslash hc

theorem throughClosingQuote?_body {input body after : Text}
    (h : throughClosingQuote? input = some (body, after)) :
    throughClosingQuote? body = some (body, []) := by
  fun_induction throughClosingQuote? input generalizing body with
  | case1 => cases h
  | case2 rest =>
      cases h
      rfl
  | case3 => cases h
  | case4 c rest b a hrest ih =>
      cases h
      simp [throughClosingQuote?, ih hrest]
  | case5 => cases h
  | case6 c rest hquote hescape b a hrest ih =>
      cases h
      have hbackslash := ne_backslash_of_throughClosingQuote? hescape hrest
      rw [throughClosingQuote?, ih hrest]
      · exact hquote
      · exact fun _ _ hc _ => hbackslash hc

/-- What is taken as a string up to its closing quote is taken whatever comes behind it. -/
theorem throughClosingQuote?_exchange {body rest : Text} (rest' : Text)
    (h : throughClosingQuote? (body ++ rest) = some (body, rest)) :
    throughClosingQuote? (body ++ rest') = some (body, rest') :=
  throughClosingQuote?_append_right rest' (throughClosingQuote?_body h)

theorem exists_eq_append_of_throughClosingQuote? {input body after : Text}
    (h : throughClosingQuote? input = some (body, after)) : ∃ inner, body = inner ++ ['"'] := by
  fun_induction throughClosingQuote? input generalizing body with
  | case1 => cases h
  | case2 rest =>
      cases h
      exact ⟨[], rfl⟩
  | case3 => cases h
  | case4 c rest b a hrest ih =>
      cases h
      obtain ⟨inner, rfl⟩ := ih hrest
      exact ⟨'\\' :: c :: inner, rfl⟩
  | case5 => cases h
  | case6 c rest hquote hescape b a hrest ih =>
      cases h
      obtain ⟨inner, rfl⟩ := ih hrest
      exact ⟨c :: inner, rfl⟩

end StringLiteral

end PseudocodeLexer
