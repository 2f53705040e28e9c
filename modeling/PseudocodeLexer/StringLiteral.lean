import PseudocodeLexer.Text.Basic

/-!
# String literals

A string literal stands between double quotes. Inside it a backslash takes the next character with
it, whatever that is, so an escaped quote does not end the literal. A quote that is never closed
starts no literal.

The value of a literal has one character for each plain character or escape pair between the
quotes. A lexeme that is not enclosed in quotes is read as if it were the text between them.
-/

namespace PseudocodeLexer.StringLiteral

open Text

/-- Splits off the text up to and including the first quote that no backslash escapes. -/
def throughClosingQuote? : Text → Option (Text × Text)
  | [] => none
  | '"' :: rest => some (['"'], rest)
  | '\\' :: c :: rest =>
      match throughClosingQuote? rest with
      | none => none
      | some (body, after) => some ('\\' :: c :: body, after)
  | c :: rest =>
      match throughClosingQuote? rest with
      | none => none
      | some (body, after) => some (c :: body, after)

theorem throughClosingQuote?_append {input body after : Text}
    (h : throughClosingQuote? input = some (body, after)) : body ++ after = input := by
  fun_induction throughClosingQuote? input generalizing body with
  | case1 => simp at h
  | case2 rest =>
      simp only [Option.some.injEq, Prod.mk.injEq] at h
      obtain ⟨rfl, rfl⟩ := h
      rfl
  | case3 => simp at h
  | case4 c rest b a hrest ih =>
      simp only [Option.some.injEq, Prod.mk.injEq] at h
      obtain ⟨rfl, rfl⟩ := h
      simp [ih hrest]
  | case5 => simp at h
  | case6 c rest _ _ b a hrest ih =>
      simp only [Option.some.injEq, Prod.mk.injEq] at h
      obtain ⟨rfl, rfl⟩ := h
      simp [ih hrest]

/-- A string literal at the start of the input, and the rest. -/
def recognize? : Text → Option (Text × Text)
  | '"' :: rest =>
      match throughClosingQuote? rest with
      | none => none
      | some (body, after) => some ('"' :: body, after)
  | _ => none

theorem recognize?_cut {input literal rest : Text}
    (h : recognize? input = some (literal, rest)) : Cut input literal rest := by
  unfold recognize? at h
  split at h
  · split at h
    · simp at h
    · rename_i hclose
      simp only [Option.some.injEq, Prod.mk.injEq] at h
      obtain ⟨rfl, rfl⟩ := h
      exact ⟨by simp [throughClosingQuote?_append hclose], by simp⟩
  · simp at h

/-! ## Values -/

/-- The character that a backslash and this character stand for. -/
def escaped (c : Char) : Char :=
  if c = 'n' then '\n'
  else if c = 't' then '\t'
  else if c = 'r' then '\r'
  else c

/-- Resolves escape pairs; a backslash at the very end stands for itself. -/
def unescape : Text → Text
  | [] => []
  | '\\' :: c :: rest => escaped c :: unescape rest
  | c :: rest => c :: unescape rest

/-- The text between the quotes, or the whole lexeme when it has no quote at either end. -/
def unquoted (lexeme : Text) : Text :=
  match lexeme with
  | '"' :: body => if body.getLast? = some '"' then body.dropLast else lexeme
  | _ => lexeme

def value (lexeme : Text) : Text :=
  unescape (unquoted lexeme)

end PseudocodeLexer.StringLiteral
