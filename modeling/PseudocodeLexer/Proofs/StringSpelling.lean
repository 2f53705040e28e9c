import PseudocodeLexer.Proofs.Delimited
import PseudocodeLexer.Proofs.NextToken

/-!
# Spelling string values

Between the quotes of a literal a character can be written as itself or behind a backslash, and a
line feed, a tab and a carriage return also as a letter behind one. `Spells` relates a value to all
the texts that write it so. The search for the closing quote and the decoding of the value are two
recursions over the same text, and both cut it into the same pieces: a plain character or a
backslash with the character behind it (`SpellsChar.plain_or_escape`). So a spelled literal is taken
whole, whatever comes behind it, and its value is the one that was spelled (`scan_spelled`).
-/

namespace PseudocodeLexer.StringLiteral

open Text

/-- The ways to write a character between quotes. -/
inductive SpellsChar : Char → Text → Prop where
  | plain {c : Char} : c ≠ '"' → c ≠ '\\' → SpellsChar c [c]
  | escape {c : Char} : c ≠ 'n' → c ≠ 't' → c ≠ 'r' → SpellsChar c ['\\', c]
  | lineFeed : SpellsChar '\n' ['\\', 'n']
  | tab : SpellsChar '\t' ['\\', 't']
  | carriageReturn : SpellsChar '\r' ['\\', 'r']

/-- The second text writes the first, character by character. -/
inductive Spells : Text → Text → Prop where
  | nil : Spells [] []
  | cons {c : Char} {piece value body : Text} : SpellsChar c piece → Spells value body →
      Spells (c :: value) (piece ++ body)

/-- The lexeme of the literal with this text between its quotes. -/
def enclosed (body : Text) : Text :=
  '"' :: (body ++ ['"'])

/-- A piece is a plain character or an escape pair that stands for the character. -/
theorem SpellsChar.plain_or_escape {c : Char} {piece : Text} (h : SpellsChar c piece) :
    (piece = [c] ∧ c ≠ '"' ∧ c ≠ '\\') ∨ ∃ d, piece = ['\\', d] ∧ escaped d = c := by
  cases h with
  | plain hquote hbackslash => exact .inl ⟨rfl, hquote, hbackslash⟩
  | escape hn ht hr => exact .inr ⟨c, rfl, by simp [escaped, hn, ht, hr]⟩
  | lineFeed => exact .inr ⟨'n', rfl, rfl⟩
  | tab => exact .inr ⟨'t', rfl, rfl⟩
  | carriageReturn => exact .inr ⟨'r', rfl, rfl⟩

theorem exists_spellsChar (c : Char) : ∃ piece, SpellsChar c piece := by
  by_cases hquote : c = '"'
  · subst c
    exact ⟨_, .escape (by decide) (by decide) (by decide)⟩
  · by_cases hbackslash : c = '\\'
    · subst c
      exact ⟨_, .escape (by decide) (by decide) (by decide)⟩
    · exact ⟨_, .plain hquote hbackslash⟩

theorem exists_spells (value : Text) : ∃ body, Spells value body := by
  induction value with
  | nil => exact ⟨_, .nil⟩
  | cons c value ih =>
      obtain ⟨piece, hpiece⟩ := exists_spellsChar c
      obtain ⟨body, hbody⟩ := ih
      exact ⟨_, .cons hpiece hbody⟩

section

variable {value body : Text}

/-- The search for the closing quote passes over everything that was spelled. -/
theorem throughClosingQuote?_of_spells (h : Spells value body) (rest : Text) :
    throughClosingQuote? (body ++ '"' :: rest) = some (body ++ ['"'], rest) := by
  induction h with
  | nil => rfl
  | cons hpiece _ ih =>
      rcases hpiece.plain_or_escape with ⟨rfl, hquote, hbackslash⟩ | ⟨d, rfl, -⟩
      · rw [List.append_assoc, List.singleton_append,
          throughClosingQuote?_cons hquote hbackslash, ih]
        rfl
      · rw [List.append_assoc, List.cons_append, List.singleton_append,
          throughClosingQuote?_escape, ih]
        rfl

theorem unescape_cons {c : Char} (h : c ≠ '\\') (rest : Text) :
    unescape (c :: rest) = c :: unescape rest := by
  rw [unescape]
  exact fun _ _ hc _ => h hc

/-- Resolving the escapes of what was spelled gives the value back. -/
theorem unescape_of_spells (h : Spells value body) : unescape body = value := by
  induction h with
  | nil => rfl
  | cons hpiece _ ih =>
      rcases hpiece.plain_or_escape with ⟨rfl, -, hbackslash⟩ | ⟨d, rfl, rfl⟩
      · rw [List.singleton_append, unescape_cons hbackslash, ih]
      · rw [List.cons_append, List.singleton_append, unescape, ih]

theorem unquoted_enclosed (body : Text) : unquoted (enclosed body) = body := by
  simp [unquoted, enclosed]

theorem value_enclosed (h : Spells value body) : StringLiteral.value (enclosed body) = value := by
  rw [StringLiteral.value, unquoted_enclosed, unescape_of_spells h]

/-- A literal is read where its spelling stands, in front of any text. -/
theorem reads_enclosed {comments afterWord : Bool} (h : Spells value body) (rest : Text) :
    Reads (Rule.table comments) afterWord ⟨.string, enclosed body⟩ rest := by
  show nextToken? _ _ (enclosed body ++ rest) = _
  have hclose := throughClosingQuote?_of_spells h rest
  rw [enclosed, List.cons_append, List.append_assoc, List.singleton_append, nextToken?_quote,
    hclose]

end

/-- **Every value can be written as a literal and reads back.** In whatever way a value is spelled
between quotes and whatever text comes behind them, the first token is the literal, its value is
the one that was spelled, and the text behind it is scanned as if it stood alone. -/
theorem scan_spelled (comments : Bool) (value : Text) :
    (∃ body, Spells value body) ∧
    ∀ body rest, Spells value body →
      scan (Rule.table comments) (enclosed body ++ rest)
          = ⟨.string, enclosed body⟩ :: scan (Rule.table comments) rest ∧
        Token.stringValue? ⟨.string, enclosed body⟩ = some value := by
  refine ⟨exists_spells value, ?_⟩
  intro body rest hspells
  have hend : endsWithWordChar (enclosed body) = false := by
    rw [enclosed, ← List.cons_append, endsWithWordChar_append (by simp)]
    decide
  constructor
  · have hreads : Reads (Rule.table comments) false ⟨.string, enclosed body⟩ rest :=
      reads_enclosed hspells rest
    rw [scan, scanFrom_of_nextToken? hreads, hend, scan]
  · show some (StringLiteral.value (enclosed body)) = some value
    rw [value_enclosed hspells]

/-- A quote and a line feed behind backslashes, in front of a quote that is never closed. -/
theorem scan_spelled_escapes :
    Spells ['"', '\n'] ['\\', '"', '\\', 'n'] ∧
      scan (Rule.table true) (enclosed ['\\', '"', '\\', 'n'] ++ ['"'])
        = ⟨.string, enclosed ['\\', '"', '\\', 'n']⟩ :: scan (Rule.table true) ['"'] ∧
      Token.stringValue? ⟨.string, enclosed ['\\', '"', '\\', 'n']⟩ = some ['"', '\n'] := by
  have hspells : Spells ['"', '\n'] ['\\', '"', '\\', 'n'] :=
    .cons (.escape (by decide) (by decide) (by decide)) (.cons .lineFeed .nil)
  exact ⟨hspells, (scan_spelled true ['"', '\n']).2 _ _ hspells⟩

end PseudocodeLexer.StringLiteral
