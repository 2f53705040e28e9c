import PseudocodeLexer.Proofs.Blanks
import PseudocodeLexer.Proofs.SignRuns
import PseudocodeLexer.Proofs.StringPieces

/-!
# Unclassified characters

Where no word character stands, the class of the character there settles whether a rule takes it:
blanks, signs and marks are always taken, a quote is taken where it is closed, and whatever belongs
to no class is left over (`nextToken?_text_iff`). Neither what comes before nor the rule for comments
plays a part.
-/

namespace PseudocodeLexer

open Text

/-- Brackets and separators. -/
def marks : Text :=
  "{}[]();,:".toList

theorem operator_char_mem_signs (operator : Operator) : operator.char ∈ signs := by
  cases operator <;> decide

theorem mark_char_mem_marks (mark : Punctuation) : mark.char ∈ marks := by
  cases mark <;> decide

/-- A character that is neither a sign nor a mark begins no symbol. -/
theorem not_mem_symbols {c : Char} (hsign : Operator.ofChar? c = none)
    (hmark : Punctuation.ofChar? c = none) : c ∉ signs ++ marks := by
  have hsymbols : ((signs ++ marks).all fun d =>
      (Operator.ofChar? d).isSome || (Punctuation.ofChar? d).isSome) = true := by decide
  intro hc
  have hsymbol := List.all_eq_true.mp hsymbols c hc
  rw [hsign, hmark] at hsymbol
  exact absurd hsymbol (by decide)

section

variable {comments afterWord : Bool} {c : Char} {input : Text} {token : Token} {rest : Text}

theorem LongerSymbol.kind_ne_text {kind : Kind} {lexeme : Text}
    (h : LongerSymbol comments kind lexeme rest) : kind ≠ .text := by
  cases h <;> exact Kind.noConfusion

/-- What begins with a sign is classified. -/
theorem kind_ne_text_of_sign {operator : Operator}
    (h : nextToken? (Rule.table comments) afterWord (operator.char :: input) = some (token, rest)) :
    token.kind ≠ .text := by
  rw [nextToken?_sign] at h
  split at h
  · rename_i hfound
    cases h
    exact (longerSymbol_of_findSome? hfound).kind_ne_text
  · cases h
    exact Kind.noConfusion

/-- A quote is classified where it is closed. -/
theorem kind_eq_text_of_quote
    (h : nextToken? (Rule.table comments) afterWord ('"' :: input) = some (token, rest)) :
    token.kind = .text ↔ ['"'] ∉ StringLiteral.pieces input := by
  rw [← StringLiteral.exists_throughClosingQuote?_iff]
  rw [nextToken?_quote] at h
  split at h
  · rename_i body after hclose
    cases h
    exact iff_of_false Kind.noConfusion (not_not_intro ⟨body, rest, hclose⟩)
  · rename_i hopen
    cases h
    refine iff_of_true rfl ?_
    rintro ⟨body, after, hclose⟩
    rw [hopen] at hclose
    cases hclose

/-- Which characters are left over. -/
theorem nextToken?_text_iff (hword : isWordChar c = false)
    (h : nextToken? (Rule.table comments) afterWord (c :: input) = some (token, rest)) :
    token.kind = .text ↔
      (c = '"' ∧ ['"'] ∉ StringLiteral.pieces input) ∨
        (isBlank c = false ∧ c ≠ '"' ∧ c ∉ signs ++ marks) := by
  cases charClass c with
  | word hword' =>
      rw [hword] at hword'
      cases hword'
  | blank hblank =>
      have hquote : c ≠ '"' := ne_of_isBlank hblank (by decide)
      rw [nextToken?_blank hblank] at h
      cases h
      simp [hblank, hquote]
  | quote hquote =>
      subst hquote
      simp [kind_eq_text_of_quote h]
  | sign operator hsign =>
      subst hsign
      have hquote : operator.char ≠ '"' := by cases operator <;> decide
      simp [kind_ne_text_of_sign h, hquote, operator_char_mem_signs operator]
  | mark mark hmark =>
      subst hmark
      have hquote : mark.char ≠ '"' := by cases mark <;> decide
      rw [nextToken?_mark] at h
      cases h
      simp [hquote, mark_char_mem_marks mark]
  | stray _ hblank hquote hsign hmark =>
      rw [nextToken?_stray hword hblank hquote hsign hmark] at h
      cases h
      exact iff_of_true rfl (.inr ⟨hblank, hquote, not_mem_symbols hsign hmark⟩)

end

/-- **Only what no rule can take is left unclassified.** A token of a line that does not begin with
a word character is unclassified exactly if it is a quote behind which no other quote stands as a
piece of its own, or if it is no blank, no quote, no sign and no mark. -/
theorem scan_text_iff {comments : Bool} {line : Text} {before behind : List Token} {token : Token}
    {c : Char} {tail : Text} (h : scan (Rule.table comments) line = before ++ token :: behind)
    (hlexeme : token.lexeme = c :: tail) (hword : isWordChar c = false) :
    token.kind = .text ↔
      (c = '"' ∧ ['"'] ∉ StringLiteral.pieces (tail ++ covered behind)) ∨
        (isBlank c = false ∧ c ≠ '"' ∧ c ∉ signs ++ marks) := by
  have hreadable := readable_scan (Rule.table comments) line
  rw [h] at hreadable
  have hreads := hreadable.reads
  unfold Reads at hreads
  rw [hlexeme, List.cons_append] at hreads
  exact nextToken?_text_iff hword hreads

/-- A quote behind which the only other quote is the second half of an escape pair. -/
theorem scan_text_iff_escaped :
    scan (Rule.table true) ['b', '"', '\\', '"']
        = [⟨.identifier, ['b']⟩] ++ ⟨.text, ['"']⟩ :: [⟨.text, ['\\']⟩, ⟨.text, ['"']⟩] ∧
      ['"'] ∉ StringLiteral.pieces ['\\', '"'] := by
  have hscan : scan (Rule.table true) ['b', '"', '\\', '"']
      = [⟨.identifier, ['b']⟩] ++ ⟨.text, ['"']⟩ :: [⟨.text, ['\\']⟩, ⟨.text, ['"']⟩] := by
    decide +kernel
  refine ⟨hscan, ?_⟩
  rcases (scan_text_iff hscan rfl (by decide)).mp rfl with ⟨-, hopen⟩ | ⟨-, hquote, -⟩
  · exact hopen
  · exact absurd rfl hquote

end PseudocodeLexer
