import PseudocodeLexer.Proofs.Respelling

/-!
# Names

A name is read only where no keyword stands as a whole word (`Reading.identifier`). What comes
before the first apostrophe of a name is followed by that apostrophe or by the end of the name, so a
keyword spelled there would stand as a whole word (`nameStem_not_mem_keywordWords`). The
apostrophes that a name gives back are the only characters behind it that it could have gone on
with (`EndsIdentifier.exists_apostrophes`).
-/

namespace PseudocodeLexer

open Text

/-- The part of a name before its first apostrophe. -/
def nameStem (lexeme : Text) : Text :=
  lexeme.takeWhile (· != '\'')

/-! ## Shape -/

theorem IsIdentifier.endsWithWordChar {lexeme : Text} (h : IsIdentifier lexeme) :
    endsWithWordChar lexeme = true := by
  obtain ⟨c, tail, hcons, -⟩ := h.start
  have hne : lexeme ≠ [] := by simp [hcons]
  have hlast := List.getLast?_eq_some_getLast hne
  have hcontinues := h.continues _ (List.getLast_mem hne)
  have hnot : lexeme.getLast hne ≠ '\'' := by
    intro heq
    exact h.getLast?_ne (by rw [hlast, heq])
  unfold PseudocodeLexer.endsWithWordChar
  rw [hlast, Option.any_some]
  simpa [isIdentifierContinue, hnot] using hcontinues

/-- Where a name ends there may be apostrophes, and behind them nothing that it could go on with. -/
theorem EndsIdentifier.exists_apostrophes {rest : Text} (h : EndsIdentifier rest) :
    ∃ n after, rest = List.replicate n '\'' ++ after ∧
      ∀ c ∈ after.head?, isWordChar c = false ∧ c ≠ '\'' := by
  have hsplit : rest.takeWhile (· == '\'') ++ rest.dropWhile (· == '\'') = rest :=
    List.takeWhile_append_dropWhile
  have hrun : rest.takeWhile (· == '\'')
      = List.replicate (rest.takeWhile (· == '\'')).length '\'' := by
    refine List.eq_replicate_of_mem ?_
    intro c hc
    simpa using List.mem_takeWhile_imp hc
  refine ⟨_, rest.dropWhile (· == '\''), by rw [← hrun, hsplit], ?_⟩
  intro c hc
  constructor
  · obtain ⟨after, hafter⟩ := List.head?_eq_some_iff.mp hc
    unfold EndsIdentifier at h
    rwa [hafter] at h
  · have hhead := List.head?_dropWhile_not (· == '\'') rest
    rw [hc] at hhead
    simpa using hhead

/-! ## No keyword -/

theorem kind_ne_identifier_of_mem_keywordWords :
    ∀ word ∈ keywordWords, (wordToken word).kind ≠ .identifier := by
  decide +kernel

section

variable {comments afterWord : Bool} {token : Token} {lexeme rest : Text}

/-- A name is read where no keyword is found. -/
theorem Reading.identifier (h : Reading comments afterWord token rest)
    (hkind : token.kind = .identifier) :
    wholeWord? keywordWords (token.lexeme ++ rest) = none ∧
      identifier? (token.lexeme ++ rest) = some (token.lexeme, rest) := by
  cases h with
  | word hword =>
      rcases Option.or_eq_some_iff.mp hword with hkeyword | hname
      · exact absurd hkind (kind_ne_identifier_of_mem_keywordWords _ (wholeWord?_mem hkeyword))
      · exact hname
  | longer hlonger => cases hlonger <;> cases hkind
  | number | stray | blanks | string | sign | mark => cases hkind

/-- No word character stands behind the stem of a name that ends where a name can end. -/
theorem standsAt_nameStem (hrest : EndsIdentifier rest) :
    standsAt (nameStem lexeme) (lexeme ++ rest) = true := by
  have hsplit : nameStem lexeme ++ lexeme.dropWhile (· != '\'') = lexeme :=
    List.takeWhile_append_dropWhile
  refine standsAt_iff.mpr ⟨lexeme.dropWhile (· != '\'') ++ rest, ?_, ?_⟩
  · rw [← List.append_assoc, hsplit]
  · cases hdrop : lexeme.dropWhile (· != '\'') with
    | nil => exact hrest.not_startsWithWordChar
    | cons c tail =>
        have hhead := List.head?_dropWhile_not (· != '\'') lexeme
        rw [hdrop] at hhead
        obtain rfl : c = '\'' := by simpa using hhead
        exact not_isWordChar_apostrophe

theorem nameStem_not_mem_keywordWords (hnone : wholeWord? keywordWords (lexeme ++ rest) = none)
    (hrest : EndsIdentifier rest) : nameStem lexeme ∉ keywordWords := by
  intro hmem
  have hstands : standsAt (nameStem lexeme) (lexeme ++ rest) = true := standsAt_nameStem hrest
  rw [wholeWord?_eq_none_iff.mp hnone _ hmem] at hstands
  exact Bool.noConfusion hstands

end

/-- **Names are as long as can be and hide no keyword.** Every identifier of a line begins with a
letter or an underscore, goes on with word characters and apostrophes and ends in a word character.
Behind it there may be apostrophes, and then nothing that could be a part of it. What it has before
its first apostrophe is not spelled like a keyword. -/
theorem scan_names {comments : Bool} {line : Text} {before behind : List Token} {token : Token}
    (h : scan (Rule.table comments) line = before ++ token :: behind)
    (hkind : token.kind = .identifier) :
    (∃ c tail, token.lexeme = c :: tail ∧ (isAlphabetic c = true ∨ c = '_')) ∧
    (∀ c ∈ token.lexeme, isWordChar c = true ∨ c = '\'') ∧
    endsWithWordChar token.lexeme = true ∧
    (∃ n after, covered behind = List.replicate n '\'' ++ after ∧
      ∀ c ∈ after.head?, isWordChar c = false ∧ c ≠ '\'') ∧
    (∀ kind : Kind, nameStem token.lexeme ∉ kind.spellings) := by
  have hreadable := readable_scan (Rule.table comments) line
  rw [h] at hreadable
  obtain ⟨hnone, hname⟩ := hreadable.reads.reading.identifier hkind
  obtain ⟨-, hidentifier, hends⟩ := identifier?_eq_some_iff.mp hname
  refine ⟨?_, ?_, hidentifier.endsWithWordChar, hends.exists_apostrophes, ?_⟩
  · obtain ⟨c, tail, hlexeme, hstart⟩ := hidentifier.start
    exact ⟨c, tail, hlexeme, by simpa [isIdentifierStart] using hstart⟩
  · intro c hc
    simpa [isIdentifierContinue] using hidentifier.continues c hc
  · intro kind hspelling
    have hword := (kind.spellings_spec _ hspelling).1
    exact nameStem_not_mem_keywordWords hnone hends hword

/-- A name across an apostrophe, behind a keyword that ends at one. -/
theorem scan_names_apostrophes :
    scan (Rule.table true) "Si'l'entier''=".toList
        = [⟨.control .ifTest, "Si".toList⟩, ⟨.text, ['\'']⟩] ++ ⟨.identifier, "l'entier".toList⟩ ::
          [⟨.text, ['\'']⟩, ⟨.text, ['\'']⟩, ⟨.operator .equal, ['=']⟩] ∧
      nameStem "l'entier".toList = ['l'] ∧ ∀ kind : Kind, ['l'] ∉ kind.spellings := by
  have hscan : scan (Rule.table true) "Si'l'entier''=".toList
      = [⟨.control .ifTest, "Si".toList⟩, ⟨.text, ['\'']⟩] ++ ⟨.identifier, "l'entier".toList⟩ ::
        [⟨.text, ['\'']⟩, ⟨.text, ['\'']⟩, ⟨.operator .equal, ['=']⟩] := by
    decide +kernel
  have hstem : nameStem "l'entier".toList = ['l'] := by decide
  obtain ⟨-, -, -, -, hspelling⟩ := scan_names hscan rfl
  refine ⟨hscan, hstem, ?_⟩
  rw [← hstem]
  exact hspelling

end PseudocodeLexer
