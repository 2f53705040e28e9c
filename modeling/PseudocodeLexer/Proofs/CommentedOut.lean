import PseudocodeLexer.Metadata
import PseudocodeLexer.Proofs.Blanks

/-!
# Lines commented out

An editor comments a line out by putting the mark for line comments behind its indentation. The
indentation is what the scanner takes as one run of blanks (`Text.Indented`), and the mark is what
it takes as the beginning of a line comment, which swallows the rest of the line. So a line that was
commented out has no tokens but these two (`scan_commentLine`).
-/

namespace PseudocodeLexer

open Text

namespace Text

/-- A line is made up of its longest beginning of blanks and the text behind it. -/
structure Indented (line indent body : Text) : Prop where
  append : indent ++ body = line
  isBlank_of_mem : ∀ c ∈ indent, isBlank c = true
  not_startsWithBlank : startsWithBlank body = false

theorem not_startsWithBlank_dropWhile (line : Text) :
    startsWithBlank (line.dropWhile isBlank) = false := by
  have hhead := List.head?_dropWhile_not isBlank line
  cases hbody : line.dropWhile isBlank with
  | nil => rfl
  | cons c body =>
      rw [hbody] at hhead
      exact hhead

theorem indented (line : Text) :
    Indented line (line.takeWhile isBlank) (line.dropWhile isBlank) where
  append := List.takeWhile_append_dropWhile
  isBlank_of_mem _ hmem := List.mem_takeWhile_imp hmem
  not_startsWithBlank := not_startsWithBlank_dropWhile line

end Text

/-- The token of an indentation, which an unindented line does not have. -/
def indentTokens (indent : Text) : List Token :=
  if indent = [] then [] else [⟨.whitespace, indent⟩]

theorem covered_indentTokens (indent : Text) : covered (indentTokens indent) = indent := by
  unfold indentTokens
  split
  · rename_i hempty
    rw [hempty, covered_nil]
  · rw [covered_cons, covered_nil, List.append_nil]

section

variable {comments : Bool} {indent : Text} {tokens : List Token}

/-- An indentation is read in front of whatever is read behind it and begins with no blank. -/
theorem readable_indentTokens_append (hindent : ∀ c ∈ indent, isBlank c = true)
    (hstart : startsWithBlank (covered tokens) = false)
    (h : Readable (Rule.table comments) false tokens) :
    Readable (Rule.table comments) false (indentTokens indent ++ tokens) := by
  unfold indentTokens
  split
  · exact h
  · rename_i hne
    have hrun : IsBlankRun indent := ⟨hindent, hne⟩
    refine ⟨reads_blankRun hrun hstart, ?_⟩
    show Readable _ (endsWithWordChar indent) tokens
    rwa [hrun.not_endsWithWordChar]

end

/-- The mark and a space behind it stand between the indentation and what it indents. -/
theorem commentLine_pseudocode (line : Text) :
    LanguageMetadata.pseudocode.commentLine line
      = line.takeWhile isBlank ++ ("// ".toList ++ line.dropWhile isBlank) := by
  rw [LanguageMetadata.commentLine, List.append_assoc]
  rfl

/-- **Commenting a line out agrees with the scanner.** A line that was commented out is scanned as
its indentation, if it has one, and a single line comment, which is the mark, a space and whatever
the line holds behind its indentation. -/
theorem scan_commentLine (line : Text) :
    ∃ indent body, Indented line indent body ∧
      scan (Rule.table true) (LanguageMetadata.pseudocode.commentLine line)
        = indentTokens indent ++ [⟨.comment .line, "// ".toList ++ body⟩] := by
  refine ⟨line.takeWhile isBlank, line.dropWhile isBlank, indented line, ?_⟩
  rw [scan_eq_iff]
  constructor
  · rw [covered_append, covered_indentTokens, covered_cons, covered_nil, List.append_nil,
      commentLine_pseudocode]
  · have hcomment : Reads (Rule.table true) false
        ⟨.comment .line, "// ".toList ++ line.dropWhile isBlank⟩ [] :=
      reads_of_longerSymbol (.line (' ' :: line.dropWhile isBlank))
    apply readable_indentTokens_append (indented line).isBlank_of_mem
    · rfl
    · exact ⟨hcomment, trivial⟩

/-- A line that is a comment already becomes a comment within a comment, and stays one token. -/
example : scan (Rule.table true) (LanguageMetadata.pseudocode.commentLine "\t // \"*/".toList)
    = [⟨.whitespace, "\t ".toList⟩, ⟨.comment .line, "// // \"*/".toList⟩] := by
  decide +kernel

end PseudocodeLexer
