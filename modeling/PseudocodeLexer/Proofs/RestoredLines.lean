import Mathlib.Logic.Function.Basic
import PseudocodeLexer.Proofs.CommentedOut

/-!
# Lines restored

The mark for line comments may be any text. If it begins with blanks, or is nothing else, a line
that was commented out does not show where its indentation ended. But the blanks that it begins with
are those of the indentation and the ones that the mark brings along (`takeWhile_commentLine`), and
the latter are the same for every line, because what was indented begins with no blank. So the
length of the indentation is known, and taking the mark out behind it restores the line
(`restoreLine_commentLine`).
-/

namespace PseudocodeLexer

open Text

/-- Text that begins with no blank adds none to those at the start of the text in front of it. -/
theorem takeWhile_isBlank_append {mark body : Text} (hbody : startsWithBlank body = false) :
    (mark ++ body).takeWhile isBlank = mark.takeWhile isBlank := by
  rw [List.takeWhile_append, takeWhile_isBlank_eq_nil_iff.mpr hbody, List.append_nil]
  split
  · rename_i hlength
    exact ((List.takeWhile_prefix isBlank).eq_of_length hlength).symm
  · rfl

namespace LanguageMetadata

variable (language : LanguageMetadata)

/-- What is put behind the indentation of a line to comment it out. -/
def lineMark : Text :=
  language.lineComment ++ [' ']

/-- The length of the indentation of a line that was commented out: of the blanks at its start,
those of the mark do not count. -/
def indentLength (line : Text) : Nat :=
  (line.takeWhile isBlank).length - (language.lineMark.takeWhile isBlank).length

/-- A line that was commented out, without the mark. -/
def restoreLine (line : Text) : Text :=
  line.take (language.indentLength line)
    ++ line.drop (language.indentLength line + language.lineMark.length)

theorem commentLine_eq (line : Text) :
    language.commentLine line
      = line.takeWhile isBlank ++ (language.lineMark ++ line.dropWhile isBlank) := by
  rw [commentLine, lineMark, List.append_assoc, List.append_assoc, List.singleton_append]

/-- A line that was commented out begins with the blanks of its indentation and those of the
mark. -/
theorem takeWhile_commentLine (line : Text) :
    (language.commentLine line).takeWhile isBlank
      = line.takeWhile isBlank ++ language.lineMark.takeWhile isBlank := by
  have hline := indented line
  rw [commentLine_eq, List.takeWhile_append_of_pos hline.isBlank_of_mem,
    takeWhile_isBlank_append hline.not_startsWithBlank]

theorem indentLength_commentLine (line : Text) :
    language.indentLength (language.commentLine line) = (line.takeWhile isBlank).length := by
  rw [indentLength, takeWhile_commentLine, List.length_append, Nat.add_sub_cancel]

/-- Restoring a line undoes commenting it out. -/
theorem restoreLine_commentLine (line : Text) :
    language.restoreLine (language.commentLine line) = line := by
  rw [restoreLine, indentLength_commentLine, commentLine_eq, List.take_left,
    List.drop_length_add_append, List.drop_left]
  exact (indented line).append

/-- **Commenting a line out loses nothing.** Whatever the mark for line comments, two lines that are
the same when commented out are the same line. -/
theorem commentLine_injective : Function.Injective language.commentLine :=
  Function.LeftInverse.injective language.restoreLine_commentLine

/-- With a blank mark only the number of blanks tells where the indentation ended. -/
example : ({ pseudocode with lineComment := "\t".toList }).restoreLine "\t \t x".toList
    = "\t x".toList := by
  decide +kernel

end LanguageMetadata

end PseudocodeLexer
