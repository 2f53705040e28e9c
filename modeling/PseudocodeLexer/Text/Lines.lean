import PseudocodeLexer.Text.Basic

/-!
# Lines

A text is cut at every line feed, so a text without one is a single line and a final line feed is
followed by an empty line. A carriage return in front of the cut, or at the very end of the text,
does not belong to the line's content.
-/

namespace PseudocodeLexer.Text

/-- The stretches between line feeds, which keep their carriage returns. -/
def rawLines : Text → List Text
  | [] => [[]]
  | c :: rest =>
      if c = '\n' then [] :: rawLines rest
      else match rawLines rest with
        | [] => [[c]]
        | line :: lines => (c :: line) :: lines

/-- A line without one carriage return at its end. -/
def dropReturn : Text → Text
  | [] => []
  | ['\r'] => []
  | c :: rest => c :: dropReturn rest

/-- The content of the first line: what comes before the first line feed, without one carriage
return at its end. -/
def firstLine (t : Text) : Text :=
  dropReturn (t.takeWhile (· ≠ '\n'))

end PseudocodeLexer.Text
