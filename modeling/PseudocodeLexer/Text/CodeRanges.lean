/-!
# Sets of code points

A character property is held as a table of code point ranges in ascending order. A look-up walks the
table and stops at the first range that starts beyond the character, so characters low in the table
are found or refused early.
-/

namespace PseudocodeLexer.Text

/-- Inclusive ranges of code points, ascending and apart from each other. -/
abbrev CodeRanges := List (Nat × Nat)

namespace CodeRanges

def coversCode : CodeRanges → Nat → Bool
  | [], _ => false
  | (first, last) :: rest, code =>
      if code < first then false else if code ≤ last then true else coversCode rest code

/-- Whether the code point of a character lies in one of the ranges. -/
def covers (ranges : CodeRanges) (c : Char) : Bool :=
  ranges.coversCode c.toNat

end CodeRanges

end PseudocodeLexer.Text
