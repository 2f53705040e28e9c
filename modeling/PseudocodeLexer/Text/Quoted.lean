import PseudocodeLexer.Text.Basic
import PseudocodeLexer.Text.GraphemeExtend
import PseudocodeLexer.Text.Unprintable

/-!
# Quoted text

A text is shown on one line between double quotes. The quote, the backslash and the usual controls
have two-character escapes; a character that could not be seen on its own is written as its code
point in hexadecimal; everything else stands for itself. The halfwidth voicing marks U+FF9E and
U+FF9F extend a grapheme, but have the width of a letter and stand for themselves.
-/

namespace PseudocodeLexer.Text

/-- Whether a character has the width of a letter although it extends a grapheme. -/
def isHalfwidthMark (c : Char) : Bool :=
  c = '\uFF9E' || c = '\uFF9F'

/-- Whether a character could not be seen on its own. -/
def needsCodePoint (c : Char) : Bool :=
  isGraphemeExtend c && !isHalfwidthMark c || isUnprintable c

/-- The written form of one character inside the quotes. -/
def quoteChar (c : Char) : Text :=
  if c = '\x00' then ['\\', '0']
  else if c = '\t' then ['\\', 't']
  else if c = '\r' then ['\\', 'r']
  else if c = '\n' then ['\\', 'n']
  else if c = '\\' then ['\\', '\\']
  else if c = '"' then ['\\', '"']
  else if needsCodePoint c then
    '\\' :: 'u' :: '{' :: (Nat.toDigits 16 c.toNat ++ ['}'])
  else [c]

/-- A text between double quotes, on one line. -/
def quoted (t : Text) : Text :=
  '"' :: (t.flatMap quoteChar ++ ['"'])

end PseudocodeLexer.Text
