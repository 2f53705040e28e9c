import PseudocodeLexer.Text.Basic

/-!
# Writing documents

Values are written as text that a reader takes back. A string escapes the quote, the backslash and
the controls below U+0020, the common ones by a letter; everything else stands for itself. Objects
are written on one line, or with each member on a line of its own and two blanks for each level.
-/

namespace PseudocodeLexer.Json

/-- The written form of one character of a string. -/
def escapeChar (c : Char) : Text :=
  if c = '"' then ['\\', '"']
  else if c = '\\' then ['\\', '\\']
  else if c = '\x08' then ['\\', 'b']
  else if c = '\x0c' then ['\\', 'f']
  else if c = '\n' then ['\\', 'n']
  else if c = '\r' then ['\\', 'r']
  else if c = '\t' then ['\\', 't']
  else if c.toNat < 0x20 then
    ['\\', 'u', '0', '0', Nat.digitChar (c.toNat / 16), Nat.digitChar (c.toNat % 16)]
  else [c]

def writeString (t : Text) : Text :=
  '"' :: (t.flatMap escapeChar ++ ['"'])

def writeBool (b : Bool) : Text :=
  if b then "true".toList else "false".toList

inductive Layout where
  | compact
  | indented
  deriving DecidableEq

namespace Layout

def lineBreak : Layout → Nat → Text
  | .compact, _ => []
  | .indented, depth => '\n' :: List.replicate (2 * depth) ' '

def colon : Layout → Text
  | .compact => [':']
  | .indented => [':', ' ']

end Layout

/-- A member of an object at a depth, given its key and its written value. -/
def writeMember (layout : Layout) (depth : Nat) (member : Text × Text) : Text :=
  layout.lineBreak (depth + 1) ++ writeString member.1 ++ layout.colon ++ member.2

/-- An object at a depth, given its keys and their written values. -/
def writeObject (layout : Layout) (depth : Nat) (members : List (Text × Text)) : Text :=
  '{' :: ([','].intercalate (members.map (writeMember layout depth)) ++ layout.lineBreak depth
    ++ ['}'])

end PseudocodeLexer.Json
