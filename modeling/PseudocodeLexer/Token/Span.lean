import PseudocodeLexer.Text.Lines
import PseudocodeLexer.Token.Scan

/-!
# Spans

A span is a token with its place in a text of several lines: byte offsets into the text, and line
and column from one, the column in characters. Each line is scanned on its own, so nothing that a
line leaves open reaches the next. The carriage return before a line feed is not scanned but
counts in the offsets.
-/

namespace PseudocodeLexer

open Text

structure Span where
  token : Token
  /-- Offset of the first byte of the lexeme. -/
  start : Nat
  /-- Offset of the byte behind the lexeme. -/
  stop : Nat
  line : Nat
  column : Nat
  deriving DecidableEq

namespace Span

/-- Places the tokens of a line one behind the other. -/
def ofTokens (line start column : Nat) : List Token → List Span
  | [] => []
  | token :: rest =>
      let stop := start + utf8Length token.lexeme
      ⟨token, start, stop, line, column⟩
        :: ofTokens line stop (column + token.lexeme.length) rest

/-- Scans lines one after the other, the first of which has the given number and offset. -/
def ofRawLines (rules : List Rule) (line offset : Nat) : List Text → List Span
  | [] => []
  | raw :: rest =>
      ofTokens line offset 1 (scan rules (dropReturn raw))
        ++ ofRawLines rules (line + 1) (offset + utf8Length raw + 1) rest

/-- A span on one line: its place, its class and its quoted lexeme, with tabs between them. -/
def display (span : Span) : Text :=
  decimal span.line ++ ':' :: decimal span.column ++ '\t' :: span.token.tokenClass.label
    ++ '\t' :: quoted span.token.lexeme

end Span

/-- The tokens of a text of any number of lines, in order and with their places. -/
def tokenize (rules : List Rule) (source : Text) : List Span :=
  Span.ofRawLines rules 1 0 (rawLines source)

end PseudocodeLexer
