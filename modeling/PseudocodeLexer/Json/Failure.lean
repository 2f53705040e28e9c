import PseudocodeLexer.Json.Symbol
import PseudocodeLexer.Number.Shortest
import PseudocodeLexer.Text.Quoted

/-!
# What is wrong with a document, and where

A failure has a cause and the place where reading stopped, given by the symbols that are left. The
position shown to the user counts lines from one and bytes on the line. Most causes are reported at
a fixed distance from the place where reading stopped, a malformed string in front of it. Some are
found after a look at the next byte; read from a file that byte counts as read, read from text it
does not.
-/

namespace PseudocodeLexer.Json

/-! ## Causes -/

/-- A value that is not of the type that was wanted. -/
inductive Unexpected where
  | null
  | boolean (value : Bool)
  | integer (value : Int)
  | float (value : Binary64)
  | string (value : Text)
  | sequence
  | map
  deriving DecidableEq

inductive Cause where
  | endInList
  | endInObject
  | endInString
  | endInValue
  | expectedColon
  | expectedListCommaOrEnd
  | expectedObjectCommaOrEnd
  | expectedLiteral
  | expectedValue
  | invalidEscape
  | invalidNumber
  | numberOutOfRange
  | invalidCodePoint
  | controlCharacter
  | keyNotString
  | unpairedSurrogate
  | brokenSurrogatePair
  | trailingComma
  | trailingCharacters
  | invalidType (found : Unexpected) (expected : Text)
  | invalidLength (length : Nat) (expected : Text)
  | unknownVariant (variant : Text) (choices : List Text)
  | missingField (key : Text)
  | duplicateField (key : Text)
  deriving DecidableEq

def backquoted (t : Text) : Text :=
  '`' :: (t ++ ['`'])

def Unexpected.describe : Unexpected → Text
  | .null => "null".toList
  | .boolean value => "boolean ".toList ++ backquoted (if value then "true" else "false").toList
  | .integer value => "integer ".toList ++ backquoted (toString value).toList
  | .float value => "floating point ".toList ++ backquoted value.shortest
  | .string value => "string ".toList ++ value.quoted
  | .sequence => "sequence".toList
  | .map => "map".toList

/-- The choices of a closed set, in a phrase. -/
def describeChoices : List Text → Text
  | [] => "there are no variants".toList
  | [a] => "expected ".toList ++ backquoted a
  | [a, b] => "expected ".toList ++ backquoted a ++ " or ".toList ++ backquoted b
  | choices => "expected one of ".toList ++ ", ".toList.intercalate (choices.map backquoted)

def Cause.message : Cause → Text
  | .endInList => "EOF while parsing a list".toList
  | .endInObject => "EOF while parsing an object".toList
  | .endInString => "EOF while parsing a string".toList
  | .endInValue => "EOF while parsing a value".toList
  | .expectedColon => "expected `:`".toList
  | .expectedListCommaOrEnd => "expected `,` or `]`".toList
  | .expectedObjectCommaOrEnd => "expected `,` or `\x7d`".toList
  | .expectedLiteral => "expected ident".toList
  | .expectedValue => "expected value".toList
  | .invalidEscape => "invalid escape".toList
  | .invalidNumber => "invalid number".toList
  | .numberOutOfRange => "number out of range".toList
  | .invalidCodePoint => "invalid unicode code point".toList
  | .controlCharacter =>
      "control character (\\u0000-\\u001F) found while parsing a string".toList
  | .keyNotString => "key must be a string".toList
  | .unpairedSurrogate => "lone leading surrogate in hex escape".toList
  | .brokenSurrogatePair => "unexpected end of hex escape".toList
  | .trailingComma => "trailing comma".toList
  | .trailingCharacters => "trailing characters".toList
  | .invalidType found expected =>
      "invalid type: ".toList ++ found.describe ++ ", expected ".toList ++ expected
  | .invalidLength length expected =>
      "invalid length ".toList ++ Text.decimal length ++ ", expected ".toList ++ expected
  | .unknownVariant variant choices =>
      "unknown variant ".toList ++ backquoted variant ++ ", ".toList ++ describeChoices choices
  | .missingField key => "missing field ".toList ++ backquoted key
  | .duplicateField key => "duplicate field ".toList ++ backquoted key

/-! ## Places -/

inductive Place where
  /-- The given number of bytes behind the place where reading stopped. -/
  | behind (bytes : Nat)
  /-- The given number of bytes in front of it, on the same line. -/
  | before (bytes : Nat)
  /-- Where reading stopped, with the next byte looked at. -/
  | lookahead
  deriving DecidableEq

structure Failure where
  cause : Cause
  /-- What was left when reading stopped. -/
  rest : List Symbol
  place : Place
  deriving DecidableEq

namespace Failure

/-- Reported where reading stopped. -/
def here (cause : Cause) (rest : List Symbol) : Failure :=
  ⟨cause, rest, .behind 0⟩

/-- Reported at the next byte, if there is one. -/
def next (cause : Cause) (rest : List Symbol) : Failure :=
  ⟨cause, rest, .behind 1⟩

/-- Found after a look at the next byte. -/
def peeked (cause : Cause) (rest : List Symbol) : Failure :=
  ⟨cause, rest, .lookahead⟩

end Failure

/-- Where a document comes from. -/
inductive Source where
  | text
  | file
  deriving DecidableEq

/-! ## Positions -/

structure Position where
  line : Nat
  /-- Bytes on the line. -/
  column : Nat
  deriving DecidableEq

namespace Position

def start : Position := ⟨1, 0⟩

/-- The position behind a symbol. -/
def past (p : Position) (s : Symbol) : Position :=
  if s = .char '\n' then ⟨p.line + 1, 0⟩ else ⟨p.line, p.column + s.width⟩

/-- The position a number of bytes further on, which may lie within a character. -/
def pastBytes (p : Position) : Nat → List Symbol → Position
  | 0, _ => p
  | _, [] => p
  | n, s :: rest =>
      if s.width ≤ n then pastBytes (p.past s) (n - s.width) rest
      else ⟨p.line, p.column + n⟩

/-- The position a number of bytes back on the same line. -/
def back (p : Position) (bytes : Nat) : Position :=
  ⟨p.line, p.column - bytes⟩

end Position

/-- The position of a failure in the document in which it was found. -/
def Failure.position (source : Source) (document : List Symbol) (failure : Failure) : Position :=
  let taken := document.take (document.length - failure.rest.length)
  let stopped := taken.foldl Position.past .start
  match failure.place, source with
  | .behind bytes, _ => stopped.pastBytes bytes failure.rest
  | .before bytes, _ => stopped.back bytes
  | .lookahead, .text => stopped
  | .lookahead, .file => stopped.pastBytes 1 failure.rest

/-! ## Errors -/

inductive Error where
  | malformed (cause : Cause) (position : Position)
  /-- The document could not be read, for the given reason. -/
  | unreadable (reason : Text)
  deriving DecidableEq

def Error.message : Error → Text
  | .malformed cause position =>
      cause.message ++ " at line ".toList ++ Text.decimal position.line ++ " column ".toList
        ++ Text.decimal position.column
  | .unreadable reason => reason

def Failure.toError (source : Source) (document : List Symbol) (failure : Failure) : Error :=
  .malformed failure.cause (failure.position source document)

end PseudocodeLexer.Json
