import PseudocodeLexer.Text.Basic

/-!
# Symbols of a JSON document

A document is read from text or from a file of bytes. Both are lists of symbols: characters, and
single bytes that belong to no character. A file in UTF-8 has characters only, and they are the
characters of the text it holds (`ofText`).
-/

namespace PseudocodeLexer.Json

inductive Symbol where
  | char (c : Char)
  /-- A byte that is no part of any well-formed character. -/
  | stray (byte : UInt8)
  deriving DecidableEq

namespace Symbol

/-- Number of bytes. -/
def width : Symbol → Nat
  | .char c => c.utf8Size
  | .stray _ => 1

def totalWidth : List Symbol → Nat
  | [] => 0
  | s :: rest => s.width + totalWidth rest

def char? : Symbol → Option Char
  | .char c => some c
  | .stray _ => none

/-- Space, tab, line feed and carriage return may stand between the parts of a document. -/
def isBlank : Symbol → Bool
  | .char c => c = ' ' || c = '\n' || c = '\t' || c = '\r'
  | .stray _ => false

/-- Controls below U+0020 may not stand inside a string. -/
def isControl : Symbol → Bool
  | .char c => c.toNat < 0x20
  | .stray _ => false

def digit? : Symbol → Option Nat
  | .char c => if c.isDigit then some (c.toNat - '0'.toNat) else none
  | .stray _ => none

def ofText (t : Text) : List Symbol :=
  t.map .char

/-- The symbols of a file from a byte on: characters as far as they are well-formed. -/
def ofBytesFrom (bytes : ByteArray) (i : Nat) : List Symbol :=
  if h : i < bytes.size then
    match bytes.utf8DecodeChar? i with
    | some c =>
        have : 0 < c.utf8Size := c.utf8Size_pos
        .char c :: ofBytesFrom bytes (i + c.utf8Size)
    | none => .stray bytes[i] :: ofBytesFrom bytes (i + 1)
  else []
termination_by bytes.size - i

def ofBytes (bytes : ByteArray) : List Symbol :=
  ofBytesFrom bytes 0

end Symbol

end PseudocodeLexer.Json
