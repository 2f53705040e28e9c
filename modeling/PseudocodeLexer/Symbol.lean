import PseudocodeLexer.Text.Basic

/-!
# Symbols

The assignment arrow, the two-character comparisons, the one-character operators, and brackets and
separators. A two-character symbol always wins over the operator that it begins with, which is
the scanner's business; here each symbol is only recognized by its own characters.
-/

namespace PseudocodeLexer

open Text

/-- The arrow of an assignment at the start of the input, and the rest. -/
def assignment? : Text → Option (Text × Text)
  | '<' :: '-' :: rest => some (['<', '-'], rest)
  | _ => none

theorem assignment?_cut {input arrow rest : Text} (h : assignment? input = some (arrow, rest)) :
    Cut input arrow rest := by
  unfold assignment? at h
  split at h
  · simp only [Option.some.injEq, Prod.mk.injEq] at h
    obtain ⟨rfl, rfl⟩ := h
    exact ⟨rfl, by simp⟩
  · simp at h

/-! ## Comparisons -/

inductive Comparison where
  | lessEqual
  | greaterEqual
  | equalEqual
  | notEqual
  deriving DecidableEq

namespace Comparison

def all : List Comparison :=
  [.lessEqual, .greaterEqual, .equalEqual, .notEqual]

def name : Comparison → Text
  | .lessEqual => "LessEqual".toList
  | .greaterEqual => "GreaterEqual".toList
  | .equalEqual => "EqualEqual".toList
  | .notEqual => "NotEqual".toList

def symbol : Comparison → Text
  | .lessEqual => ['<', '=']
  | .greaterEqual => ['>', '=']
  | .equalEqual => ['=', '=']
  | .notEqual => ['!', '=']

def ofSymbol? (symbol : Text) : Option Comparison :=
  all.find? (·.symbol == symbol)

/-- The comparison that an operator character forms with an equals sign after it. -/
def ofFirst? (c : Char) : Option Comparison :=
  if c = '<' then some .lessEqual
  else if c = '>' then some .greaterEqual
  else if c = '=' then some .equalEqual
  else if c = '!' then some .notEqual
  else none

/-- A comparison at the start of the input, its characters and the rest. -/
def recognize? : Text → Option (Comparison × Text × Text)
  | c :: '=' :: rest => (ofFirst? c).map fun comparison => (comparison, [c, '='], rest)
  | _ => none

theorem recognize?_cut {input symbol rest : Text} {comparison : Comparison}
    (h : recognize? input = some (comparison, symbol, rest)) : Cut input symbol rest := by
  unfold recognize? at h
  split at h
  · obtain ⟨_, -, h⟩ := Option.map_eq_some_iff.mp h
    simp only [Prod.mk.injEq] at h
    obtain ⟨-, rfl, rfl⟩ := h
    exact ⟨rfl, by simp⟩
  · simp at h

end Comparison

/-! ## Operators -/

inductive Operator where
  | less
  | greater
  | equal
  | not
  | plus
  | minus
  | multiply
  | divide
  | modulo
  deriving DecidableEq

namespace Operator

def all : List Operator :=
  [.less, .greater, .equal, .not, .plus, .minus, .multiply, .divide, .modulo]

def name : Operator → Text
  | .less => "Less".toList
  | .greater => "Greater".toList
  | .equal => "Equal".toList
  | .not => "Not".toList
  | .plus => "Plus".toList
  | .minus => "Minus".toList
  | .multiply => "Multiply".toList
  | .divide => "Divide".toList
  | .modulo => "Modulo".toList

def char : Operator → Char
  | .less => '<'
  | .greater => '>'
  | .equal => '='
  | .not => '!'
  | .plus => '+'
  | .minus => '-'
  | .multiply => '*'
  | .divide => '/'
  | .modulo => '%'

def symbol (o : Operator) : Text :=
  [o.char]

def ofChar? (c : Char) : Option Operator :=
  all.find? (·.char == c)

def ofSymbol? (symbol : Text) : Option Operator :=
  all.find? (·.symbol == symbol)

/-- An operator at the start of the input, its character and the rest. -/
def recognize? : Text → Option (Operator × Text × Text)
  | c :: rest => (ofChar? c).map fun operator => (operator, [c], rest)
  | [] => none

theorem recognize?_cut {input symbol rest : Text} {operator : Operator}
    (h : recognize? input = some (operator, symbol, rest)) : Cut input symbol rest := by
  unfold recognize? at h
  split at h
  · obtain ⟨_, -, h⟩ := Option.map_eq_some_iff.mp h
    simp only [Prod.mk.injEq] at h
    obtain ⟨-, rfl, rfl⟩ := h
    exact ⟨rfl, by simp⟩
  · simp at h

end Operator

/-! ## Punctuation -/

inductive Punctuation where
  | openBrace
  | closeBrace
  | openBracket
  | closeBracket
  | openParen
  | closeParen
  | semicolon
  | comma
  | colon
  deriving DecidableEq

namespace Punctuation

def all : List Punctuation :=
  [.openBrace, .closeBrace, .openBracket, .closeBracket, .openParen, .closeParen, .semicolon,
   .comma, .colon]

def name : Punctuation → Text
  | .openBrace => "OpenBrace".toList
  | .closeBrace => "CloseBrace".toList
  | .openBracket => "OpenBracket".toList
  | .closeBracket => "CloseBracket".toList
  | .openParen => "OpenParen".toList
  | .closeParen => "CloseParen".toList
  | .semicolon => "Semicolon".toList
  | .comma => "Comma".toList
  | .colon => "Colon".toList

def char : Punctuation → Char
  | .openBrace => '{'
  | .closeBrace => '}'
  | .openBracket => '['
  | .closeBracket => ']'
  | .openParen => '('
  | .closeParen => ')'
  | .semicolon => ';'
  | .comma => ','
  | .colon => ':'

def ofChar? (c : Char) : Option Punctuation :=
  all.find? (·.char == c)

/-- A punctuation mark at the start of the input, its character and the rest. -/
def recognize? : Text → Option (Punctuation × Text × Text)
  | c :: rest => (ofChar? c).map fun mark => (mark, [c], rest)
  | [] => none

theorem recognize?_cut {input symbol rest : Text} {mark : Punctuation}
    (h : recognize? input = some (mark, symbol, rest)) : Cut input symbol rest := by
  unfold recognize? at h
  split at h
  · obtain ⟨_, -, h⟩ := Option.map_eq_some_iff.mp h
    simp only [Prod.mk.injEq] at h
    obtain ⟨-, rfl, rfl⟩ := h
    exact ⟨rfl, by simp⟩
  · simp at h

end Punctuation

end PseudocodeLexer
