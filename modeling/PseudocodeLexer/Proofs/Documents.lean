import PseudocodeLexer.Json.Value
import PseudocodeLexer.Proofs.Number
import PseudocodeLexer.Proofs.WrittenRecords

/-!
# Well-formed documents

The grammar of documents, apart from any reader: which texts are written for which values
(`Writes`). A string is made of pieces, each a character that stands for itself, an escape of one
letter, or a UTF-16 unit in hexadecimal digits; its content is what they stand for, and there is
none if a surrogate stands alone (`content?`). Values in a row, with the separators and blanks
between them, are one phrase, so that a derivation is a single tree.
-/

namespace PseudocodeLexer.Json

open NumericLiteral (IsDigits)

/-! ## Blanks -/

def IsBlanks (t : Text) : Prop :=
  ∀ c ∈ t, c ∈ [' ', '\n', '\t', '\r']

instance (t : Text) : Decidable (IsBlanks t) :=
  List.decidableBAll _ t

/-! ## Strings -/

structure HexDigit where
  value : Fin 16
  upper : Bool

def HexDigit.char (d : HexDigit) : Char :=
  if d.upper then d.value.val.digitChar.toUpper else d.value.val.digitChar

/-- A UTF-16 unit in four hexadecimal digits, the highest first. -/
structure CodeUnit where
  a : HexDigit
  b : HexDigit
  c : HexDigit
  d : HexDigit

namespace CodeUnit

def form (u : CodeUnit) : Text :=
  [u.a.char, u.b.char, u.c.char, u.d.char]

def value (u : CodeUnit) : Nat :=
  ((u.a.value * 16 + u.b.value) * 16 + u.c.value) * 16 + u.d.value

/-- The first unit of a character beyond U+FFFF. -/
def IsLeading (u : CodeUnit) : Prop :=
  0xD800 ≤ u.value ∧ u.value < 0xDC00

/-- The second unit of a character beyond U+FFFF. -/
def IsTrailing (u : CodeUnit) : Prop :=
  0xDC00 ≤ u.value ∧ u.value < 0xE000

instance (u : CodeUnit) : Decidable u.IsLeading :=
  inferInstanceAs (Decidable (_ ∧ _))

instance (u : CodeUnit) : Decidable u.IsTrailing :=
  inferInstanceAs (Decidable (_ ∧ _))

/-- The character of two units, each of which holds ten bits of it. -/
def pair (leading trailing : CodeUnit) : Char :=
  Char.ofNat (0x10000 + (leading.value - 0xD800) * 0x400 + (trailing.value - 0xDC00))

end CodeUnit

/-- The characters with an escape of two characters; the slash has one that no writer needs. -/
def letterEscapes : List (Char × Char) :=
  ('/', '/') :: shortEscapes

/-- A character that may stand for itself. -/
def IsPlain (c : Char) : Prop :=
  c ≠ '"' ∧ c ≠ '\\' ∧ 0x20 ≤ c.toNat

instance (c : Char) : Decidable (IsPlain c) :=
  inferInstanceAs (Decidable (_ ∧ _))

inductive Piece where
  | plain (c : Char) (allowed : IsPlain c)
  | letter (c second : Char) (known : (c, second) ∈ letterEscapes)
  | unit (u : CodeUnit)

/-- A text in characters that stand for themselves. -/
def plainly (t : Text) (h : t.all (IsPlain ·) = true) : List Piece :=
  t.pmap .plain fun c hc => of_decide_eq_true (List.all_eq_true.mp h c hc)

def Piece.form : Piece → Text
  | .plain c _ => [c]
  | .letter _ second _ => ['\\', second]
  | .unit u => '\\' :: 'u' :: u.form

def spelled (pieces : List Piece) : Text :=
  pieces.flatMap Piece.form

/-- A string without its opening quote. -/
def closed (pieces : List Piece) : Text :=
  spelled pieces ++ ['"']

/-- What a string says. No text holds a surrogate that stands alone. -/
def content? : List Piece → Option Text
  | [] => some []
  | .plain c _ :: pieces => (content? pieces).map (c :: ·)
  | .letter c _ _ :: pieces => (content? pieces).map (c :: ·)
  | .unit u :: pieces =>
      if u.IsTrailing then none
      else if u.IsLeading then
        match pieces with
        | .unit w :: pieces =>
            if w.IsTrailing then (content? pieces).map (u.pair w :: ·) else none
        | _ => none
      else (content? pieces).map (Char.ofNat u.value :: ·)

/-! ## Numbers -/

/-- No zero leads a whole number but the one that is all of it. -/
def IsWhole (t : Text) : Prop :=
  t = ['0'] ∨ IsDigits t ∧ t.head? ≠ some '0'

def IsFraction (t : Text) : Prop :=
  t = [] ∨ ∃ digits, IsDigits digits ∧ t = '.' :: digits

def IsExponent (t : Text) : Prop :=
  t = [] ∨ ∃ e ∈ ['e', 'E'], ∃ sign ∈ [[], ['+'], ['-']], ∃ digits,
    IsDigits digits ∧ t = e :: (sign ++ digits)

def IsMagnitude (t : Text) : Prop :=
  ∃ whole fraction exponent, IsWhole whole ∧ IsFraction fraction ∧ IsExponent exponent ∧
    t = whole ++ (fraction ++ exponent)

def IsNumber (t : Text) : Prop :=
  IsMagnitude t ∨ ∃ magnitude, IsMagnitude magnitude ∧ t = '-' :: magnitude

/-! ## Values -/

/-- A string is kept by its content, a number as it is written. -/
inductive Value where
  | null
  | boolean (b : Bool)
  | number (written : Text)
  | string (content : Option Text)
  | list (elements : List Value)
  | object (members : List (Option Text × Value))

/-- A value, or what stands between two brackets from some item on. -/
inductive Phrase where
  | value (v : Value)
  | elements (first : Bool) (vs : List Value)
  | members (first : Bool) (ms : List (Option Text × Value))

/-- The text is written for the phrase. -/
inductive Writes : Phrase → Text → Prop
  | null : Writes (.value .null) "null".toList
  | boolean (b : Bool) : Writes (.value (.boolean b)) (writeBool b)
  | number {t : Text} : IsNumber t → Writes (.value (.number t)) t
  | string (pieces : List Piece) :
      Writes (.value (.string (content? pieces))) ('"' :: closed pieces)
  | list {vs : List Value} {t : Text} :
      Writes (.elements true vs) t → Writes (.value (.list vs)) ('[' :: (t ++ [']']))
  | object {ms : List (Option Text × Value)} {t : Text} :
      Writes (.members true ms) t → Writes (.value (.object ms)) ('{' :: (t ++ ['}']))
  | noElement {first : Bool} {blanks : Text} :
      IsBlanks blanks → Writes (.elements first []) blanks
  | element {first : Bool} {v : Value} {vs : List Value} {b b₁ t s : Text} :
      IsBlanks b → IsBlanks b₁ → Writes (.value v) t → Writes (.elements false vs) s →
      Writes (.elements first (v :: vs)) (b ++ (writeSeparator first ++ (b₁ ++ (t ++ s))))
  | noMember {first : Bool} {blanks : Text} :
      IsBlanks blanks → Writes (.members first []) blanks
  | member {first : Bool} {key : List Piece} {v : Value} {ms : List (Option Text × Value)}
      {b b₁ b₂ b₃ t s : Text} :
      IsBlanks b → IsBlanks b₁ → IsBlanks b₂ → IsBlanks b₃ → Writes (.value v) t →
      Writes (.members false ms) s →
      Writes (.members first ((content? key, v) :: ms))
        (b ++ (writeSeparator first
          ++ (b₁ ++ ('"' :: (closed key ++ (b₂ ++ (':' :: (b₃ ++ (t ++ s)))))))))

/-- A whole document: a value with blanks around it. -/
def Document (v : Value) (t : Text) : Prop :=
  ∃ before written after, IsBlanks before ∧ Writes (.value v) written ∧ IsBlanks after ∧
    t = before ++ (written ++ after)

end PseudocodeLexer.Json
