import PseudocodeLexer.Number.Binary64
import PseudocodeLexer.Text.Basic

/-!
# Numerals

A numeral is an optional sign and then digits with an optional point and an optional exponent, or
one of the words for infinity and for no number at all, in any case. At least one digit stands on
one side of the point.
-/

namespace PseudocodeLexer

inductive Numeral where
  | nan
  | infinite (negative : Bool)
  /-- The digits as one number, times ten to the exponent. -/
  | decimal (negative : Bool) (digits : Nat) (exponent : Int)
  deriving DecidableEq

namespace Numeral

def toBinary64 : Numeral → Binary64
  | .nan => .nan
  | .infinite negative => .infinite negative
  | .decimal negative digits exponent => .ofDecimal negative digits exponent

/-- Splits off a sign; true stands for minus. -/
def sign : Text → Bool × Text
  | '-' :: rest => (true, rest)
  | '+' :: rest => (false, rest)
  | rest => (false, rest)

def word? (negative : Bool) (t : Text) : Option Numeral :=
  let word := t.map Char.toLower
  if word = "inf".toList || word = "infinity".toList then some (.infinite negative)
  else if word = "nan".toList then some .nan
  else none

/-- The exponent that ends a numeral, zero when there is none. -/
def exponent? : Text → Option Int
  | [] => some 0
  | c :: rest =>
      if c = 'e' || c = 'E' then
        let (negative, digits) := sign rest
        if digits = [] || !digits.all Char.isDigit then none
        else
          let magnitude := Nat.ofDigitChars 10 digits 0
          some (if negative then -(magnitude : Int) else magnitude)
      else none

/-- The digits behind a point, if there is one, and the rest. -/
def fraction : Text → Text × Text
  | '.' :: rest => (rest.takeWhile Char.isDigit, rest.dropWhile Char.isDigit)
  | rest => ([], rest)

def decimal? (negative : Bool) (t : Text) : Option Numeral :=
  let whole := t.takeWhile Char.isDigit
  let (places, rest) := fraction (t.dropWhile Char.isDigit)
  if whole = [] && places = [] then none
  else match exponent? rest with
    | none => none
    | some exponent =>
        some (.decimal negative (Nat.ofDigitChars 10 (whole ++ places) 0)
          (exponent - places.length))

def ofText? (t : Text) : Option Numeral :=
  let (negative, body) := sign t
  match word? negative body with
  | some numeral => some numeral
  | none => decimal? negative body

end Numeral

end PseudocodeLexer
