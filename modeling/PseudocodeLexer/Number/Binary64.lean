/-!
# Binary floating point numbers of 64 bits

A finite number is a significand times a power of two. Its significand has at most 53 bits and its
exponent lies between -1074 and 971; among the ways to write a number so, the one with the least
exponent allowed by a full significand is kept, so equal numbers of one sign are written alike.
Rounding is exact: a quotient of natural numbers goes to the nearest number, and halfway between two
numbers to the one with an even significand.
-/

namespace PseudocodeLexer

inductive Binary64 where
  | nan
  | infinite (negative : Bool)
  | finite (negative : Bool) (significand : Nat) (exponent : Int)
  deriving DecidableEq

namespace Binary64

/-- Exponent of the subnormal numbers, the least there is. -/
def minExponent : Int := -1074

def maxExponent : Int := 971

def twoTo (n : Nat) : Nat :=
  Nat.pow 2 n

def tenTo (n : Nat) : Nat :=
  Nat.pow 10 n

/-- Full significands reach from here up to twice as much. -/
def fullSignificand : Nat :=
  twoTo 52

def zero (negative : Bool) : Binary64 :=
  .finite negative 0 minExponent

/-! ## Rounding -/

/-- The natural number nearest to a quotient; of two equally near, the even one. -/
def divNearest (num den : Nat) : Nat :=
  let quotient := num / den
  let remainder := num % den
  if 2 * remainder < den then quotient
  else if den < 2 * remainder then quotient + 1
  else quotient + quotient % 2

/-- A quotient times a power of two, as a quotient. -/
def scaleTwo (num den : Nat) (exponent : Int) : Nat × Nat :=
  if 0 ≤ exponent then (num * twoTo exponent.toNat, den)
  else (num, den * twoTo (-exponent).toNat)

/-- The exponent of the greatest power of two that is no more than a positive quotient. -/
def floorLog2 (num den : Nat) : Int :=
  let guess : Int := (Nat.log2 num : Int) - (Nat.log2 den : Int)
  let (n, d) := scaleTwo num den (-guess)
  if d ≤ n then guess else guess - 1

/-- The number nearest to a quotient. -/
def ofRatio (negative : Bool) (num den : Nat) : Binary64 :=
  if num = 0 then zero negative
  else
    let exponent := max minExponent (floorLog2 num den - 52)
    let (n, d) := scaleTwo num den (-exponent)
    let significand := divNearest n d
    let (significand, exponent) :=
      if significand = 2 * fullSignificand then (fullSignificand, exponent + 1)
      else (significand, exponent)
    if maxExponent < exponent then .infinite negative
    else .finite negative significand exponent

/-- Numbers of this decimal magnitude are beyond the greatest finite number. -/
def overflowMagnitude : Int := 310

/-- Numbers of this decimal magnitude are nearer to zero than to the least positive number. -/
def underflowMagnitude : Int := -330

/-- The number nearest to a decimal fraction. Magnitudes far out of range are settled by counting
digits, so no power of ten grows beyond need. -/
def ofDecimal (negative : Bool) (digits : Nat) (exponent : Int) : Binary64 :=
  let magnitude : Int := exponent + (Nat.toDigits 10 digits).length
  if digits = 0 then zero negative
  else if overflowMagnitude < magnitude then .infinite negative
  else if magnitude < underflowMagnitude then zero negative
  else if 0 ≤ exponent then ofRatio negative (digits * tenTo exponent.toNat) 1
  else ofRatio negative digits (tenTo (-exponent).toNat)

/-! ## Layout -/

def signBit (negative : Bool) : Nat :=
  if negative then twoTo 63 else 0

/-- The 64 bits: sign, biased exponent, and the significand without its leading bit. -/
def toBits : Binary64 → Nat
  | .nan => 0x7FF8000000000000
  | .infinite negative => signBit negative + 0x7FF0000000000000
  | .finite negative significand exponent =>
      if significand < fullSignificand then signBit negative + significand
      else
        signBit negative + (exponent - minExponent + 1).toNat * fullSignificand
          + (significand - fullSignificand)

end Binary64

end PseudocodeLexer
