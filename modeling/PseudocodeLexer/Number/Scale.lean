import PseudocodeLexer.Number.Binary64

/-!
# Scaling by powers of ten

A number is scaled by first rounding the power of ten and then rounding the product or quotient.
The result may differ from the number nearest to the exact value in its last place. Powers beyond
the range of the format are applied in several steps.
-/

namespace PseudocodeLexer.Binary64

/-- Significand and exponent of a finite number. -/
def parts : Binary64 → Nat × Int
  | .finite _ significand exponent => (significand, exponent)
  | _ => (0, minExponent)

def powerOfTen (power : Nat) : Nat × Int :=
  parts (ofRatio false (tenTo power) 1)

/-- A number times a power of ten, each rounded. -/
def timesTen (power : Nat) (x : Nat × Int) : Binary64 :=
  let ten := powerOfTen power
  let (n, d) := scaleTwo (x.1 * ten.1) 1 (x.2 + ten.2)
  ofRatio false n d

/-- A number divided by a power of ten, each rounded. -/
def overTen (power : Nat) (x : Nat × Int) : Binary64 :=
  let ten := powerOfTen power
  let (n, d) := scaleTwo x.1 ten.1 (x.2 - ten.2)
  ofRatio false n d

/-- The greatest power of ten by which a number is scaled at once. -/
def greatestTen : Nat := 308

/-- Divides by the greatest power of ten a number of times, or until nothing is left. -/
def overGreatestTen : Nat → Nat × Int → Nat × Int
  | 0, x => x
  | n + 1, x => if x.1 = 0 then x else overGreatestTen n (parts (overTen greatestTen x))

/-- Scales a number that is not negative by a power of ten, unless the result is out of range. -/
def scaleByTens? (power : Int) (x : Nat × Int) : Option Binary64 :=
  if x.1 = 0 then some (.zero false)
  else if 0 ≤ power then
    if greatestTen < power.natAbs then none
    else match timesTen power.natAbs x with
      | .infinite _ => none
      | y => some y
  else
    let times := (power.natAbs - 1) / greatestTen
    some (overTen (power.natAbs - times * greatestTen) (overGreatestTen times x))

/-- A significand of 64 bits times a power of ten. -/
def ofScaled? (significand : Nat) (power : Int) : Option Binary64 :=
  scaleByTens? power (parts (ofRatio false significand 1))

def withSign (negative : Bool) : Binary64 → Binary64
  | .finite _ significand exponent => .finite negative significand exponent
  | .infinite _ => .infinite negative
  | .nan => .nan

end PseudocodeLexer.Binary64
