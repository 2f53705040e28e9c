import PseudocodeLexer.Number.Binary64
import PseudocodeLexer.Text.Basic

/-!
# The shortest decimal text of a binary number

A number is written with the fewest digits that read back as it, and among those with the digits
nearest to it. The reals that round to a number form an interval around it, which includes its ends
if the significand is even; on the decimal grid with a given count of digits only the two neighbours
of the number need a test.

Numbers from 1e-5 up to 1e16 are written without an exponent, and always with a point. Elsewhere
the exponent has a sign.
-/

namespace PseudocodeLexer.Binary64

/-- A quotient times a power of ten, as a quotient. -/
def scaleTen (num den : Nat) (exponent : Int) : Nat × Nat :=
  if 0 ≤ exponent then (num * tenTo exponent.toNat, den)
  else (num, den * tenTo (-exponent).toNat)

/-- The interval of the reals that round to a number, in quarters of its last place: its ends and
whether they belong to it. -/
def roundingInterval (significand : Nat) (exponent : Int) : Nat × Nat × Bool :=
  let below := if significand = fullSignificand && minExponent < exponent then 1 else 2
  (4 * significand - below, 4 * significand + 2, significand % 2 = 0)

/-- Whether `digits · 10^place` rounds to the number. -/
def roundsTo (significand : Nat) (exponent : Int) (digits : Nat) (place : Int) : Bool :=
  let (low, high, closed) := roundingInterval significand exponent
  let (n, d) := scaleTen digits 1 place
  let (n, d) := scaleTwo n d (2 - exponent)
  if closed then low * d ≤ n && n ≤ high * d else low * d < n && n < high * d

/-- The exponent of the greatest power of ten that is no more than a positive number. -/
def floorLog10 (significand : Nat) (exponent : Int) : Int :=
  let (n, d) := scaleTwo significand 1 exponent
  let guess : Int := ((Nat.toDigits 10 n).length : Int) - (Nat.toDigits 10 d).length
  let (n, d) := scaleTen n d (-guess)
  if d ≤ n then guess else guess - 1

/-- The best decimal with the given count of digits, if one reads back as the number. -/
def decimalWith? (significand : Nat) (exponent : Int) (count : Nat) : Option (Nat × Int) :=
  let place := floorLog10 significand exponent + 1 - count
  let (n, d) := scaleTwo significand 1 exponent
  let (n, d) := scaleTen n d (-place)
  let low := n / d
  let nearest := divNearest n d
  let other := if nearest = low then low + 1 else low
  if roundsTo significand exponent nearest place then some (nearest, place)
  else if roundsTo significand exponent other place then some (other, place)
  else none

/-- Digits and place of the shortest decimal; seventeen digits are always enough. -/
def shortestDecimal (significand : Nat) (exponent : Int) : Nat × Int :=
  ((List.range 17).findSome? fun n => decimalWith? significand exponent (n + 1)).getD (0, 0)

/-- Digits without the zeros at their end, which move into the place. -/
def trimZeros (digits : Text) (place : Int) : Text × Int :=
  let zeros := (digits.reverse.takeWhile (· = '0')).length
  (digits.take (digits.length - zeros), place + zeros)

/-- The exponent of ten, always with its sign. -/
def exponentText (exponent : Int) : Text :=
  'e' :: (if exponent < 0 then '-' else '+') :: Text.decimal exponent.natAbs

/-- Lays out digits whose last one counts `10^place`. -/
def layOut (digits : Text) (place : Int) : Text :=
  let point : Int := digits.length + place
  if 0 ≤ place && point ≤ 16 then digits ++ List.replicate place.toNat '0' ++ ".0".toList
  else if 0 < point && point ≤ 16 then digits.take point.toNat ++ '.' :: digits.drop point.toNat
  else if -5 < point && point ≤ 0 then "0.".toList ++ List.replicate (-point).toNat '0' ++ digits
  else match digits with
    | [d] => d :: exponentText (point - 1)
    | [] => "0.0".toList
    | d :: more => d :: '.' :: more ++ exponentText (point - 1)

/-- The shortest text that reads back as the number. -/
def shortest : Binary64 → Text
  | .nan => "NaN".toList
  | .infinite negative => (if negative then "-inf" else "inf").toList
  | .finite negative significand exponent =>
      let magnitude :=
        if significand = 0 then "0.0".toList
        else
          let (digits, place) := shortestDecimal significand exponent
          let (digits, place) := trimZeros (Text.decimal digits) place
          layOut digits place
      if negative then '-' :: magnitude else magnitude

end PseudocodeLexer.Binary64
