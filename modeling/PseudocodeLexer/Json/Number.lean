import PseudocodeLexer.Json.Reader
import PseudocodeLexer.Number.Scale

/-!
# Numbers of a document

A number is an integer without leading zeros, with an optional fraction and an optional exponent.
Integers of 64 bits are kept as they are. Any other number becomes a binary number by rounding its
leading digits, as far as they fit into 64 bits, and then scaling by a rounded power of ten, so its
last place may differ from the nearest one. A skipped number is only checked for its form.
-/

namespace PseudocodeLexer.Json

def startsWithDigit : List Symbol → Bool
  | [] => false
  | x :: _ => x.digit?.isSome

def skipDigits (s : List Symbol) : List Symbol :=
  s.dropWhile fun x => x.digit?.isSome

theorem length_skipDigits_le (s : List Symbol) : (skipDigits s).length ≤ s.length :=
  (List.dropWhile_sublist _).length_le

def startsExponent : Symbol → Bool
  | .char c => c = 'e' || c = 'E'
  | .stray _ => false

/-- Splits off the sign of an exponent; true stands for minus. -/
def exponentSign : List Symbol → Bool × List Symbol
  | .char '+' :: rest => (false, rest)
  | .char '-' :: rest => (true, rest)
  | rest => (false, rest)

theorem length_exponentSign_le (s : List Symbol) : (exponentSign s).2.length ≤ s.length := by
  unfold exponentSign
  split <;> simp

/-! ## Skipping -/

def skipExponent : List Symbol → Except Failure (List Symbol)
  | [] => .ok []
  | x :: rest =>
      if startsExponent x then
        let (_, rest) := exponentSign rest
        if startsWithDigit rest then .ok (skipDigits rest)
        else .error (.next .invalidNumber rest)
      else .ok (x :: rest)

def skipFraction : List Symbol → Except Failure (List Symbol)
  | .char '.' :: rest =>
      if startsWithDigit rest then skipExponent (skipDigits rest)
      else .error (.next .invalidNumber rest)
  | rest => skipExponent rest

/-- Skips a number behind its minus sign, if it has one. -/
def skipNumber : List Symbol → Except Failure (List Symbol)
  | [] => .error (.next .invalidNumber [])
  | x :: rest =>
      match x.digit? with
      | none => .error (.next .invalidNumber (x :: rest))
      | some 0 =>
          if startsWithDigit rest then .error (.next .invalidNumber rest) else skipFraction rest
      | some _ => skipFraction (skipDigits rest)

theorem length_le_of_skipExponent {s rest : List Symbol} (h : skipExponent s = .ok rest) :
    rest.length ≤ s.length := by
  cases s with
  | nil => simp_all [skipExponent]
  | cons x s =>
      simp only [skipExponent] at h
      split at h
      · split at h
        · simp only [Except.ok.injEq] at h
          have hsign := length_exponentSign_le s
          have hdigits := length_skipDigits_le (exponentSign s).2
          simp only [← h, List.length_cons]
          omega
        · simp at h
      · simp_all

theorem length_le_of_skipFraction {s rest : List Symbol} (h : skipFraction s = .ok rest) :
    rest.length ≤ s.length := by
  unfold skipFraction at h
  split at h
  · rename_i s
    split at h
    · have hexponent := length_le_of_skipExponent h
      have hdigits := length_skipDigits_le s
      simp only [List.length_cons]
      omega
    · simp at h
  · exact length_le_of_skipExponent h

theorem length_lt_of_skipNumber {s rest : List Symbol} (h : skipNumber s = .ok rest) :
    rest.length < s.length := by
  cases s with
  | nil => simp [skipNumber] at h
  | cons x s =>
      simp only [skipNumber] at h
      split at h
      · simp at h
      · split at h
        · simp at h
        · exact Nat.lt_succ_of_le (length_le_of_skipFraction h)
      · have hfraction := length_le_of_skipFraction h
        have hdigits := length_skipDigits_le s
        simp only [List.length_cons]
        omega

/-! ## Reading -/

/-- Significands and natural numbers have 64 bits. -/
def wordLimit : Nat := Binary64.twoTo 64

/-- Exponents have 31 bits; one beyond that is too great for any use. -/
def exponentLimit : Nat := Binary64.twoTo 31

/-- Takes digits as long as the number they extend stays below the limit: the number, how many
digits were taken and the rest. -/
def takeDigits (limit n count : Nat) : List Symbol → Nat × Nat × List Symbol
  | [] => (n, count, [])
  | x :: rest =>
      match x.digit? with
      | none => (n, count, x :: rest)
      | some d =>
          if n * 10 + d < limit then takeDigits limit (n * 10 + d) (count + 1) rest
          else (n, count, x :: rest)

/-- The binary number for a significand and a power of ten. The byte behind the number has been
looked at. -/
def makeFloat (negative : Bool) (significand : Nat) (power : Int) (rest : List Symbol) :
    Step Unexpected :=
  match Binary64.ofScaled? significand power with
  | some x => .ok (.float (x.withSign negative), rest)
  | none => .error (.peeked .numberOutOfRange rest)

/-- Reads an exponent behind its letter. -/
def readExponent (negative : Bool) (significand : Nat) (power : Int) (s : List Symbol) :
    Step Unexpected :=
  let (down, s) := exponentSign s
  match s with
  | [] => .error (.here .endInValue [])
  | x :: rest =>
      match x.digit? with
      | none => .error (.next .invalidNumber (x :: rest))
      | some d =>
          let (n, _, rest) := takeDigits exponentLimit d 1 rest
          if startsWithDigit rest then
            if significand ≠ 0 && !down then .error (.here .numberOutOfRange rest.tail)
            else .ok (.float (.zero negative), skipDigits rest)
          else makeFloat negative significand (if down then power - n else power + n) rest

/-- Finishes a number whose significand and power of ten are known but for an exponent. -/
def readScale (negative : Bool) (significand : Nat) (power : Int) : List Symbol → Step Unexpected
  | [] => makeFloat negative significand power []
  | x :: rest =>
      if startsExponent x then readExponent negative significand power rest
      else makeFloat negative significand power (x :: rest)

/-- Reads a fraction behind its point. Digits beyond the 64 bits of the significand are dropped. -/
def readFraction (negative : Bool) (significand : Nat) (power : Int) (s : List Symbol) :
    Step Unexpected :=
  let (n, count, rest) := takeDigits wordLimit significand 0 s
  if startsWithDigit rest then readScale negative n (power - count) (skipDigits rest)
  else if count = 0 then
    match rest with
    | [] => .error (.here .endInValue [])
    | x :: rest => .error (.next .invalidNumber (x :: rest))
  else readScale negative n (power - count) rest

/-- An integer of 64 bits, signed or not, or else its nearest binary number. There is no negative
zero among the integers. -/
def integerOrFloat (negative : Bool) (n : Nat) : Unexpected :=
  if !negative then .integer n
  else if n = 0 || Binary64.twoTo 63 < n then .float (.ofRatio true n 1)
  else .integer (-n)

def continuesNumber : Symbol → Bool
  | .char c => c = '.' || c = 'e' || c = 'E'
  | .stray _ => false

/-- Finishes a number whose whole part is known, with a power of ten for digits that did not fit. -/
def readBehindWhole (negative : Bool) (significand : Nat) (power : Int) :
    List Symbol → Step Unexpected
  | .char '.' :: rest => readFraction negative significand power rest
  | rest => readScale negative significand power rest

/-- Reads a number behind its minus sign, if it has one. -/
def readNumber (negative : Bool) : List Symbol → Step Unexpected
  | [] => .error (.here .endInValue [])
  | x :: rest =>
      match x.digit? with
      | none => .error (.next .invalidNumber (x :: rest))
      | some d =>
          if d = 0 && startsWithDigit rest then .error (.next .invalidNumber rest)
          else
            let (n, _, rest) := takeDigits wordLimit d 1 rest
            if startsWithDigit rest then
              let more := (rest.takeWhile fun x => x.digit?.isSome).length
              readBehindWhole negative n more (skipDigits rest)
            else match rest with
              | [] => .ok (integerOrFloat negative n, [])
              | x :: after =>
                  if continuesNumber x then readBehindWhole negative n 0 (x :: after)
                  else .ok (integerOrFloat negative n, x :: after)

end PseudocodeLexer.Json
