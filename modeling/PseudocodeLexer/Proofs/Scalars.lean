import Mathlib.Data.List.Forall2
import PseudocodeLexer.Proofs.QuotedText
import PseudocodeLexer.Proofs.WrittenRecords

/-!
# Objects of strings and numbers

An object whose keys nobody knows in advance is read as the list of its members in their order
(`Reader.object`). Its values may be strings and natural numbers (`scalar`). A natural number goes
as far as there are digits, has no leading zero and may be of any size. What was written as such an
object is read back with the same keys and values (`Reader.object_takesBack`).
-/

namespace PseudocodeLexer.Json

open Text

/-! ## Natural numbers -/

/-- The digits of a number have no leading zero, but for zero itself. -/
def isNumeral : Text → Bool
  | [] => false
  | [_] => true
  | c :: _ => c ≠ '0'

def leadingDigits (s : List Symbol) : Text :=
  (s.takeWhile fun x => x.digit?.isSome).filterMap Symbol.char?

/-- Takes a natural number that is not the whole part of another number. -/
def takeNatural (s : List Symbol) : Step Nat :=
  if isNumeral (leadingDigits s) && !(skipDigits s).head?.any continuesNumber then
    .ok (Nat.ofDigitChars 10 (leadingDigits s) 0, skipDigits s)
  else .error (.next .invalidNumber s)

theorem length_lt_of_takeNatural {s rest : List Symbol} {n : Nat}
    (h : takeNatural s = .ok (n, rest)) : rest.length < s.length := by
  unfold takeNatural at h
  split at h
  · rename_i hnumeral
    cases h
    have hsplit := congrArg List.length
      (List.takeWhile_append_dropWhile (p := fun x : Symbol => x.digit?.isSome) (l := s))
    rw [List.length_append] at hsplit
    have hpos : 0 < (s.takeWhile fun x => x.digit?.isSome).length := by
      apply List.length_pos_iff.mpr
      intro hnil
      simp [leadingDigits, hnil, isNumeral] at hnumeral
    rw [skipDigits]
    omega
  · cases h

theorem isSome_digit?_of_mem_decimal {n : Nat} {x : Symbol}
    (h : x ∈ Symbol.ofText (decimal n)) : x.digit?.isSome = true := by
  obtain ⟨c, hc, rfl⟩ := List.mem_map.mp h
  simp [Symbol.digit?, isDigit_of_mem_decimal hc]

theorem head?_decimal_ne_zero {n : Nat} (h : n ≠ 0) : (decimal n).head? ≠ some '0' := by
  unfold decimal
  induction n using Nat.strongRecOn with
  | ind n ih =>
      rw [Nat.toDigits_eq_if (by decide)]
      split
      · simpa using h
      · -- The first digit is that of the number without its last one.
        have hhigh := ih (n / 10) (by omega) (by omega)
        cases hdigits : Nat.toDigits 10 (n / 10) with
        | nil => exact absurd hdigits Nat.toDigits_ne_nil
        | cons c digits => simpa [hdigits] using hhigh

theorem isNumeral_decimal (n : Nat) : isNumeral (decimal n) = true := by
  by_cases hzero : n = 0
  · subst hzero
    rfl
  · have hhead := head?_decimal_ne_zero hzero
    cases hdigits : decimal n with
    | nil => exact absurd hdigits Nat.toDigits_ne_nil
    | cons c digits =>
        rw [hdigits] at hhead
        cases digits with
        | nil => rfl
        | cons d digits => simpa [isNumeral] using hhead

theorem takeWhile_digits_of_endsNumber {rest : List Symbol} (hrest : EndsNumber rest) :
    rest.takeWhile (fun x => x.digit?.isSome) = [] ∧ skipDigits rest = rest ∧
      rest.head?.any continuesNumber = false := by
  cases rest with
  | nil => exact ⟨rfl, rfl, rfl⟩
  | cons x rest =>
      obtain ⟨hdigit, hcontinues⟩ := hrest x rfl
      simp [skipDigits, hdigit, hcontinues]

/-- A decimal is taken as far as it goes. -/
theorem takeNatural_decimal (n : Nat) {rest : List Symbol} (hrest : EndsNumber rest) :
    takeNatural (Symbol.ofText (decimal n) ++ rest) = .ok (n, rest) := by
  have hdigits : ∀ x ∈ Symbol.ofText (decimal n), x.digit?.isSome = true :=
    fun _ => isSome_digit?_of_mem_decimal
  obtain ⟨hnone, hskip, hends⟩ := takeWhile_digits_of_endsNumber hrest
  have hleading : leadingDigits (Symbol.ofText (decimal n) ++ rest) = decimal n := by
    rw [leadingDigits, List.takeWhile_append_of_pos hdigits, hnone, List.append_nil,
      Symbol.ofText, List.filterMap_map]
    exact List.filterMap_some
  have hbehind : skipDigits (Symbol.ofText (decimal n) ++ rest) = rest := by
    rw [skipDigits, List.dropWhile_append_of_pos hdigits]
    exact hskip
  have hvalue : Nat.ofDigitChars 10 (decimal n) 0 = n := Nat.ofDigitChars_ten_toDigits
  simp [takeNatural, hleading, hbehind, isNumeral_decimal, hends, hvalue]

/-! ## Strings and numbers -/

inductive Scalar where
  | text (t : Text)
  | natural (n : Nat)
  deriving DecidableEq

def readScalar (s : List Symbol) : Step Scalar :=
  match skipBlanks s with
  | .char '"' :: rest =>
      match takeString rest with
      | .error failure => .error failure
      | .ok (t, rest) => .ok (.text t, rest)
  | rest =>
      match takeNatural rest with
      | .error failure => .error failure
      | .ok (n, rest) => .ok (.natural n, rest)

theorem length_lt_of_readScalar {s rest : List Symbol} {a : Scalar}
    (h : readScalar s = .ok (a, rest)) : rest.length < s.length := by
  unfold readScalar at h
  split at h
  · rename_i hs
    split at h
    · cases h
    · rename_i hstring
      cases h
      exact Nat.lt_of_le_of_lt (length_le_of_takeString hstring) (length_lt_of_skipBlanks hs)
  · split at h
    · cases h
    · rename_i hnatural
      cases h
      exact Nat.lt_of_lt_of_le (length_lt_of_takeNatural hnatural) (length_skipBlanks_le s)

def scalar : Reader Scalar where
  read := readScalar
  shrinks := length_lt_of_readScalar

theorem scalar_takesBack_text (t : Text) : scalar.TakesBack (writeString t) (.text t) := by
  intro blanks rest hblanks _
  simp only [scalar, readScalar, skipBlanks_writeString hblanks, takeString_written]

theorem readScalar_of_isDigit {blanks rest : List Symbol} {c : Char}
    (hblanks : ∀ x ∈ blanks, x.isBlank = true) (hdigit : c.isDigit = true) :
    readScalar (blanks ++ .char c :: rest) =
      match takeNatural (.char c :: rest) with
      | .error failure => .error failure
      | .ok (n, rest) => .ok (.natural n, rest) := by
  have hne : ∀ d : Char, d.isDigit = false → c ≠ d := by
    rintro d hd rfl
    rw [hdigit] at hd
    cases hd
  have hblank : (Symbol.char c).isBlank = false := by
    simp [Symbol.isBlank, hne ' ' rfl, hne '\n' rfl, hne '\t' rfl, hne '\r' rfl]
  rw [readScalar, skipBlanks_append hblanks hblank]
  split
  · rename_i hquote
    cases hquote
    exact absurd rfl (hne '"' rfl)
  · rfl

theorem scalar_takesBack_natural (n : Nat) : scalar.TakesBack (decimal n) (.natural n) := by
  intro blanks rest hblanks hrest
  have hnatural := takeNatural_decimal n hrest
  obtain ⟨c, digits, hdecimal⟩ := List.exists_cons_of_ne_nil
    (show decimal n ≠ [] from Nat.toDigits_ne_nil)
  have hdigit : c.isDigit = true := isDigit_of_mem_decimal (n := n) (by simp [hdecimal])
  rw [hdecimal, Symbol.ofText_cons, List.cons_append] at hnatural ⊢
  change readScalar _ = _
  rw [readScalar_of_isDigit hblanks hdigit, hnatural]

/-! ## Objects -/

namespace Reader

variable {α : Type}

/-- Reads the members of an object, in their order, up to and including its closing brace. -/
def readMembers (reader : Reader α) (first : Bool) (s : List Symbol) :
    Step (List (Text × α)) :=
  match hkey : Record.takeKey first s with
  | .error failure => .error failure
  | .ok (none, rest) => .ok ([], rest)
  | .ok (some key, rest) =>
      match hcolon : takeColon rest with
      | .error failure => .error failure
      | .ok behind =>
          match hvalue : reader.read behind with
          | .error failure => .error failure
          | .ok (a, after) =>
              have : after.length < s.length := by
                have hkey := Record.length_lt_of_takeKey hkey
                have hcolon := length_lt_of_takeColon hcolon
                have hvalue := reader.shrinks hvalue
                omega
              match readMembers reader false after with
              | .error failure => .error failure
              | .ok (members, rest) => .ok ((key, a) :: members, rest)
termination_by s.length
decreasing_by exact this

theorem length_lt_of_readMembers {reader : Reader α} {first : Bool} {s rest : List Symbol}
    {members : List (Text × α)} (h : reader.readMembers first s = .ok (members, rest)) :
    rest.length < s.length := by
  fun_induction readMembers reader first s generalizing members rest with
  | case1 => cases h
  | case2 first s rest' hkey =>
      cases h
      exact Record.length_lt_of_takeKey hkey
  | case3 => cases h
  | case4 => cases h
  | case5 => cases h
  | case6 first s key rest' hkey behind hcolon a after hvalue hlt members' rest'' hmembers ih =>
      cases h
      exact Nat.lt_trans (ih hmembers) hlt

def readObject (reader : Reader α) (s : List Symbol) : Step (List (Text × α)) :=
  match skipBlanks s with
  | [] => .error (.next .endInValue [])
  | .char '{' :: rest => reader.readMembers true rest
  | x :: rest => .error (mismatch "an object".toList x rest)

theorem length_lt_of_readObject {reader : Reader α} {s rest : List Symbol}
    {members : List (Text × α)} (h : reader.readObject s = .ok (members, rest)) :
    rest.length < s.length := by
  unfold readObject at h
  split at h
  · cases h
  · rename_i hs
    exact Nat.lt_trans (length_lt_of_readMembers h) (length_lt_of_skipBlanks hs)
  · cases h

/-- Reads an object as its members, whose values are all read by the same reader. -/
def object (reader : Reader α) : Reader (List (Text × α)) where
  read := reader.readObject
  shrinks := length_lt_of_readObject

theorem readMembers_of_end {reader : Reader α} {first : Bool} {s rest : List Symbol}
    (h : Record.takeKey first s = .ok (none, rest)) :
    reader.readMembers first s = .ok ([], rest) := by
  rw [readMembers]
  grind

theorem readMembers_of_member {reader : Reader α} {first : Bool}
    {s rest behind after left : List Symbol} {key : Text} {a : α} {members : List (Text × α)}
    (hkey : Record.takeKey first s = .ok (some key, rest)) (hcolon : takeColon rest = .ok behind)
    (hvalue : reader.read behind = .ok (a, after))
    (hmembers : reader.readMembers false after = .ok (members, left)) :
    reader.readMembers first s = .ok ((key, a) :: members, left) := by
  rw [readMembers]
  grind

/-- The reader takes back each of the written members, under the same key. -/
def TakesBackMembers (reader : Reader α) : List (Text × Text) → List (Text × α) → Prop :=
  List.Forall₂ fun written member =>
    written.1 = member.1 ∧ reader.TakesBack written.2 member.2

theorem readMembers_written {reader : Reader α} {layout : Layout} {depth : Nat}
    {written : List (Text × Text)} {members : List (Text × α)}
    (h : reader.TakesBackMembers written members) (first : Bool) (rest : List Symbol) :
    reader.readMembers first (Symbol.ofText (writeMembers layout depth first written) ++ rest)
      = .ok (members, rest) := by
  induction h generalizing first with
  | nil => exact readMembers_of_end (takeKey_end rest)
  | @cons member value written members hmember _ ih =>
      obtain ⟨key, form⟩ := member
      obtain ⟨key', a⟩ := value
      obtain ⟨rfl, htakes⟩ := hmember
      obtain ⟨s, hcolon, hread⟩ := htakes.behind_colon layout depth written rest
      rw [ofText_writeMembers_cons]
      exact readMembers_of_member (takeKey_written key _) hcolon hread (ih false)

theorem object_takesBack {reader : Reader α} {layout : Layout} {depth : Nat}
    {written : List (Text × Text)} {members : List (Text × α)}
    (h : reader.TakesBackMembers written members) :
    reader.object.TakesBack (writeObject layout depth written) members := by
  intro blanks rest hblanks _
  simp only [object, readObject, skipBlanks_writeObject hblanks]
  exact readMembers_written h true rest

end Reader

end PseudocodeLexer.Json
