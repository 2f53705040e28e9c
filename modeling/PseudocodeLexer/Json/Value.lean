import PseudocodeLexer.Json.Number
import PseudocodeLexer.Json.String

/-!
# Readers of single values

Truth values, strings, and choices from a closed set. A choice is its label as a string, or an
object whose only key is the label and whose value is null. A value of another type is read as far
as it takes to say what it is; of a list or an object only the bracket is looked at.
-/

namespace PseudocodeLexer.Json

/-! ## Values of another type -/

def mismatchLiteral (expected : Text) (found : Unexpected) (word : Text) (s : List Symbol) :
    Failure :=
  match takeLiteral word s with
  | .error failure => failure
  | .ok rest => .here (.invalidType found expected) rest

def mismatchNumber (expected : Text) (negative : Bool) (s : List Symbol) : Failure :=
  match readNumber negative s with
  | .error failure => failure
  | .ok (found, rest) => .peeked (.invalidType found expected) rest

def mismatchString (expected : Text) (s : List Symbol) : Failure :=
  match takeString s with
  | .error failure => failure
  | .ok (found, rest) => .here (.invalidType (.string found) expected) rest

/-- Why a value of another type is refused, given its first symbol. -/
def mismatch (expected : Text) (first : Symbol) (rest : List Symbol) : Failure :=
  match first with
  | .char 'n' => mismatchLiteral expected .null "ull".toList rest
  | .char 't' => mismatchLiteral expected (.boolean true) "rue".toList rest
  | .char 'f' => mismatchLiteral expected (.boolean false) "alse".toList rest
  | .char '-' => mismatchNumber expected true rest
  | .char '"' => mismatchString expected rest
  | .char '[' => .peeked (.invalidType .sequence expected) (.char '[' :: rest)
  | .char '{' => .peeked (.invalidType .map expected) (.char '{' :: rest)
  | x =>
      match x.digit? with
      | some _ => mismatchNumber expected false (x :: rest)
      | none => .next .expectedValue (x :: rest)

/-! ## Truth values and null -/

def readBool (s : List Symbol) : Step Bool :=
  match skipBlanks s with
  | [] => .error (.next .endInValue [])
  | .char 't' :: rest =>
      match takeLiteral "rue".toList rest with
      | .error failure => .error failure
      | .ok rest => .ok (true, rest)
  | .char 'f' :: rest =>
      match takeLiteral "alse".toList rest with
      | .error failure => .error failure
      | .ok rest => .ok (false, rest)
  | x :: rest => .error (mismatch "a boolean".toList x rest)

theorem length_lt_of_readBool {s rest : List Symbol} {b : Bool} (h : readBool s = .ok (b, rest)) :
    rest.length < s.length := by
  unfold readBool at h
  split at h
  · simp at h
  · rename_i hs
    split at h
    · simp at h
    · rename_i hword
      simp only [Except.ok.injEq, Prod.mk.injEq] at h
      have hle := length_le_of_takeLiteral hword
      have hlt := length_lt_of_skipBlanks hs
      rw [← h.2]
      omega
  · rename_i hs
    split at h
    · simp at h
    · rename_i hword
      simp only [Except.ok.injEq, Prod.mk.injEq] at h
      have hle := length_le_of_takeLiteral hword
      have hlt := length_lt_of_skipBlanks hs
      rw [← h.2]
      omega
  · simp at h

def bool : Reader Bool where
  read := readBool
  shrinks := length_lt_of_readBool

def readNull (s : List Symbol) : Except Failure (List Symbol) :=
  match skipBlanks s with
  | [] => .error (.next .endInValue [])
  | .char 'n' :: rest => takeLiteral "ull".toList rest
  | x :: rest => .error (mismatch "unit".toList x rest)

theorem length_lt_of_readNull {s rest : List Symbol} (h : readNull s = .ok rest) :
    rest.length < s.length := by
  unfold readNull at h
  split at h
  · simp at h
  · rename_i hs
    have hle := length_le_of_takeLiteral h
    have hlt := length_lt_of_skipBlanks hs
    omega
  · simp at h

/-! ## Strings -/

def readString (s : List Symbol) : Step Text :=
  match skipBlanks s with
  | [] => .error (.next .endInValue [])
  | .char '"' :: rest => takeString rest
  | x :: rest => .error (mismatch "a string".toList x rest)

theorem length_lt_of_readString {s rest : List Symbol} {t : Text}
    (h : readString s = .ok (t, rest)) : rest.length < s.length := by
  unfold readString at h
  split at h
  · simp at h
  · rename_i hs
    have hle := length_le_of_takeString h
    have hlt := length_lt_of_skipBlanks hs
    omega
  · simp at h

def string : Reader Text where
  read := readString
  shrinks := length_lt_of_readString

/-! ## Choices -/

/-- Takes the colon behind a key. -/
def takeColon (s : List Symbol) : Except Failure (List Symbol) :=
  match skipBlanks s with
  | [] => .error (.next .endInObject [])
  | .char ':' :: rest => .ok rest
  | x :: rest => .error (.next .expectedColon (x :: rest))

theorem length_lt_of_takeColon {s rest : List Symbol} (h : takeColon s = .ok rest) :
    rest.length < s.length := by
  unfold takeColon at h
  split at h
  · simp at h
  · rename_i hs
    simp only [Except.ok.injEq] at h
    exact h ▸ length_lt_of_skipBlanks hs
  · simp at h

/-- Takes the label of a choice written as an object, behind the opening brace. -/
def takeLabel (s : List Symbol) : Step Text :=
  match skipBlanks s with
  | [] => .error (.next .endInObject [])
  | .char '"' :: rest => takeString rest
  | .char '}' :: rest => .error (.next .expectedValue (.char '}' :: rest))
  | x :: rest => .error (.next .keyNotString (x :: rest))

theorem length_lt_of_takeLabel {s rest : List Symbol} {label : Text}
    (h : takeLabel s = .ok (label, rest)) : rest.length < s.length := by
  unfold takeLabel at h
  split at h
  · simp at h
  · rename_i hs
    have hle := length_le_of_takeString h
    have hlt := length_lt_of_skipBlanks hs
    omega
  · simp at h
  · simp at h

/-- The member of a closed set with a label, or a failure behind the label. -/
def choose {α : Type} (choices : List (Text × α)) (label : Text) (rest : List Symbol) :
    Except Failure α :=
  match choices.lookup label with
  | some a => .ok a
  | none => .error (.here (.unknownVariant label (choices.map Prod.fst)) rest)

/-- Reads a choice written as an object, behind the opening brace. -/
def readChoiceObject {α : Type} (choices : List (Text × α)) (s : List Symbol) : Step α :=
  match takeLabel s with
  | .error failure => .error failure
  | .ok (label, rest) =>
      match choose choices label rest with
      | .error failure => .error failure
      | .ok a =>
          match takeColon rest with
          | .error failure => .error failure
          | .ok rest =>
              match readNull rest with
              | .error failure => .error failure
              | .ok rest =>
                  match skipBlanks rest with
                  | [] => .error (.here .endInObject [])
                  | .char '}' :: rest => .ok (a, rest)
                  | x :: rest => .error (.peeked .expectedValue (x :: rest))

theorem length_lt_of_readChoiceObject {α : Type} {choices : List (Text × α)}
    {s rest : List Symbol} {a : α} (h : readChoiceObject choices s = .ok (a, rest)) :
    rest.length < s.length := by
  unfold readChoiceObject at h
  split at h
  · simp at h
  · rename_i hlabel
    split at h
    · simp at h
    · split at h
      · simp at h
      · rename_i hcolon
        split at h
        · simp at h
        · rename_i hnull
          split at h
          · simp at h
          · rename_i hs
            simp only [Except.ok.injEq, Prod.mk.injEq] at h
            have hlabel := length_lt_of_takeLabel hlabel
            have hcolon := length_lt_of_takeColon hcolon
            have hnull := length_lt_of_readNull hnull
            have hbrace := length_lt_of_skipBlanks hs
            rw [← h.2]
            omega
          · simp at h

def readChoice {α : Type} (choices : List (Text × α)) (s : List Symbol) : Step α :=
  match skipBlanks s with
  | [] => .error (.next .endInValue [])
  | .char '{' :: rest => readChoiceObject choices rest
  | .char '"' :: rest =>
      match takeString rest with
      | .error failure => .error failure
      | .ok (label, rest) =>
          match choose choices label rest with
          | .error failure => .error failure
          | .ok a => .ok (a, rest)
  | x :: rest => .error (.next .expectedValue (x :: rest))

theorem length_lt_of_readChoice {α : Type} {choices : List (Text × α)} {s rest : List Symbol}
    {a : α} (h : readChoice choices s = .ok (a, rest)) : rest.length < s.length := by
  unfold readChoice at h
  split at h
  · simp at h
  · rename_i hs
    have hobject := length_lt_of_readChoiceObject h
    have hlt := length_lt_of_skipBlanks hs
    omega
  · rename_i hs
    split at h
    · simp at h
    · rename_i hstring
      split at h
      · simp at h
      · simp only [Except.ok.injEq, Prod.mk.injEq] at h
        have hle := length_le_of_takeString hstring
        have hlt := length_lt_of_skipBlanks hs
        rw [← h.2]
        omega
  · simp at h

/-- Reads a member of a closed set by its label. -/
def choice {α : Type} (choices : List (Text × α)) : Reader α where
  read := readChoice choices
  shrinks := length_lt_of_readChoice

end PseudocodeLexer.Json
