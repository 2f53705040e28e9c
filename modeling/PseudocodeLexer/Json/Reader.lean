import PseudocodeLexer.Json.Failure

/-!
# Readers

A reader takes a value of one type off the front of a document and leaves the rest, or fails. What
it takes is never empty, so reading a sequence of values comes to an end. Blanks before a value are
skipped.
-/

namespace PseudocodeLexer.Json

/-- A value with what is left behind it, or a failure. -/
abbrev Step (α : Type) := Except Failure (α × List Symbol)

structure Reader (α : Type) where
  read : List Symbol → Step α
  shrinks : ∀ {s : List Symbol} {a : α} {rest : List Symbol},
    read s = .ok (a, rest) → rest.length < s.length

def Reader.map {α β : Type} (f : α → β) (reader : Reader α) : Reader β where
  read s :=
    match reader.read s with
    | .error failure => .error failure
    | .ok (a, rest) => .ok (f a, rest)
  shrinks {s b rest} h := by
    split at h
    · simp at h
    · rename_i a rest' hread
      simp only [Except.ok.injEq, Prod.mk.injEq] at h
      exact h.2 ▸ reader.shrinks hread

/-! ## Blanks -/

def skipBlanks (s : List Symbol) : List Symbol :=
  s.dropWhile Symbol.isBlank

theorem length_skipBlanks_le (s : List Symbol) : (skipBlanks s).length ≤ s.length :=
  (List.dropWhile_sublist _).length_le

theorem length_lt_of_skipBlanks {s rest : List Symbol} {x : Symbol}
    (h : skipBlanks s = x :: rest) : rest.length < s.length := by
  have hle := length_skipBlanks_le s
  rw [h, List.length_cons] at hle
  omega

/-! ## Literals -/

/-- Takes the letters of a literal, the first of which has been recognized. -/
def takeLiteral : Text → List Symbol → Except Failure (List Symbol)
  | [], s => .ok s
  | _ :: _, [] => .error (.here .endInValue [])
  | c :: word, x :: rest =>
      if x = .char c then takeLiteral word rest else .error (.next .expectedLiteral (x :: rest))

theorem length_le_of_takeLiteral {word : Text} {s rest : List Symbol}
    (h : takeLiteral word s = .ok rest) : rest.length ≤ s.length := by
  induction word generalizing s with
  | nil =>
      simp only [takeLiteral, Except.ok.injEq] at h
      simp [h]
  | cons c word ih =>
      cases s with
      | nil => simp [takeLiteral] at h
      | cons x s =>
          simp only [takeLiteral] at h
          split at h
          · exact Nat.le_succ_of_le (ih h)
          · simp at h

/-! ## The end of a document -/

/-- Reads a whole document: one value, and nothing but blanks behind it. -/
def Reader.readDocument {α : Type} (reader : Reader α) (document : List Symbol) :
    Except Failure α :=
  match reader.read document with
  | .error failure => .error failure
  | .ok (a, rest) =>
      match skipBlanks rest with
      | [] => .ok a
      | x :: rest => .error (.next .trailingCharacters (x :: rest))

def Reader.decode {α : Type} (reader : Reader α) (source : Source) (document : List Symbol) :
    Except Error α :=
  match reader.readDocument document with
  | .error failure => .error (failure.toError source document)
  | .ok a => .ok a

end PseudocodeLexer.Json
