import PseudocodeLexer.Json.Reader

/-!
# Strings of a document

Inside a string a backslash starts an escape: one of eight single characters, or four hexadecimal
digits of a UTF-16 unit. A character beyond U+FFFF takes two such units, a leading and a trailing
surrogate; neither may stand alone. Other controls must be escaped. Bytes that form no character are
noticed when the string is closed. The failure then lies in front of the place behind the closing
quote, by as many bytes as the value of the string takes from the first of them on.

A string that nobody asked for is skipped. Then its escapes are checked for their form only.
-/

namespace PseudocodeLexer.Json

/-! ## Escapes -/

def hexDigit? : Symbol → Option Nat
  | .char c =>
      if c.isDigit then some (c.toNat - '0'.toNat)
      else if 'a' ≤ c && c ≤ 'f' then some (c.toNat - 'a'.toNat + 10)
      else if 'A' ≤ c && c ≤ 'F' then some (c.toNat - 'A'.toNat + 10)
      else none
  | .stray _ => none

def hexFour? (a b c d : Symbol) : Option Nat :=
  match hexDigit? a, hexDigit? b, hexDigit? c, hexDigit? d with
  | some a, some b, some c, some d => some (((a * 16 + b) * 16 + c) * 16 + d)
  | _, _, _, _ => none

/-- Takes four bytes, which have to be hexadecimal digits. -/
def takeHexFour (s : List Symbol) : Step Nat :=
  if Symbol.totalWidth s < 4 then .error (.here .endInString [])
  else match s with
    | a :: b :: c :: d :: rest =>
        match hexFour? a b c d with
        | some unit => .ok (unit, rest)
        | none => .error ⟨.invalidEscape, a :: b :: c :: d :: rest, .behind 4⟩
    | s => .error ⟨.invalidEscape, s, .behind 4⟩

theorem length_lt_of_takeHexFour {s rest : List Symbol} {unit : Nat}
    (h : takeHexFour s = .ok (unit, rest)) : rest.length < s.length := by
  unfold takeHexFour at h
  split at h
  · simp at h
  · split at h
    · split at h
      · simp only [Except.ok.injEq, Prod.mk.injEq] at h
        simp only [h.2, List.length_cons]
        omega
      · simp at h
    · simp at h

def isLeadingSurrogate (unit : Nat) : Bool :=
  0xD800 ≤ unit && unit ≤ 0xDBFF

def isTrailingSurrogate (unit : Nat) : Bool :=
  0xDC00 ≤ unit && unit ≤ 0xDFFF

def surrogatePair (leading trailing : Nat) : Char :=
  Char.ofNat ((leading - 0xD800) * 0x400 + (trailing - 0xDC00) + 0x10000)

/-- Takes the escape that has to follow a leading surrogate. -/
def takeTrailingSurrogate (leading : Nat) : List Symbol → Step Char
  | [] => .error (.here .endInString [])
  | .char '\\' :: [] => .error (.here .endInString [])
  | .char '\\' :: .char 'u' :: rest =>
      match takeHexFour rest with
      | .error failure => .error failure
      | .ok (trailing, rest) =>
          if isTrailingSurrogate trailing then .ok (surrogatePair leading trailing, rest)
          else .error (.here .unpairedSurrogate rest)
  | .char '\\' :: rest => .error (.next .brokenSurrogatePair rest)
  | rest => .error (.next .brokenSurrogatePair rest)

theorem length_lt_of_takeTrailingSurrogate {leading : Nat} {s rest : List Symbol} {c : Char}
    (h : takeTrailingSurrogate leading s = .ok (c, rest)) : rest.length < s.length := by
  unfold takeTrailingSurrogate at h
  split at h
  · simp at h
  · simp at h
  · split at h
    · simp at h
    · rename_i hhex
      split at h
      · simp only [Except.ok.injEq, Prod.mk.injEq] at h
        have hlt := length_lt_of_takeHexFour hhex
        simp only [← h.2, List.length_cons]
        omega
      · simp at h
  · simp at h
  · simp at h

/-- The character that a one-letter escape stands for. -/
def letterEscape? : Symbol → Option Char
  | .char '"' => some '"'
  | .char '\\' => some '\\'
  | .char '/' => some '/'
  | .char 'b' => some '\x08'
  | .char 'f' => some '\x0c'
  | .char 'n' => some '\n'
  | .char 'r' => some '\r'
  | .char 't' => some '\t'
  | _ => none

/-- Takes an escape behind its backslash. -/
def takeEscape : List Symbol → Step Char
  | [] => .error (.here .endInString [])
  | .char 'u' :: rest =>
      match takeHexFour rest with
      | .error failure => .error failure
      | .ok (unit, rest) =>
          if isTrailingSurrogate unit then .error (.here .unpairedSurrogate rest)
          else if isLeadingSurrogate unit then takeTrailingSurrogate unit rest
          else .ok (Char.ofNat unit, rest)
  | x :: rest =>
      match letterEscape? x with
      | some c => .ok (c, rest)
      | none => .error (.next .invalidEscape (x :: rest))

theorem length_lt_of_takeEscape {s rest : List Symbol} {c : Char}
    (h : takeEscape s = .ok (c, rest)) : rest.length < s.length := by
  unfold takeEscape at h
  split at h
  · simp at h
  · split at h
    · simp at h
    · rename_i hhex
      have hlt := length_lt_of_takeHexFour hhex
      split at h
      · simp at h
      · split at h
        · have hlt' := length_lt_of_takeTrailingSurrogate h
          simp only [List.length_cons]
          omega
        · simp only [Except.ok.injEq, Prod.mk.injEq] at h
          simp only [← h.2, List.length_cons]
          omega
  · split at h
    · simp only [Except.ok.injEq, Prod.mk.injEq] at h
      simp [← h.2]
    · simp at h

/-! ## Reading -/

/-- Reads up to the closing quote, which is left. -/
def takeStringBody (s : List Symbol) : Step (List Symbol) :=
  match s with
  | [] => .error (.here .endInString [])
  | .char '"' :: rest => .ok ([], .char '"' :: rest)
  | .char '\\' :: rest =>
      match h : takeEscape rest with
      | .error failure => .error failure
      | .ok (c, after) =>
          have : after.length < (Symbol.char '\\' :: rest).length :=
            Nat.lt_succ_of_lt (length_lt_of_takeEscape h)
          match takeStringBody after with
          | .error failure => .error failure
          | .ok (body, rest) => .ok (.char c :: body, rest)
  | x :: rest =>
      if x.isControl then .error (.next .controlCharacter (x :: rest))
      else match takeStringBody rest with
        | .error failure => .error failure
        | .ok (body, rest) => .ok (x :: body, rest)
termination_by s.length
decreasing_by
  · exact this
  · exact Nat.lt_succ_self _

theorem length_le_of_takeStringBody {s body rest : List Symbol}
    (h : takeStringBody s = .ok (body, rest)) : rest.length ≤ s.length := by
  fun_induction takeStringBody s generalizing body rest with
  | case1 => simp at h
  | case2 => simp_all
  | case3 => simp at h
  | case4 => simp at h
  | case5 s c after hescape hlt b r hbody ih =>
      simp only [Except.ok.injEq, Prod.mk.injEq] at h
      have hle := ih hbody
      have hlt := length_lt_of_takeEscape hescape
      simp only [← h.2, List.length_cons]
      omega
  | case6 => simp at h
  | case7 => simp at h
  | case8 x s _ _ _ b r hbody ih =>
      simp only [Except.ok.injEq, Prod.mk.injEq] at h
      have hle := ih hbody
      simp only [← h.2, List.length_cons]
      omega

/-- The characters of a string, unless a stray byte is among them. -/
def characters? : List Symbol → Option Text
  | [] => some []
  | .char c :: rest =>
      match characters? rest with
      | some t => some (c :: t)
      | none => none
  | .stray _ :: _ => none

/-- Bytes of the value of a string from its first stray byte on. -/
def malformedWidth : List Symbol → Nat
  | [] => 0
  | .char _ :: rest => malformedWidth rest
  | .stray byte :: rest => Symbol.totalWidth (.stray byte :: rest)

/-- Reads a string behind its opening quote. -/
def takeString (s : List Symbol) : Step Text :=
  match takeStringBody s with
  | .error failure => .error failure
  | .ok (body, rest) =>
      match characters? body with
      | some t => .ok (t, rest.tail)
      | none => .error ⟨.invalidCodePoint, rest.tail, .before (malformedWidth body)⟩

theorem length_le_of_takeString {s rest : List Symbol} {t : Text}
    (h : takeString s = .ok (t, rest)) : rest.length ≤ s.length := by
  unfold takeString at h
  split at h
  · simp at h
  · rename_i hbody
    split at h
    · simp only [Except.ok.injEq, Prod.mk.injEq] at h
      have hle := length_le_of_takeStringBody hbody
      simp only [← h.2, List.length_tail]
      omega
    · simp at h

/-! ## Skipping -/

/-- Skips an escape behind its backslash. -/
def skipEscape : List Symbol → Except Failure (List Symbol)
  | [] => .error (.here .endInString [])
  | .char 'u' :: rest =>
      match takeHexFour rest with
      | .error failure => .error failure
      | .ok (_, rest) => .ok rest
  | x :: rest =>
      match letterEscape? x with
      | some _ => .ok rest
      | none => .error (.next .invalidEscape (x :: rest))

theorem length_lt_of_skipEscape {s rest : List Symbol} (h : skipEscape s = .ok rest) :
    rest.length < s.length := by
  unfold skipEscape at h
  split at h
  · simp at h
  · split at h
    · simp at h
    · rename_i hhex
      simp only [Except.ok.injEq] at h
      have hlt := length_lt_of_takeHexFour hhex
      simp only [← h, List.length_cons]
      omega
  · split at h
    · simp only [Except.ok.injEq] at h
      simp [← h]
    · simp at h

/-- Skips a string behind its opening quote. -/
def skipString (s : List Symbol) : Except Failure (List Symbol) :=
  match s with
  | [] => .error (.here .endInString [])
  | .char '"' :: rest => .ok rest
  | .char '\\' :: rest =>
      match h : skipEscape rest with
      | .error failure => .error failure
      | .ok after =>
          have : after.length < (Symbol.char '\\' :: rest).length :=
            Nat.lt_succ_of_lt (length_lt_of_skipEscape h)
          skipString after
  | x :: rest =>
      if x.isControl then .error (.peeked .controlCharacter (x :: rest)) else skipString rest
termination_by s.length
decreasing_by
  · exact this
  · exact Nat.lt_succ_self _

theorem length_le_of_skipString {s rest : List Symbol} (h : skipString s = .ok rest) :
    rest.length ≤ s.length := by
  fun_induction skipString s with
  | case1 => simp at h
  | case2 => simp_all
  | case3 => simp at h
  | case4 s after hescape hlt ih =>
      have hle := ih h
      have hlt := length_lt_of_skipEscape hescape
      simp only [List.length_cons]
      omega
  | case5 => simp at h
  | case6 x s _ _ _ ih =>
      have hle := ih h
      simp only [List.length_cons]
      omega

end PseudocodeLexer.Json
