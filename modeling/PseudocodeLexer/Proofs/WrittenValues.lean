import PseudocodeLexer.Json.Value
import PseudocodeLexer.Json.Writer

/-!
# Written values are read back

What a writer makes of a value is taken back by the reader of its type, behind blanks and in front
of anything that does not go on as a number would (`Reader.TakesBack`). For a string this goes
character by character: each of them is written as itself or as an escape, and the reader takes
either as the character it stands for (`takeStringBody_escapeChar`).
-/

namespace PseudocodeLexer.Json

/-! ## Symbols of texts -/

namespace Symbol

@[simp]
theorem ofText_nil : ofText [] = [] := rfl

@[simp]
theorem ofText_cons (c : Char) (t : Text) : ofText (c :: t) = .char c :: ofText t := rfl

@[simp]
theorem ofText_append (s t : Text) : ofText (s ++ t) = ofText s ++ ofText t := by
  simp [ofText]

end Symbol

/-! ## Reading behind blanks -/

theorem skipBlanks_cons {x : Symbol} (hx : x.isBlank = false) (rest : List Symbol) :
    skipBlanks (x :: rest) = x :: rest :=
  List.dropWhile_cons_of_neg (by simp [hx])

theorem skipBlanks_append {blanks : List Symbol} (hblanks : ∀ x ∈ blanks, x.isBlank = true)
    {x : Symbol} (hx : x.isBlank = false) (rest : List Symbol) :
    skipBlanks (blanks ++ x :: rest) = x :: rest := by
  rw [skipBlanks, List.dropWhile_append_of_pos hblanks]
  exact skipBlanks_cons hx rest

/-- A number ends in front of these symbols. -/
def EndsNumber (rest : List Symbol) : Prop :=
  ∀ x ∈ rest.head?, x.digit? = none ∧ continuesNumber x = false

/-- The reader takes the written form for the value, whatever follows. -/
def Reader.TakesBack {α : Type} (reader : Reader α) (written : Text) (a : α) : Prop :=
  ∀ blanks rest : List Symbol, (∀ x ∈ blanks, x.isBlank = true) → EndsNumber rest →
    reader.read (blanks ++ (Symbol.ofText written ++ rest)) = .ok (a, rest)

namespace Reader.TakesBack

variable {α β : Type} {reader : Reader α} {written : Text} {a : α}

theorem map (h : reader.TakesBack written a) (f : α → β) :
    (reader.map f).TakesBack written (f a) := by
  intro blanks rest hblanks hrest
  simp only [Reader.map, h blanks rest hblanks hrest]

theorem readDocument (h : reader.TakesBack written a) :
    reader.readDocument (Symbol.ofText written) = .ok a := by
  have hread := h [] [] (by simp) (by simp [EndsNumber])
  rw [List.append_nil, List.nil_append] at hread
  simp [Reader.readDocument, hread, skipBlanks]

theorem decode (h : reader.TakesBack written a) (source : Source) :
    reader.decode source (Symbol.ofText written) = .ok a := by
  rw [Reader.decode, h.readDocument]

end Reader.TakesBack

/-! ## Characters of a string -/

/-- The characters with an escape of two characters, and its second one. -/
def shortEscapes : List (Char × Char) :=
  [('"', '"'), ('\\', '\\'), ('\x08', 'b'), ('\x0c', 'f'), ('\n', 'n'), ('\r', 'r'), ('\t', 't')]

/-- A character is written as an escape of two characters, by its two low hexadecimal digits, or as
itself. -/
theorem escapeChar_cases (c : Char) :
    (∃ letter, (c, letter) ∈ shortEscapes ∧ escapeChar c = ['\\', letter]) ∨
    (c.toNat < 0x20 ∧ escapeChar c =
      ['\\', 'u', '0', '0', Nat.digitChar (c.toNat / 16), Nat.digitChar (c.toNat % 16)]) ∨
    (c ≠ '"' ∧ c ≠ '\\' ∧ 0x20 ≤ c.toNat ∧ escapeChar c = [c]) := by
  by_cases hshort : ∃ letter, (c, letter) ∈ shortEscapes
  · obtain ⟨letter, hmem⟩ := hshort
    have hforms : ∀ escape ∈ shortEscapes, escapeChar escape.1 = ['\\', escape.2] := by decide
    exact .inl ⟨letter, hmem, hforms _ hmem⟩
  · simp only [shortEscapes, List.mem_cons, Prod.mk.injEq, List.not_mem_nil, or_false, exists_or,
      exists_eq_right, not_or] at hshort
    obtain ⟨hquote, hbackslash, hrest⟩ := hshort
    by_cases hcontrol : c.toNat < 0x20
    · exact .inr (.inl ⟨hcontrol, by simp [escapeChar, hquote, hbackslash, hrest, hcontrol]⟩)
    · refine .inr (.inr ⟨hquote, hbackslash, Nat.le_of_not_lt hcontrol, ?_⟩)
      simp [escapeChar, hquote, hbackslash, hrest, hcontrol]

theorem hexDigit?_digitChar :
    ∀ digit < 16, hexDigit? (.char digit.digitChar) = some digit := by
  decide

theorem takeHexFour_of_hexDigits {s t u v : Char} {a b c d : Nat}
    (ha : hexDigit? (.char s) = some a) (hb : hexDigit? (.char t) = some b)
    (hc : hexDigit? (.char u) = some c) (hd : hexDigit? (.char v) = some d)
    (rest : List Symbol) :
    takeHexFour (.char s :: .char t :: .char u :: .char v :: rest)
      = .ok (((a * 16 + b) * 16 + c) * 16 + d, rest) := by
  have hwidth : ¬ Symbol.totalWidth (.char s :: .char t :: .char u :: .char v :: rest) < 4 := by
    have := s.utf8Size_pos
    have := t.utf8Size_pos
    have := u.utf8Size_pos
    have := v.utf8Size_pos
    simp only [Symbol.totalWidth, Symbol.width]
    omega
  simp [takeHexFour, hwidth, hexFour?, ha, hb, hc, hd]

theorem takeHexFour_digitChars {a b c d : Nat} (ha : a < 16) (hb : b < 16) (hc : c < 16)
    (hd : d < 16) (rest : List Symbol) :
    takeHexFour (.char a.digitChar :: .char b.digitChar :: .char c.digitChar :: .char d.digitChar
      :: rest) = .ok (((a * 16 + b) * 16 + c) * 16 + d, rest) :=
  takeHexFour_of_hexDigits (hexDigit?_digitChar a ha) (hexDigit?_digitChar b hb)
    (hexDigit?_digitChar c hc) (hexDigit?_digitChar d hd) rest

/-- The escape of a control is taken back. -/
theorem takeEscape_control {c : Char} (h : c.toNat < 0x20) (rest : List Symbol) :
    takeEscape (.char 'u' :: .char '0' :: .char '0' :: .char (Nat.digitChar (c.toNat / 16))
      :: .char (Nat.digitChar (c.toNat % 16)) :: rest) = .ok (c, rest) := by
  have hhex := takeHexFour_digitChars (a := 0) (b := 0) (by decide) (by decide)
    (show c.toNat / 16 < 16 by omega) (show c.toNat % 16 < 16 by omega) rest
  have hvalue : ((0 * 16 + 0) * 16 + c.toNat / 16) * 16 + c.toNat % 16 = c.toNat := by omega
  rw [hvalue] at hhex
  have hleading : isLeadingSurrogate c.toNat = false := by grind [isLeadingSurrogate]
  have htrailing : isTrailingSurrogate c.toNat = false := by grind [isTrailingSurrogate]
  have hzero : Nat.digitChar 0 = '0' := rfl
  rw [hzero] at hhex
  simp [takeEscape, hhex, hleading, htrailing, Char.ofNat_toNat]

/-- The escape of two characters is taken back. -/
theorem takeEscape_short {c letter : Char} (h : (c, letter) ∈ shortEscapes) (rest : List Symbol) :
    takeEscape (.char letter :: rest) = .ok (c, rest) := by
  simp only [shortEscapes, List.mem_cons, Prod.mk.injEq, List.not_mem_nil, or_false] at h
  rcases h with ⟨rfl, rfl⟩ | ⟨rfl, rfl⟩ | ⟨rfl, rfl⟩ | ⟨rfl, rfl⟩ | ⟨rfl, rfl⟩ | ⟨rfl, rfl⟩ |
    ⟨rfl, rfl⟩ <;> rfl

theorem takeStringBody_of_takeEscape {s after body rest : List Symbol} {c : Char}
    (hescape : takeEscape s = .ok (c, after)) (hbody : takeStringBody after = .ok (body, rest)) :
    takeStringBody (.char '\\' :: s) = .ok (.char c :: body, rest) := by
  rw [takeStringBody]
  split
  · rename_i hfailure
    rw [hescape] at hfailure
    cases hfailure
  · rename_i hagain
    rw [hescape] at hagain
    cases hagain
    rw [hbody]

/-- The written form of a character is taken as that character, whatever comes behind it. -/
theorem takeStringBody_escapeChar (c : Char) {s body rest : List Symbol}
    (hbody : takeStringBody s = .ok (body, rest)) :
    takeStringBody (Symbol.ofText (escapeChar c) ++ s) = .ok (.char c :: body, rest) := by
  rcases escapeChar_cases c with ⟨letter, hmem, hform⟩ | ⟨hcontrol, hform⟩ |
    ⟨hquote, hbackslash, hplain, hform⟩
  · rw [hform]
    exact takeStringBody_of_takeEscape (takeEscape_short hmem s) hbody
  · rw [hform]
    exact takeStringBody_of_takeEscape (takeEscape_control hcontrol s) hbody
  · rw [hform]
    simp [takeStringBody, hquote, hbackslash, Symbol.isControl, hplain, hbody]

theorem takeStringBody_written (t : Text) (rest : List Symbol) :
    takeStringBody (Symbol.ofText (t.flatMap escapeChar) ++ .char '"' :: rest)
      = .ok (Symbol.ofText t, .char '"' :: rest) := by
  induction t with
  | nil => simp [takeStringBody]
  | cons c t ih =>
      rw [List.flatMap_cons, Symbol.ofText_append, List.append_assoc, Symbol.ofText_cons]
      exact takeStringBody_escapeChar c ih

theorem characters?_ofText (t : Text) : characters? (Symbol.ofText t) = some t := by
  induction t with
  | nil => rfl
  | cons c t ih => simp [characters?, ih]

/-- A written string is taken back from behind its opening quote. -/
theorem takeString_written (t : Text) (rest : List Symbol) :
    takeString (Symbol.ofText (t.flatMap escapeChar ++ ['"']) ++ rest) = .ok (t, rest) := by
  have happend : Symbol.ofText (t.flatMap escapeChar ++ ['"']) ++ rest
      = Symbol.ofText (t.flatMap escapeChar) ++ .char '"' :: rest := by simp
  rw [happend, takeString, takeStringBody_written]
  simp [characters?_ofText]

/-! ## Values -/

theorem skipBlanks_writeString {blanks : List Symbol} (hblanks : ∀ x ∈ blanks, x.isBlank = true)
    (t : Text) (rest : List Symbol) :
    skipBlanks (blanks ++ (Symbol.ofText (writeString t) ++ rest))
      = .char '"' :: (Symbol.ofText (t.flatMap escapeChar ++ ['"']) ++ rest) :=
  skipBlanks_append hblanks rfl _

theorem string_takesBack (t : Text) : string.TakesBack (writeString t) t := by
  intro blanks rest hblanks _
  simp only [string, readString, skipBlanks_writeString hblanks]
  exact takeString_written t rest

theorem bool_takesBack (b : Bool) : bool.TakesBack (writeBool b) b := by
  intro blanks rest hblanks _
  cases b with
  | false =>
      change readBool (blanks ++ .char 'f' :: (Symbol.ofText "alse".toList ++ rest)) = _
      rw [readBool, skipBlanks_append hblanks rfl]
      rfl
  | true =>
      change readBool (blanks ++ .char 't' :: (Symbol.ofText "rue".toList ++ rest)) = _
      rw [readBool, skipBlanks_append hblanks rfl]
      rfl

/-- A choice is taken back from its label. -/
theorem choice_takesBack {α : Type} {choices : List (Text × α)} {label : Text} {a : α}
    (h : choices.lookup label = some a) :
    (choice choices).TakesBack (writeString label) a := by
  intro blanks rest hblanks _
  simp only [choice, readChoice, skipBlanks_writeString hblanks, takeString_written, choose, h]

end PseudocodeLexer.Json
