import PseudocodeLexer.Proofs.Documents

/-!
# Strings of well-formed documents

A string is taken for its content however it is spelled, and refused if it has none
(`takeString_closed`). Skipping one asks for its form only, so a surrogate may stand alone in it
(`skipString_closed`).
-/

namespace PseudocodeLexer.Json

/-! ## Results apart from the failures -/

theorem refused_or_taken {α β : Type} {result : Except Failure α} {meaning : Option β}
    {f : β → α} (h : result.toOption = meaning.map f) :
    (∃ failure, result = .error failure ∧ meaning = none) ∨
      ∃ b, result = .ok (f b) ∧ meaning = some b := by
  cases result with
  | error failure => exact .inl ⟨failure, rfl, Option.map_eq_none_iff.mp h.symm⟩
  | ok a =>
      obtain ⟨b, hb, rfl⟩ := Option.map_eq_some_iff.mp h.symm
      exact .inr ⟨b, rfl, hb⟩

/-! ## Texts of strings -/

theorem ofText_spelled_cons (piece : Piece) (pieces : List Piece) (rest : List Symbol) :
    Symbol.ofText (spelled (piece :: pieces)) ++ rest
      = Symbol.ofText piece.form ++ (Symbol.ofText (spelled pieces) ++ rest) := by
  simp [spelled]

theorem ofText_closed (pieces : List Piece) (rest : List Symbol) :
    Symbol.ofText (closed pieces) ++ rest
      = Symbol.ofText (spelled pieces) ++ .char '"' :: rest := by
  simp [closed]

/-! ## Escapes -/

theorem hexDigit?_char (d : HexDigit) : hexDigit? (.char d.char) = some d.value.val := by
  obtain ⟨value, upper⟩ := d
  have hdigits : ∀ (value : Fin 16) (upper : Bool),
      hexDigit? (.char (HexDigit.char ⟨value, upper⟩)) = some value.val := by decide
  exact hdigits value upper

theorem takeHexFour_form (u : CodeUnit) (rest : List Symbol) :
    takeHexFour (Symbol.ofText u.form ++ rest) = .ok (u.value, rest) :=
  takeHexFour_of_hexDigits (hexDigit?_char u.a) (hexDigit?_char u.b) (hexDigit?_char u.c)
    (hexDigit?_char u.d) rest

theorem CodeUnit.isLeadingSurrogate_eq (u : CodeUnit) :
    isLeadingSurrogate u.value = decide u.IsLeading := by
  grind [isLeadingSurrogate, CodeUnit.IsLeading]

theorem CodeUnit.isTrailingSurrogate_eq (u : CodeUnit) :
    isTrailingSurrogate u.value = decide u.IsTrailing := by
  grind [isTrailingSurrogate, CodeUnit.IsTrailing]

theorem letterEscape?_of_mem {c second : Char} (h : (c, second) ∈ letterEscapes) :
    letterEscape? (.char second) = some c ∧ second ≠ 'u' := by
  have hall : ∀ escape ∈ letterEscapes,
      letterEscape? (.char escape.2) = some escape.1 ∧ escape.2 ≠ 'u' := by decide
  exact hall _ h

theorem takeEscape_letter {c second : Char} (h : (c, second) ∈ letterEscapes)
    (rest : List Symbol) : takeEscape (.char second :: rest) = .ok (c, rest) := by
  obtain ⟨hletter, hu⟩ := letterEscape?_of_mem h
  simp [takeEscape, hletter, hu]

theorem skipEscape_letter {c second : Char} (h : (c, second) ∈ letterEscapes)
    (rest : List Symbol) : skipEscape (.char second :: rest) = .ok rest := by
  obtain ⟨hletter, hu⟩ := letterEscape?_of_mem h
  simp [skipEscape, hletter, hu]

theorem skipEscape_unit (u : CodeUnit) (rest : List Symbol) :
    skipEscape (.char 'u' :: (Symbol.ofText u.form ++ rest)) = .ok rest := by
  simp [skipEscape, takeHexFour_form]

theorem takeEscape_unit {u : CodeUnit} (hleading : ¬ u.IsLeading) (htrailing : ¬ u.IsTrailing)
    (rest : List Symbol) :
    takeEscape (.char 'u' :: (Symbol.ofText u.form ++ rest)) = .ok (Char.ofNat u.value, rest) := by
  simp [takeEscape, takeHexFour_form, CodeUnit.isLeadingSurrogate_eq,
    CodeUnit.isTrailingSurrogate_eq, hleading, htrailing]

theorem takeEscape_trailing {u : CodeUnit} (h : u.IsTrailing) (rest : List Symbol) :
    takeEscape (.char 'u' :: (Symbol.ofText u.form ++ rest))
      = .error (.here .unpairedSurrogate rest) := by
  simp [takeEscape, takeHexFour_form, CodeUnit.isTrailingSurrogate_eq, h]

theorem takeEscape_leading {u : CodeUnit} (h : u.IsLeading) (rest : List Symbol) :
    takeEscape (.char 'u' :: (Symbol.ofText u.form ++ rest))
      = takeTrailingSurrogate u.value rest := by
  have htrailing : ¬ u.IsTrailing := by grind [CodeUnit.IsLeading, CodeUnit.IsTrailing]
  simp [takeEscape, takeHexFour_form, CodeUnit.isLeadingSurrogate_eq,
    CodeUnit.isTrailingSurrogate_eq, h, htrailing]

theorem surrogatePair_value (u w : CodeUnit) : surrogatePair u.value w.value = u.pair w :=
  congrArg Char.ofNat (by omega)

/-! ## Taking -/

theorem toOption_takeStringBody_escape {s after : List Symbol} {c : Char}
    (h : takeEscape s = .ok (c, after)) :
    (takeStringBody (.char '\\' :: s)).toOption
      = (takeStringBody after).toOption.map fun taken => (.char c :: taken.1, taken.2) := by
  cases hbody : takeStringBody after with
  | ok taken =>
      rw [takeStringBody_of_takeEscape h hbody]
      rfl
  | error failure =>
      rw [takeStringBody]
      grind [Except.toOption]

theorem toOption_takeStringBody_refused {s : List Symbol} {failure : Failure}
    (h : takeEscape s = .error failure) :
    (takeStringBody (.char '\\' :: s)).toOption = none := by
  rw [takeStringBody]
  grind [Except.toOption]

theorem toOption_takeStringBody_plain {c : Char} (h : IsPlain c) (s : List Symbol) :
    (takeStringBody (.char c :: s)).toOption
      = (takeStringBody s).toOption.map fun taken => (.char c :: taken.1, taken.2) := by
  obtain ⟨hquote, hbackslash, hplain⟩ := h
  have hcontrol : (Symbol.char c).isControl = false := by simpa [Symbol.isControl] using hplain
  cases hbody : takeStringBody s <;>
    simp [takeStringBody, hquote, hbackslash, hcontrol, hbody, Except.toOption]

/-- Behind a leading surrogate everything is refused but the escape of a trailing one. -/
theorem takeTrailingSurrogate_refuses {u : CodeUnit} {pieces : List Piece} (rest : List Symbol)
    (h : ∀ w pieces', pieces = .unit w :: pieces' → ¬ w.IsTrailing) :
    ∃ failure, takeTrailingSurrogate u.value (Symbol.ofText (spelled pieces) ++ .char '"' :: rest)
      = .error failure := by
  cases pieces with
  | nil => exact ⟨_, rfl⟩
  | cons piece pieces =>
      cases piece with
      | plain c hc => exact ⟨_, by simp [spelled, Piece.form, takeTrailingSurrogate, hc.2.1]; rfl⟩
      | letter c second hmem =>
          exact ⟨_, by
            simp [spelled, Piece.form, takeTrailingSurrogate, (letterEscape?_of_mem hmem).2]; rfl⟩
      | unit w =>
          exact ⟨_, by
            simp [spelled, Piece.form, takeTrailingSurrogate, takeHexFour_form,
              CodeUnit.isTrailingSurrogate_eq, h w pieces rfl]; rfl⟩

/-- The escape of a unit that makes no character by itself or with what follows is refused. -/
theorem toOption_takeStringBody_lone {u : CodeUnit} {pieces : List Piece} (rest : List Symbol)
    (hleading : u.IsLeading) (h : ∀ w pieces', pieces = .unit w :: pieces' → ¬ w.IsTrailing) :
    (takeStringBody (Symbol.ofText (spelled (.unit u :: pieces)) ++ .char '"' :: rest)).toOption
      = none := by
  obtain ⟨failure, hrefused⟩ := takeTrailingSurrogate_refuses rest h
  rw [← takeEscape_leading hleading] at hrefused
  rw [ofText_spelled_cons]
  exact toOption_takeStringBody_refused hrefused

/-- A string is taken for what it says, up to its closing quote. -/
theorem toOption_takeStringBody_spelled (pieces : List Piece) (rest : List Symbol) :
    (takeStringBody (Symbol.ofText (spelled pieces) ++ .char '"' :: rest)).toOption
      = (content? pieces).map fun t => (Symbol.ofText t, .char '"' :: rest) := by
  fun_induction content? pieces with
  | case1 => simp [spelled, takeStringBody, Except.toOption]
  | case2 c allowed pieces ih =>
      rw [ofText_spelled_cons]
      refine (toOption_takeStringBody_plain allowed _).trans ?_
      simp [ih, Function.comp_def]
  | case3 c second known pieces ih =>
      rw [ofText_spelled_cons]
      refine (toOption_takeStringBody_escape (takeEscape_letter known _)).trans ?_
      simp [ih, Function.comp_def]
  | case4 u pieces htrailing =>
      rw [ofText_spelled_cons]
      exact toOption_takeStringBody_refused (takeEscape_trailing htrailing _)
  | case5 u _ hleading w pieces htrailing ih =>
      have hescape : takeEscape (.char 'u' :: (Symbol.ofText u.form
          ++ (Symbol.ofText (Piece.unit w).form
            ++ (Symbol.ofText (spelled pieces) ++ .char '"' :: rest))))
          = .ok (u.pair w, Symbol.ofText (spelled pieces) ++ .char '"' :: rest) := by
        rw [takeEscape_leading hleading]
        simp [Piece.form, takeTrailingSurrogate, takeHexFour_form,
          CodeUnit.isTrailingSurrogate_eq, htrailing, surrogatePair_value]
      rw [ofText_spelled_cons, ofText_spelled_cons]
      refine (toOption_takeStringBody_escape hescape).trans ?_
      simp [ih, Function.comp_def]
  | case6 u _ hleading w pieces htrailing =>
      refine toOption_takeStringBody_lone rest hleading ?_
      rintro w' pieces' ⟨⟩
      exact htrailing
  | case7 u pieces _ hleading hother =>
      exact toOption_takeStringBody_lone rest hleading fun w pieces' h => (hother w pieces' h).elim
  | case8 u pieces htrailing hleading ih =>
      rw [ofText_spelled_cons]
      refine (toOption_takeStringBody_escape (takeEscape_unit hleading htrailing _)).trans ?_
      simp [ih, Function.comp_def]

theorem toOption_takeString_closed (pieces : List Piece) (rest : List Symbol) :
    (takeString (Symbol.ofText (closed pieces) ++ rest)).toOption
      = (content? pieces).map fun t => (t, rest) := by
  rw [ofText_closed, takeString]
  rcases refused_or_taken (toOption_takeStringBody_spelled pieces rest) with
    ⟨failure, hbody, hcontent⟩ | ⟨t, hbody, hcontent⟩
  · simp [hbody, hcontent, Except.toOption]
  · simp [hbody, hcontent, characters?_ofText, Except.toOption]

/-! ## Skipping -/

/-- An escape is skipped for its form alone. -/
theorem skipString_escape {s after : List Symbol} (h : skipEscape s = .ok after) :
    skipString (.char '\\' :: s) = skipString after := by
  rw [skipString]
  grind

theorem skipString_spelled (pieces : List Piece) (rest : List Symbol) :
    skipString (Symbol.ofText (spelled pieces) ++ .char '"' :: rest) = .ok rest := by
  induction pieces with
  | nil => simp [spelled, skipString]
  | cons piece pieces ih =>
      rw [ofText_spelled_cons]
      cases piece with
      | plain c allowed =>
          obtain ⟨hquote, hbackslash, hplain⟩ := allowed
          have hcontrol : (Symbol.char c).isControl = false := by
            simpa [Symbol.isControl] using hplain
          simp [Piece.form, skipString, hquote, hbackslash, hcontrol, ih]
      | letter c second known =>
          exact (skipString_escape (skipEscape_letter known _)).trans ih
      | unit u => exact (skipString_escape (skipEscape_unit u _)).trans ih

/-- A string that nobody asked for may spell anything. -/
theorem skipString_closed (pieces : List Piece) (rest : List Symbol) :
    skipString (Symbol.ofText (closed pieces) ++ rest) = .ok rest := by
  rw [ofText_closed, skipString_spelled]

end PseudocodeLexer.Json
