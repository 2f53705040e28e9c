import PseudocodeLexer.Proofs.SkippedValues

/-!
# Values of well-formed documents

A reader gives a value its meaning, or refuses it, and that depends on the value alone: on none of
the ways to write it, and on nothing that stands around it (`Reader.Reads`). So a reader is known by
the meanings of the values. Truth values, strings and choices have such a law each.
-/

namespace PseudocodeLexer.Json

/-- On every text of a value the reader gives what the value means, and it refuses a value that
means nothing to it. -/
def Reader.Reads {α : Type} (reader : Reader α) (meaning? : Value → Option α) : Prop :=
  ∀ {v : Value} {t b : Text} {rest : List Symbol}, Writes (.value v) t → IsBlanks b →
    EndsNumber rest →
    (reader.read (Symbol.ofText b ++ (Symbol.ofText t ++ rest))).toOption
      = (meaning? v).map fun a => (a, rest)

theorem Reader.Reads.map {α β : Type} {reader : Reader α} {meaning? : Value → Option α}
    (h : reader.Reads meaning?) (f : α → β) :
    (reader.map f).Reads fun v => (meaning? v).map f := by
  intro v t b rest hv hb hrest
  rcases refused_or_taken (h hv hb hrest) with
    ⟨failure, hread, hmeaning⟩ | ⟨a, hread, hmeaning⟩
  · simp [Reader.map, hread, hmeaning, Except.toOption]
  · simp [Reader.map, hread, hmeaning, Except.toOption]

/-- What a document is read as is what its value means. -/
theorem Reader.Reads.decode {α : Type} {reader : Reader α} {meaning? : Value → Option α}
    (h : reader.Reads meaning?) {v : Value} {t : Text} (ht : Document v t) (source : Source) :
    (reader.decode source (Symbol.ofText t)).toOption = meaning? v := by
  obtain ⟨before, written, after, hbefore, hv, hafter, rfl⟩ := ht
  have hends : EndsNumber (Symbol.ofText after) := by
    have hnothing : EndsNumber [] := by
      rintro x ⟨⟩
    simpa using hnothing.behind_blanks hafter
  have hrest : skipBlanks (Symbol.ofText after) = [] :=
    List.dropWhile_eq_nil_iff.mpr hafter.isBlank
  rw [Symbol.ofText_append, Symbol.ofText_append]
  rcases refused_or_taken (h hv hbefore hends) with
    ⟨failure, hread, hmeaning⟩ | ⟨a, hread, hmeaning⟩
  · simp [Reader.decode, Reader.readDocument, hread, hmeaning, Except.toOption]
  · simp [Reader.decode, Reader.readDocument, hread, hrest, hmeaning, Except.toOption]

/-- Behind blanks a reader sees what the value begins with. -/
theorem Writes.skipBlanks_eq {v : Value} {t b : Text} (h : Writes (.value v) t) (hb : IsBlanks b)
    (rest : List Symbol) :
    ∃ c s, v.BeginsWith c ∧
      skipBlanks (Symbol.ofText b ++ (Symbol.ofText t ++ rest)) = .char c :: s := by
  obtain ⟨c, s, rfl, hbegins⟩ := h.exists_cons
  exact ⟨c, Symbol.ofText s ++ rest, hbegins,
    skipBlanks_ofText hb hbegins.not_blank_not_bracket.1 _⟩

/-! ## Truth values and null -/

def Value.boolean? : Value → Option Bool
  | .boolean b => some b
  | _ => none

def Value.null? : Value → Option Unit
  | .null => some ()
  | _ => none

theorem bool_reads : bool.Reads Value.boolean? := by
  intro v t b rest hv hb hrest
  obtain ⟨c, s, hbegins, hblanks⟩ := hv.skipBlanks_eq hb rest
  cases v with
  | boolean truth =>
      cases hv
      exact congrArg Except.toOption (bool_takesBack truth _ rest hb.isBlank hrest)
  | _ =>
      have ht : c ≠ 't' := hbegins.ne (by simp [Value.BeginsWith])
      have hf : c ≠ 'f' := hbegins.ne (by simp [Value.BeginsWith])
      simp [bool, readBool, hblanks, ht, hf, Value.boolean?, Except.toOption]

theorem toOption_readNull {v : Value} {t b : Text} (hv : Writes (.value v) t) (hb : IsBlanks b)
    (rest : List Symbol) :
    (readNull (Symbol.ofText b ++ (Symbol.ofText t ++ rest))).toOption
      = v.null?.map fun _ => rest := by
  obtain ⟨c, s, hbegins, hblanks⟩ := hv.skipBlanks_eq hb rest
  cases v with
  | null =>
      cases hv
      have hnull : skipBlanks (Symbol.ofText b ++ (Symbol.ofText "null".toList ++ rest))
          = .char 'n' :: (Symbol.ofText "ull".toList ++ rest) := skipBlanks_ofText hb rfl _
      rw [readNull, hnull]
      rfl
  | _ =>
      have hn : c ≠ 'n' := hbegins.ne (by simp [Value.BeginsWith])
      simp [readNull, hblanks, hn, Value.null?, Except.toOption]

/-! ## Strings -/

def Value.text? : Value → Option Text
  | .string content => content
  | _ => none

theorem string_reads : string.Reads Value.text? := by
  intro v t b rest hv hb hrest
  obtain ⟨c, s, hbegins, hblanks⟩ := hv.skipBlanks_eq hb rest
  cases v with
  | string content =>
      cases hv with
      | string pieces =>
          change (readString _).toOption = _
          rw [readString, Symbol.ofText_cons, List.cons_append, skipBlanks_ofText hb rfl]
          exact toOption_takeString_closed pieces rest
  | _ =>
      have hquote : c ≠ '"' := hbegins.ne (by simp [Value.BeginsWith])
      simp [string, readString, hblanks, hquote, Value.text?, Except.toOption]

/-! ## Choices -/

/-- The member of a closed set that a value stands for: the string of its label, or the object with
that one key and null. -/
def Value.choice? {α : Type} (choices : List (Text × α)) : Value → Option α
  | .string content => content.bind fun label => choices.lookup label
  | .object [(key, v)] => v.null?.bind fun _ => key.bind fun label => choices.lookup label
  | _ => none

theorem takeColon_append {b : Text} (hb : IsBlanks b) (s : List Symbol) :
    takeColon (Symbol.ofText b ++ .char ':' :: s) = .ok s := by
  rw [takeColon, skipBlanks_ofText hb rfl]
  rfl

theorem toOption_takeLabel_append {b b₁ : Text} (hb : IsBlanks b) (hb₁ : IsBlanks b₁)
    (key : List Piece) (s : List Symbol) :
    (takeLabel (Symbol.ofText b ++ (Symbol.ofText (writeSeparator true)
        ++ (Symbol.ofText b₁ ++ .char '"' :: (Symbol.ofText (closed key) ++ s))))).toOption
      = (content? key).map fun label => (label, s) := by
  rw [takeLabel, skipBlanks_ofText_append hb, writeSeparator, if_pos rfl, Symbol.ofText_nil,
    List.nil_append, skipBlanks_ofText hb₁ rfl]
  exact toOption_takeString_closed key s

/-- Behind a member comes the closing brace or a comma. -/
theorem Writes.behind_member {ms : List (Option Text × Value)} {t : Text}
    (h : Writes (.members false ms) t) (rest : List Symbol) :
    (ms = [] ∧ skipBlanks (Symbol.ofText t ++ .char '}' :: rest) = .char '}' :: rest) ∨
      (ms ≠ [] ∧ ∃ s, skipBlanks (Symbol.ofText t ++ .char '}' :: rest) = .char ',' :: s) := by
  cases h with
  | noMember hb => exact .inl ⟨rfl, skipBlanks_ofText hb rfl rest⟩
  | member hb =>
      rw [Symbol.ofText_append, List.append_assoc]
      exact .inr ⟨List.cons_ne_nil _ _, _, skipBlanks_ofText hb rfl _⟩

section

variable {α : Type} (choices : List (Text × α))

/-- A choice written as an object has no member behind its null. -/
theorem toOption_readChoiceObject {ms : List (Option Text × Value)} {t : Text}
    (h : Writes (.members true ms) t) (rest : List Symbol) :
    (readChoiceObject choices (Symbol.ofText t ++ .char '}' :: rest)).toOption
      = (Value.choice? choices (.object ms)).map fun a => (a, rest) := by
  cases h with
  | noMember hb =>
      rw [readChoiceObject, takeLabel, skipBlanks_ofText hb rfl]
      rfl
  | @member _ key v ms b b₁ b₂ b₃ t s hb hb₁ hb₂ hb₃ hv hms =>
      simp only [Symbol.ofText_append, Symbol.ofText_cons, List.append_assoc, List.cons_append]
      have hlabel := toOption_takeLabel_append hb hb₁ key (Symbol.ofText b₂ ++ .char ':' ::
        (Symbol.ofText b₃ ++ (Symbol.ofText t ++ (Symbol.ofText s ++ .char '}' :: rest))))
      have hnull := toOption_readNull hv hb₃ (Symbol.ofText s ++ .char '}' :: rest)
      -- The parts are read in order, and each may be refused: the key, its choice, and the null.
      rcases refused_or_taken hlabel with ⟨failure, hlabel, hkey⟩ | ⟨label, hlabel, hkey⟩
      · cases ms <;> simp [readChoiceObject, hlabel, hkey, Value.choice?, Except.toOption]
      cases hchoice : choices.lookup label with
      | none =>
          cases ms <;>
            simp [readChoiceObject, hlabel, hkey, choose, hchoice, Value.choice?, Except.toOption]
      | some a =>
          simp only [readChoiceObject, hlabel, choose, hchoice, takeColon_append hb₂]
          rcases refused_or_taken hnull with ⟨failure, hnull, hvalue⟩ | ⟨_, hnull, hvalue⟩
          · cases ms <;> simp [hnull, hvalue, Value.choice?, Except.toOption]
          · rw [hnull]
            rcases hms.behind_member rest with ⟨rfl, hend⟩ | ⟨hne, s', hcomma⟩
            · simp [hend, hvalue, hkey, hchoice, Value.choice?, Except.toOption]
            · obtain ⟨m, ms, rfl⟩ := List.exists_cons_of_ne_nil hne
              simp [hcomma, Value.choice?, Except.toOption]

theorem choice_reads : (choice choices).Reads (Value.choice? choices) := by
  intro v t b rest hv hb hrest
  obtain ⟨c, s, hbegins, hblanks⟩ := hv.skipBlanks_eq hb rest
  cases v with
  | string content =>
      cases hv with
      | string pieces =>
          change (readChoice choices _).toOption = _
          rw [readChoice, Symbol.ofText_cons, List.cons_append, skipBlanks_ofText hb rfl]
          rcases refused_or_taken (toOption_takeString_closed pieces rest) with
            ⟨failure, hstring, hcontent⟩ | ⟨label, hstring, hcontent⟩
          · simp [hstring, hcontent, Value.choice?, Except.toOption]
          · cases hchoice : choices.lookup label <;>
              simp [hstring, hcontent, choose, hchoice, Value.choice?, Except.toOption]
  | object ms =>
      cases hv with
      | object hms =>
          change (readChoice choices _).toOption = _
          rw [readChoice, Symbol.ofText_cons, List.cons_append, skipBlanks_ofText hb rfl,
            Symbol.ofText_append, List.append_assoc]
          exact toOption_readChoiceObject choices hms rest
  | _ =>
      have hquote : c ≠ '"' := hbegins.ne (by simp [Value.BeginsWith])
      have hbrace : c ≠ '{' := hbegins.ne (by simp [Value.BeginsWith])
      simp [choice, readChoice, hblanks, hquote, hbrace, Value.choice?, Except.toOption]

end

end PseudocodeLexer.Json
