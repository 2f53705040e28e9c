import PseudocodeLexer.Proofs.ReadValues

/-!
# Records in well-formed documents

A record reads an object member by member and a list element by element. What it makes of them is a
fold over the members, with unknown keys passed over and a second value for a field refused
(`Slot.placeMember?`), and for a list the first fields filled in order (`Slot.placeElements?`). Where
filling one field leaves the next ones unset, a list is read as the object with the same values
(`Slot.InOrder.placeElements?_eq`). So a record has the same kind of law as a single value
(`Record.reads`).
-/

namespace PseudocodeLexer.Json

/-! ## Fields with the meaning of their values -/

/-- A field together with what a value makes of a draft. -/
structure Slot (σ : Type) where
  field : Field σ
  set? : σ → Value → Option σ
  reads : ∀ draft, (field.reader draft).Reads (set? draft)

namespace Slot

variable {σ : Type}

/-- A field that is held in the draft as an option. -/
def ofReader {β : Type} (key : Text) (get : σ → Option β) (set : σ → β → σ) {reader : Reader β}
    {meaning? : Value → Option β} (h : reader.Reads meaning?) : Slot σ where
  field := .ofReader key reader get set
  set? draft v := (meaning? v).map (set draft)
  reads draft := h.map (set draft)

/-- The draft with one member more, if the member is allowed. -/
def placeMember? (slots : List (Slot σ)) (draft : σ) : Option Text × Value → Option σ
  | (none, _) => none
  | (some key, v) =>
      match slots.find? (·.field.key == key) with
      | none => some draft
      | some slot => if slot.field.isSet draft then none else slot.set? draft v

theorem placeMember?_nil (draft : σ) (key : Text) (v : Value) :
    placeMember? [] draft (some key, v) = some draft := rfl

theorem placeMember?_cons (slot : Slot σ) (slots : List (Slot σ)) (draft : σ) (key : Text)
    (v : Value) :
    placeMember? (slot :: slots) draft (some key, v)
      = if key = slot.field.key then
          if slot.field.isSet draft then none else slot.set? draft v
        else placeMember? slots draft (some key, v) := by
  by_cases hkey : key = slot.field.key
  · simp [placeMember?, hkey]
  · simp [placeMember?, hkey, Ne.symm hkey]

/-- The draft with elements for the fields, in order. -/
def placeElements? : List (Slot σ) → σ → List Value → Option σ
  | _, draft, [] => some draft
  | [], _, _ :: _ => none
  | slot :: slots, draft, v :: vs =>
      (slot.set? draft v).bind fun draft => placeElements? slots draft vs

/-- Each slot in turn is the field of its key and not yet set, when those before it are filled. -/
inductive InOrder (all : List (Slot σ)) : List (Slot σ) → σ → Prop
  | nil (draft : σ) : InOrder all [] draft
  | cons {slot : Slot σ} {slots : List (Slot σ)} {draft : σ} :
      (∀ v, placeMember? all draft (some slot.field.key, v) = slot.set? draft v) →
      (∀ v next, slot.set? draft v = some next → InOrder all slots next) →
      InOrder all (slot :: slots) draft

/-- The elements of a list are placed as the members of an object would be, under the keys of the
fields in order. -/
theorem InOrder.placeElements?_eq {all slots : List (Slot σ)} {draft : σ}
    (h : InOrder all slots draft) (vs : List Value) :
    placeElements? slots draft vs
      = if vs.length ≤ slots.length then
          ((slots.map fun slot => some slot.field.key).zip vs).foldlM (placeMember? all) draft
        else none := by
  induction h generalizing vs with
  | nil draft => cases vs <;> simp [placeElements?]
  | @cons slot slots draft hplace _ ih =>
      cases vs with
      | nil => simp [placeElements?]
      | cons v vs =>
          simp only [placeElements?, List.map_cons, List.zip_cons_cons, List.foldlM_cons, hplace,
            List.length_cons, Nat.add_le_add_iff_right]
          cases hset : slot.set? draft v with
          | none => simp
          | some next => exact ih v next hset vs

end Slot

namespace Record

variable {σ α : Type} {record : Record σ α} {slots : List (Slot σ)}

theorem field?_eq (hfields : record.fields = slots.map Slot.field) (key : Text) :
    record.field? key = (slots.find? (·.field.key == key)).map Slot.field := by
  rw [field?, hfields, List.find?_map]
  rfl

/-! ## Objects -/

theorem takeKey_close {b : Text} (hb : IsBlanks b) (first : Bool) (rest : List Symbol) :
    takeKey first (Symbol.ofText b ++ .char '}' :: rest) = .ok (none, rest) := by
  rw [takeKey, skipBlanks_ofText hb rfl]
  rfl

theorem toOption_takeKey_append {b b₁ : Text} (hb : IsBlanks b) (hb₁ : IsBlanks b₁)
    (first : Bool) (key : List Piece) (s : List Symbol) :
    (takeKey first (Symbol.ofText b ++ (Symbol.ofText (writeSeparator first)
        ++ (Symbol.ofText b₁ ++ .char '"' :: (Symbol.ofText (closed key) ++ s))))).toOption
      = (content? key).map fun key => (some key, s) := by
  have hopen : (takeKey.openKey (Symbol.ofText (closed key) ++ s)).toOption
      = (content? key).map fun key => (some key, s) := by
    rcases refused_or_taken (toOption_takeString_closed key s) with
      ⟨failure, hstring, hcontent⟩ | ⟨key', hstring, hcontent⟩
    · simp [takeKey.openKey, hstring, hcontent, Except.toOption]
    · simp [takeKey.openKey, hstring, hcontent, Except.toOption]
  -- A first key stands behind blanks alone, any other behind a comma between blanks.
  cases first with
  | true =>
      rw [takeKey, skipBlanks_ofText_append hb, writeSeparator, if_pos rfl, Symbol.ofText_nil,
        List.nil_append, skipBlanks_ofText hb₁ rfl]
      exact hopen
  | false =>
      change (takeKey false (Symbol.ofText b ++ .char ',' :: (Symbol.ofText b₁ ++ _))).toOption = _
      simpa [takeKey, skipBlanks_ofText hb (x := .char ',') rfl,
        skipBlanks_ofText hb₁ (x := .char '"') rfl] using hopen

theorem toOption_readMember {b b₁ : Text} (hb : IsBlanks b) (hb₁ : IsBlanks b₁)
    (hfields : record.fields = slots.map Slot.field) (draft : σ) (key : Text) {v : Value}
    {t : Text} (hv : Writes (.value v) t) {rest : List Symbol} (hrest : EndsNumber rest) :
    (record.readMember draft key
        (Symbol.ofText b ++ .char ':' :: (Symbol.ofText b₁ ++ (Symbol.ofText t ++ rest)))).toOption
      = (Slot.placeMember? slots draft (some key, v)).map fun draft => (draft, rest) := by
  have hfield := field?_eq hfields key
  cases hslot : slots.find? (·.field.key == key) with
  | none =>
      rw [hslot] at hfield
      have hskip := skipValue_of_writes hv hb₁ hrest
      simp [readMember, hfield, takeColon_append hb, hskip, Slot.placeMember?, hslot,
        Except.toOption]
  | some slot =>
      rw [hslot] at hfield
      have hread := slot.reads draft hv hb₁ hrest
      cases hset : slot.field.isSet draft with
      | true => simp [readMember, hfield, hset, Slot.placeMember?, hslot, Except.toOption]
      | false =>
          simp [readMember, hfield, hset, takeColon_append hb, hread, Slot.placeMember?, hslot]

theorem toOption_readMembers_of_refused {first : Bool} {s : List Symbol} {failure : Failure}
    (hkey : takeKey first s = .error failure) (draft : σ) :
    (record.readMembers draft first s).toOption = none := by
  rw [readMembers]
  grind [Except.toOption]

theorem toOption_readMembers_of_key {first : Bool} {s rest : List Symbol} {key : Text}
    (hkey : takeKey first s = .ok (some key, rest)) (draft : σ) :
    (record.readMembers draft first s).toOption
      = (record.readMember draft key rest).toOption.bind fun taken =>
          (record.readMembers taken.1 false taken.2).toOption := by
  cases hmember : record.readMember draft key rest with
  | ok taken =>
      rw [readMembers_of_member hkey hmember]
      rfl
  | error failure =>
      rw [readMembers]
      grind [Except.toOption]

/-- The members of an object are read one after the other. -/
theorem toOption_readMembers (hfields : record.fields = slots.map Slot.field)
    {ms : List (Option Text × Value)} {t : Text} (draft : σ) (first : Bool)
    (h : Writes (.members first ms) t) (rest : List Symbol) :
    (record.readMembers draft first (Symbol.ofText t ++ .char '}' :: rest)).toOption
      = (ms.foldlM (Slot.placeMember? slots) draft).map fun draft => (draft, rest) := by
  induction ms generalizing draft first t with
  | nil =>
      cases h with
      | noMember hb =>
          rw [readMembers_of_end (takeKey_close hb first rest)]
          rfl
  | cons m ms ih =>
      cases h with
      | @member _ key v _ b b₁ b₂ b₃ t s hb hb₁ hb₂ hb₃ hv hms =>
          simp only [Symbol.ofText_append, Symbol.ofText_cons, List.append_assoc, List.cons_append]
          have hkey := toOption_takeKey_append hb hb₁ first key (Symbol.ofText b₂ ++ .char ':' ::
            (Symbol.ofText b₃ ++ (Symbol.ofText t ++ (Symbol.ofText s ++ .char '}' :: rest))))
          rcases refused_or_taken hkey with ⟨failure, hkey, hcontent⟩ | ⟨key', hkey, hcontent⟩
          · rw [toOption_readMembers_of_refused hkey, hcontent]
            rfl
          · rw [toOption_readMembers_of_key hkey, hcontent, List.foldlM_cons,
              toOption_readMember hb₂ hb₃ hfields draft key' hv (hms.endsNumber_members rest)]
            cases hplace : Slot.placeMember? slots draft (some key', v) with
            | none => rfl
            | some next => exact ih next false hms

/-! ## Lists -/

theorem nextElement_close {b : Text} (hb : IsBlanks b) (first : Bool) (rest : List Symbol) :
    nextElement first (Symbol.ofText b ++ .char ']' :: rest) = .ok (false, rest) := by
  rw [nextElement, skipBlanks_ofText hb rfl]
  rfl

theorem nextElement_append {b b₁ : Text} (hb : IsBlanks b) (hb₁ : IsBlanks b₁) (first : Bool)
    {v : Value} {t : Text} (hv : Writes (.value v) t) (rest : List Symbol) :
    nextElement first (Symbol.ofText b ++ (Symbol.ofText (writeSeparator first)
        ++ (Symbol.ofText b₁ ++ (Symbol.ofText t ++ rest))))
      = .ok (true, Symbol.ofText t ++ rest) := by
  obtain ⟨c, t', rfl, hbegins⟩ := hv.exists_cons
  obtain ⟨hblank, hclose⟩ := hbegins.not_blank_not_bracket
  cases first with
  | true =>
      rw [nextElement, skipBlanks_ofText_append hb, writeSeparator, if_pos rfl, Symbol.ofText_nil,
        List.nil_append, Symbol.ofText_cons, List.cons_append, skipBlanks_ofText hb₁ hblank]
      simp [hclose]
  | false =>
      change nextElement false (Symbol.ofText b ++ .char ',' :: (Symbol.ofText b₁ ++ _)) = _
      simp [nextElement, skipBlanks_ofText hb (x := .char ',') rfl,
        skipBlanks_ofText hb₁ hblank, hclose]

theorem takeListEnd_close {b : Text} (hb : IsBlanks b) (rest : List Symbol) :
    takeListEnd (Symbol.ofText b ++ .char ']' :: rest) = .ok rest := by
  rw [takeListEnd, skipBlanks_ofText hb rfl]
  rfl

theorem takeListEnd_other {s rest : List Symbol} {c : Char}
    (h : skipBlanks s = .char c :: rest) (hc : c ≠ ']') :
    ∃ failure, takeListEnd s = .error failure := by
  by_cases hcomma : c = ','
  · subst hcomma
    simp only [takeListEnd, h]
    split <;> exact ⟨_, rfl⟩
  · exact ⟨_, by simp [takeListEnd, h, hc, hcomma]; rfl⟩

/-- A list does not go on behind the last field. -/
theorem takeListEnd_element {first : Bool} {v : Value} {vs : List Value} {t : Text}
    (h : Writes (.elements first (v :: vs)) t) (rest : List Symbol) :
    ∃ failure, takeListEnd (Symbol.ofText t ++ rest) = .error failure := by
  cases h with
  | @element _ _ _ b b₁ t s hb hb₁ hv hvs =>
      simp only [Symbol.ofText_append, List.append_assoc]
      cases first with
      | true =>
          obtain ⟨c, s', hbegins, hblanks⟩ := hv.skipBlanks_eq hb₁ (Symbol.ofText s ++ rest)
          rw [← skipBlanks_ofText_append hb] at hblanks
          exact takeListEnd_other hblanks hbegins.not_blank_not_bracket.2
      | false => exact takeListEnd_other (skipBlanks_ofText hb rfl _) (by decide)

/-- The elements of a list are read into the fields in order. -/
theorem toOption_readElements (slots : List (Slot σ)) {vs : List Value} {t : Text} (draft : σ)
    (first : Bool) (count : Nat) (h : Writes (.elements first vs) t) (rest : List Symbol) :
    (readElements first count draft (slots.map Slot.field)
        (Symbol.ofText t ++ .char ']' :: rest)).toOption
      = (Slot.placeElements? slots draft vs).map fun draft =>
          ((draft, count + vs.length), rest) := by
  induction vs generalizing slots draft first count t with
  | nil =>
      cases h with
      | noElement hb =>
          cases slots with
          | nil =>
              simp [readElements, takeListEnd_close hb, Slot.placeElements?, Except.toOption]
          | cons slot slots =>
              simp [readElements, nextElement_close hb, Slot.placeElements?, Except.toOption]
  | cons v vs ih =>
      cases slots with
      | nil =>
          obtain ⟨failure, hend⟩ := takeListEnd_element h (.char ']' :: rest)
          simp [readElements, hend, Slot.placeElements?, Except.toOption]
      | cons slot slots =>
          cases h with
          | @element _ _ _ b b₁ t s hb hb₁ hv hvs =>
              have hnothing : IsBlanks [] := by
                intro c hc
                cases hc
              have hread := slot.reads draft hv hnothing (hvs.endsNumber_elements rest)
              rw [Symbol.ofText_nil, List.nil_append] at hread
              simp only [Symbol.ofText_append, List.append_assoc, List.map_cons, readElements,
                nextElement_append hb hb₁ first hv, Slot.placeElements?]
              rcases refused_or_taken hread with ⟨failure, hread, hset⟩ | ⟨next, hread, hset⟩
              · simp [hread, hset, Except.toOption]
              · simp only [hread, hset, ih slots next false (count + 1) hvs]
                rw [Option.bind_some, List.length_cons, Nat.add_right_comm, Nat.add_assoc]

/-! ## Both -/

/-- What a value makes of a record: members in any order, or the first fields in order. -/
def meaning? (record : Record σ α) (slots : List (Slot σ)) : Value → Option α
  | .object ms =>
      (ms.foldlM (Slot.placeMember? slots) record.empty).bind fun draft =>
        (record.finish draft).toOption
  | .list vs =>
      (Slot.placeElements? slots record.empty vs).bind fun draft =>
        (record.finish draft).toOption
  | _ => none

theorem toOption_finishAt (rest : List Symbol) (result : Except Cause α) :
    (finishAt rest result).toOption = result.toOption.map fun a => (a, rest) := by
  cases result <;> rfl

theorem toOption_finishList (count : Nat) (draft : σ) :
    (record.finishList count draft).toOption = (record.finish draft).toOption := by
  unfold finishList
  cases record.finish draft <;> rfl

theorem reads (hfields : record.fields = slots.map Slot.field) :
    record.reader.Reads (record.meaning? slots) := by
  intro v t b rest hv hb hrest
  obtain ⟨c, s, hbegins, hblanks⟩ := hv.skipBlanks_eq hb rest
  change (record.readRecord _).toOption = _
  cases v with
  | object ms =>
      cases hv with
      | @object _ t hms =>
          have hread := toOption_readMembers hfields record.empty true hms rest
          rw [readRecord, Symbol.ofText_cons, List.cons_append, skipBlanks_ofText hb rfl,
            Symbol.ofText_append, List.append_assoc, meaning?]
          rcases refused_or_taken hread with ⟨failure, hread, hplace⟩ | ⟨draft, hread, hplace⟩
          · simp [hread, hplace, Except.toOption]
          · simp [hread, hplace, toOption_finishAt]
  | list vs =>
      cases hv with
      | @list _ t hvs =>
          have hread := toOption_readElements slots record.empty true 0 hvs rest
          rw [readRecord, Symbol.ofText_cons, List.cons_append, skipBlanks_ofText hb rfl,
            Symbol.ofText_append, List.append_assoc, meaning?, hfields]
          rcases refused_or_taken hread with ⟨failure, hread, hplace⟩ | ⟨draft, hread, hplace⟩
          · simp [hread, hplace, Except.toOption]
          · simp [hread, hplace, toOption_finishAt, toOption_finishList]
  | _ =>
      have hbrace : c ≠ '{' := hbegins.ne (by simp [Value.BeginsWith])
      have hbracket : c ≠ '[' := hbegins.ne (by simp [Value.BeginsWith])
      simp [readRecord, hblanks, hbrace, hbracket, meaning?, Except.toOption]

end Record

end PseudocodeLexer.Json
