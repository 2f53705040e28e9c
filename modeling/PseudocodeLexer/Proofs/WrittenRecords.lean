import PseudocodeLexer.Json.Record
import PseudocodeLexer.Proofs.WrittenValues

/-!
# Written objects are read back

An object is written as a brace and its members, each with a comma in front but the first
(`writeMembers`). Whatever the layout, the key of a member is taken back, the colon behind it leaves
blanks and the value, and no value runs into the next member. So a record takes back an object if
its drafts take the members one after the other (`Record.Absorbs`), each under the key of a field
that is not yet set.
-/

namespace PseudocodeLexer.Json

/-! ## Members in a row -/

/-- What stands in front of a member. -/
def writeSeparator (first : Bool) : Text :=
  if first then [] else [',']

/-- The members of an object and its closing brace. -/
def writeMembers (layout : Layout) (depth : Nat) (first : Bool) : List (Text × Text) → Text
  | [] => layout.lineBreak depth ++ ['}']
  | member :: members =>
      writeSeparator first ++ writeMember layout depth member
        ++ writeMembers layout depth false members

section

variable {layout : Layout} {depth : Nat} {first : Bool}

theorem writeMembers_false_eq (member : Text × Text) (members : List (Text × Text)) :
    writeMember layout depth member ++ writeMembers layout depth false members
      = [','].intercalate ((member :: members).map (writeMember layout depth))
        ++ layout.lineBreak depth ++ ['}'] := by
  induction members generalizing member with
  | nil => simp [writeMembers, List.intercalate_singleton]
  | cons next members ih =>
      rw [writeMembers, writeSeparator, List.map_cons, List.map_cons, List.intercalate_cons_cons,
        ← List.map_cons]
      simp [ih next]

theorem writeObject_eq (members : List (Text × Text)) :
    writeObject layout depth members = '{' :: writeMembers layout depth true members := by
  cases members with
  | nil => simp [writeObject, writeMembers]
  | cons member members =>
      rw [writeObject, writeMembers, writeSeparator, if_pos rfl, List.nil_append,
        writeMembers_false_eq]

/-! ## Parts of a member -/

theorem isBlank_of_mem_lineBreak {x : Symbol} (h : x ∈ Symbol.ofText (layout.lineBreak depth)) :
    x.isBlank = true := by
  cases layout with
  | compact => simp [Layout.lineBreak] at h
  | indented =>
      simp only [Layout.lineBreak, Symbol.ofText, List.map_cons, List.map_replicate,
        List.mem_cons, List.mem_replicate] at h
      rcases h with rfl | ⟨-, rfl⟩ <;> rfl

theorem skipBlanks_lineBreak {x : Symbol} (hx : x.isBlank = false) (rest : List Symbol) :
    skipBlanks (Symbol.ofText (layout.lineBreak depth) ++ x :: rest) = x :: rest :=
  skipBlanks_append (fun _ => isBlank_of_mem_lineBreak) hx rest

theorem takeKey_written (key : Text) (rest : List Symbol) :
    Record.takeKey first (Symbol.ofText (writeSeparator first ++ layout.lineBreak depth
      ++ writeString key) ++ rest) = .ok (some key, rest) := by
  have hopen : Record.takeKey.openKey (Symbol.ofText (key.flatMap escapeChar ++ ['"']) ++ rest)
      = .ok (some key, rest) := by
    rw [Record.takeKey.openKey, takeString_written]
  have hstring : Symbol.ofText (writeString key) ++ rest
      = .char '"' :: (Symbol.ofText (key.flatMap escapeChar ++ ['"']) ++ rest) := rfl
  rw [Symbol.ofText_append, Symbol.ofText_append, List.append_assoc, hstring]
  -- Blanks are skipped once in front of the first key, and twice around the comma of another.
  cases first with
  | true =>
      change Record.takeKey true (Symbol.ofText (layout.lineBreak depth) ++ _) = _
      rw [Record.takeKey, skipBlanks_lineBreak rfl]
      exact hopen
  | false =>
      change Record.takeKey false (.char ',' :: (Symbol.ofText (layout.lineBreak depth) ++ _)) = _
      simpa [Record.takeKey, skipBlanks_cons (x := .char ',') rfl,
        skipBlanks_lineBreak (x := .char '"') rfl] using hopen

theorem takeKey_end (rest : List Symbol) :
    Record.takeKey first (Symbol.ofText (layout.lineBreak depth ++ ['}']) ++ rest)
      = .ok (none, rest) := by
  rw [Symbol.ofText_append, List.append_assoc]
  change Record.takeKey first (Symbol.ofText (layout.lineBreak depth) ++ .char '}' :: rest) = _
  rw [Record.takeKey, skipBlanks_lineBreak rfl]
  rfl

/-- Behind the colon there may be a blank. -/
theorem takeColon_written (rest : List Symbol) :
    takeColon (Symbol.ofText layout.colon ++ rest)
      = .ok (Symbol.ofText layout.colon.tail ++ rest) := by
  cases layout <;> rfl

theorem isBlank_of_mem_tail_colon {x : Symbol} (h : x ∈ Symbol.ofText layout.colon.tail) :
    x.isBlank = true := by
  cases layout with
  | compact => simp [Layout.colon] at h
  | indented =>
      simp only [Layout.colon, List.tail_cons, Symbol.ofText, List.map_cons, List.map_nil,
        List.mem_singleton] at h
      rw [h]
      rfl

theorem endsNumber_writeMembers (members : List (Text × Text)) (rest : List Symbol) :
    EndsNumber (Symbol.ofText (writeMembers layout depth false members) ++ rest) := by
  have hends : ∀ c s, c = ',' ∨ c = '\n' ∨ c = '}' → EndsNumber (.char c :: s) := by
    rintro c s (rfl | rfl | rfl) x hx
    all_goals
      cases hx
      exact ⟨rfl, rfl⟩
  cases members with
  | cons member members => exact hends ',' _ (.inl rfl)
  | nil =>
      cases layout with
      | compact => exact hends '}' _ (.inr (.inr rfl))
      | indented => exact hends '\n' _ (.inr (.inl rfl))

theorem skipBlanks_writeObject {blanks : List Symbol} (hblanks : ∀ x ∈ blanks, x.isBlank = true)
    (members : List (Text × Text)) (rest : List Symbol) :
    skipBlanks (blanks ++ (Symbol.ofText (writeObject layout depth members) ++ rest))
      = .char '{' :: (Symbol.ofText (writeMembers layout depth true members) ++ rest) := by
  rw [writeObject_eq]
  exact skipBlanks_append hblanks rfl _

/-- The parts of a member and what is left behind it, in the order of reading. -/
theorem ofText_writeMembers_cons (key written : Text) (members : List (Text × Text))
    (rest : List Symbol) :
    Symbol.ofText (writeMembers layout depth first ((key, written) :: members)) ++ rest
      = Symbol.ofText (writeSeparator first ++ layout.lineBreak (depth + 1) ++ writeString key)
        ++ (Symbol.ofText layout.colon ++ (Symbol.ofText written
          ++ (Symbol.ofText (writeMembers layout depth false members) ++ rest))) := by
  simp [writeMembers, writeMember]

/-- A value is taken back from behind the colon, whatever members come next. -/
theorem Reader.TakesBack.behind_colon {α : Type} {reader : Reader α} {written : Text} {a : α}
    (h : reader.TakesBack written a) (layout : Layout) (depth : Nat)
    (members : List (Text × Text)) (rest : List Symbol) :
    let next := Symbol.ofText (writeMembers layout depth false members) ++ rest
    ∃ s, takeColon (Symbol.ofText layout.colon ++ (Symbol.ofText written ++ next)) = .ok s ∧
      reader.read s = .ok (a, next) := by
  intro next
  refine ⟨_, takeColon_written _, ?_⟩
  exact h _ next (fun _ => isBlank_of_mem_tail_colon) (endsNumber_writeMembers members rest)

end

/-! ## Members in a draft -/

namespace Record

variable {σ α : Type} {record : Record σ α} {draft draft' : σ}

/-- A draft takes the members one after the other, each under the key of a field that is not yet
set, and becomes another draft. -/
inductive Absorbs (record : Record σ α) : σ → List (Text × Text) → σ → Prop
  | nil (draft : σ) : Absorbs record draft [] draft
  | cons {draft next draft' : σ} {field : Field σ} {key written : Text}
      {members : List (Text × Text)} :
      record.field? key = some field → field.isSet draft = false →
      (field.reader draft).TakesBack written next → Absorbs record next members draft' →
      Absorbs record draft ((key, written) :: members) draft'

theorem readMembers_of_end {first : Bool} {s rest : List Symbol}
    (h : takeKey first s = .ok (none, rest)) :
    record.readMembers draft first s = .ok (draft, rest) := by
  rw [readMembers]
  grind

theorem readMembers_of_member {first : Bool} {s rest after : List Symbol} {key : Text}
    (hkey : takeKey first s = .ok (some key, rest))
    (hmember : record.readMember draft key rest = .ok (draft', after)) :
    record.readMembers draft first s = record.readMembers draft' false after := by
  rw [readMembers]
  grind

theorem readMember_of_field {key : Text} {field : Field σ} {s behind after : List Symbol}
    (hfield : record.field? key = some field) (hunset : field.isSet draft = false)
    (hcolon : takeColon s = .ok behind)
    (hvalue : (field.reader draft).read behind = .ok (draft', after)) :
    record.readMember draft key s = .ok (draft', after) := by
  simp only [readMember, hfield, hunset, hcolon, hvalue]
  rfl

theorem readMembers_written {layout : Layout} {depth : Nat} {members : List (Text × Text)}
    (h : record.Absorbs draft members draft') (first : Bool) (rest : List Symbol) :
    record.readMembers draft first
        (Symbol.ofText (writeMembers layout depth first members) ++ rest) = .ok (draft', rest) := by
  induction h generalizing first with
  | nil draft => exact readMembers_of_end (takeKey_end rest)
  | @cons draft next draft' field key written members hfield hunset hvalue _ ih =>
      obtain ⟨s, hcolon, hread⟩ := hvalue.behind_colon layout depth members rest
      have hmember := readMember_of_field hfield hunset hcolon hread
      rw [ofText_writeMembers_cons, readMembers_of_member (takeKey_written key _) hmember]
      exact ih false

/-- An object is taken back by a record that takes its members and can then be finished. -/
theorem takesBack {layout : Layout} {depth : Nat} {members : List (Text × Text)} {a : α}
    (habsorbs : record.Absorbs record.empty members draft) (hfinish : record.finish draft = .ok a) :
    record.reader.TakesBack (writeObject layout depth members) a := by
  intro blanks rest hblanks _
  simp only [reader, readRecord, skipBlanks_writeObject hblanks, readMembers_written habsorbs,
    hfinish, finishAt]

end Record

end PseudocodeLexer.Json
