import PseudocodeLexer.Json.Skip
import PseudocodeLexer.Json.Value

/-!
# Records

A record is read from an object, with its fields in any order and other keys skipped, or from a list
of its fields in the order of their declaration. The fields read so far make up a draft, which is
finished at the end; a field without a default has to be there by then, and no field may be given
twice. A list may stop early if the draft can be finished, but may not go on behind the last field.
-/

namespace PseudocodeLexer.Json

/-- A field of a record whose drafts have type `σ`. -/
structure Field (σ : Type) where
  key : Text
  isSet : σ → Bool
  reader : σ → Reader σ

/-- A field that is held in the draft as an option. -/
def Field.ofReader {σ β : Type} (key : Text) (reader : Reader β) (get : σ → Option β)
    (set : σ → β → σ) : Field σ where
  key := key
  isSet draft := (get draft).isSome
  reader draft := reader.map (set draft)

structure Record (σ α : Type) where
  name : Text
  /-- In the order of their declaration. -/
  fields : List (Field σ)
  empty : σ
  finish : σ → Except Cause α

namespace Record

variable {σ α : Type}

def expected (record : Record σ α) : Text :=
  "struct ".toList ++ record.name

def field? (record : Record σ α) (key : Text) : Option (Field σ) :=
  record.fields.find? (·.key == key)

/-! ## Objects -/

/-- Takes the next key of an object behind its opening quote up to the closing one, or the closing
brace. -/
def takeKey (first : Bool) (s : List Symbol) : Step (Option Text) :=
  match skipBlanks s with
  | [] => .error (.next .endInObject [])
  | .char '}' :: rest => .ok (none, rest)
  | x :: rest =>
      if first then
        if x = .char '"' then openKey rest else .error (.next .keyNotString (x :: rest))
      else if x = .char ',' then
        match skipBlanks rest with
        | [] => .error (.next .endInValue [])
        | .char '"' :: rest => openKey rest
        | .char '}' :: rest => .error (.next .trailingComma (.char '}' :: rest))
        | x :: rest => .error (.next .keyNotString (x :: rest))
      else .error (.next .expectedObjectCommaOrEnd (x :: rest))
where
  openKey (s : List Symbol) : Step (Option Text) :=
    match takeString s with
    | .error failure => .error failure
    | .ok (key, rest) => .ok (some key, rest)

theorem length_le_of_openKey {s rest : List Symbol} {key : Option Text}
    (h : takeKey.openKey s = .ok (key, rest)) : rest.length ≤ s.length := by
  unfold takeKey.openKey at h
  split at h
  · simp at h
  · rename_i hstring
    simp only [Except.ok.injEq, Prod.mk.injEq] at h
    exact h.2 ▸ length_le_of_takeString hstring

theorem length_lt_of_takeKey {first : Bool} {s rest : List Symbol} {key : Option Text}
    (h : takeKey first s = .ok (key, rest)) : rest.length < s.length := by
  unfold takeKey at h
  split at h
  · simp at h
  · rename_i hs
    simp only [Except.ok.injEq, Prod.mk.injEq] at h
    exact h.2 ▸ length_lt_of_skipBlanks hs
  · rename_i x rest' hs
    have hlt := length_lt_of_skipBlanks hs
    split at h
    · split at h
      · exact Nat.lt_of_le_of_lt (length_le_of_openKey h) hlt
      · simp at h
    · split at h
      · split at h
        · simp at h
        · rename_i hs'
          have hlt' := length_lt_of_skipBlanks hs'
          have hle := length_le_of_openKey h
          omega
        · simp at h
        · simp at h
      · simp at h

/-- A fault of an object as a whole is reported behind its closing brace if that comes next, and
otherwise at whatever comes next. -/
def objectFailure (cause : Cause) (s : List Symbol) : Failure :=
  match skipBlanks s with
  | .char '}' :: rest => .here cause rest
  | rest => .peeked cause rest

/-- Reads the value behind a key into the draft, or skips it when the key is of no field. -/
def readMember (record : Record σ α) (draft : σ) (key : Text) (s : List Symbol) : Step σ :=
  match record.field? key with
  | none =>
      match takeColon s with
      | .error failure => .error failure
      | .ok rest =>
          match skipValue rest with
          | .error failure => .error failure
          | .ok rest => .ok (draft, rest)
  | some field =>
      if field.isSet draft then .error (objectFailure (.duplicateField field.key) s)
      else match takeColon s with
        | .error failure => .error failure
        | .ok rest => (field.reader draft).read rest

theorem length_le_of_readMember {record : Record σ α} {draft draft' : σ} {key : Text}
    {s rest : List Symbol} (h : record.readMember draft key s = .ok (draft', rest)) :
    rest.length ≤ s.length := by
  unfold readMember at h
  split at h
  · split at h
    · simp at h
    · rename_i hcolon
      split at h
      · simp at h
      · rename_i hvalue
        simp only [Except.ok.injEq, Prod.mk.injEq] at h
        have hcolon := length_lt_of_takeColon hcolon
        have hvalue := length_le_of_skipValue hvalue
        rw [← h.2]
        omega
  · rename_i field _
    split at h
    · simp at h
    · split at h
      · simp at h
      · rename_i hcolon
        have hcolon := length_lt_of_takeColon hcolon
        have hvalue := (field.reader draft).shrinks h
        omega

/-- Reads the members of an object up to and including its closing brace. -/
def readMembers (record : Record σ α) (draft : σ) (first : Bool) (s : List Symbol) : Step σ :=
  match hkey : takeKey first s with
  | .error failure => .error failure
  | .ok (none, rest) => .ok (draft, rest)
  | .ok (some key, rest) =>
      match hmember : record.readMember draft key rest with
      | .error failure => .error failure
      | .ok (draft, after) =>
          have : after.length < s.length :=
            Nat.lt_of_le_of_lt (length_le_of_readMember hmember) (length_lt_of_takeKey hkey)
          readMembers record draft false after
termination_by s.length
decreasing_by exact this

theorem length_lt_of_readMembers {record : Record σ α} {draft draft' : σ} {first : Bool}
    {s rest : List Symbol} (h : record.readMembers draft first s = .ok (draft', rest)) :
    rest.length < s.length := by
  fun_induction readMembers record draft first s with
  | case1 => simp at h
  | case2 draft first s rest' hkey =>
      simp only [Except.ok.injEq, Prod.mk.injEq] at h
      exact h.2 ▸ length_lt_of_takeKey hkey
  | case3 => simp at h
  | case4 draft first s key rest' hkey draft₁ after hmember hlt ih =>
      exact Nat.lt_trans (ih h) hlt

/-! ## Lists -/

/-- Looks for the next element of a list: true if there is one, false behind the closing
bracket. -/
def nextElement (first : Bool) (s : List Symbol) : Step Bool :=
  match skipBlanks s with
  | [] => .error (.next .endInList [])
  | .char ']' :: rest => .ok (false, rest)
  | x :: rest =>
      if first then .ok (true, x :: rest)
      else if x = .char ',' then
        match skipBlanks rest with
        | [] => .error (.next .endInValue [])
        | .char ']' :: rest => .error (.next .trailingComma (.char ']' :: rest))
        | y :: rest => .ok (true, y :: rest)
      else .error (.next .expectedListCommaOrEnd (x :: rest))

theorem length_le_of_nextElement {first more : Bool} {s rest : List Symbol}
    (h : nextElement first s = .ok (more, rest)) : rest.length ≤ s.length := by
  have hblanks := length_skipBlanks_le s
  unfold nextElement at h
  split at h
  · simp at h
  · rename_i hs
    simp only [Except.ok.injEq, Prod.mk.injEq] at h
    exact h.2 ▸ Nat.le_of_lt (length_lt_of_skipBlanks hs)
  · rename_i x rest' _ hs
    rw [hs] at hblanks
    split at h
    · simp only [Except.ok.injEq, Prod.mk.injEq] at h
      exact h.2 ▸ hblanks
    · split at h
      · have hblanks' := length_skipBlanks_le rest'
        split at h
        · simp at h
        · simp at h
        · rename_i hs'
          simp only [Except.ok.injEq, Prod.mk.injEq] at h
          rw [hs'] at hblanks'
          rw [← h.2]
          exact Nat.le_trans hblanks' (Nat.le_trans (Nat.le_succ _) hblanks)
      · simp at h

/-- Takes the closing bracket behind the last element. -/
def takeListEnd (s : List Symbol) : Except Failure (List Symbol) :=
  match skipBlanks s with
  | [] => .error (.next .endInList [])
  | .char ']' :: rest => .ok rest
  | .char ',' :: rest =>
      match skipBlanks rest with
      | .char ']' :: rest => .error (.next .trailingComma (.char ']' :: rest))
      | rest => .error (.next .trailingCharacters rest)
  | x :: rest => .error (.next .trailingCharacters (x :: rest))

theorem length_lt_of_takeListEnd {s rest : List Symbol} (h : takeListEnd s = .ok rest) :
    rest.length < s.length := by
  unfold takeListEnd at h
  split at h
  · simp at h
  · rename_i hs
    simp only [Except.ok.injEq] at h
    exact h ▸ length_lt_of_skipBlanks hs
  · split at h <;> simp at h
  · simp at h

/-- Reads elements into the fields of the same order, up to and including the closing bracket: the
draft, and how many elements there were. -/
def readElements (first : Bool) (count : Nat) (draft : σ) :
    List (Field σ) → List Symbol → Step (σ × Nat)
  | [], s =>
      match takeListEnd s with
      | .error failure => .error failure
      | .ok rest => .ok ((draft, count), rest)
  | field :: fields, s =>
      match nextElement first s with
      | .error failure => .error failure
      | .ok (false, rest) => .ok ((draft, count), rest)
      | .ok (true, rest) =>
          match (field.reader draft).read rest with
          | .error failure => .error failure
          | .ok (draft, rest) => readElements false (count + 1) draft fields rest

theorem length_le_of_readElements {first : Bool} {count : Nat} {draft : σ}
    {fields : List (Field σ)} {s rest : List Symbol} {result : σ × Nat}
    (h : readElements first count draft fields s = .ok (result, rest)) :
    rest.length ≤ s.length := by
  induction fields generalizing first count draft s with
  | nil =>
      simp only [readElements] at h
      split at h
      · simp at h
      · rename_i hend
        simp only [Except.ok.injEq, Prod.mk.injEq] at h
        exact h.2 ▸ Nat.le_of_lt (length_lt_of_takeListEnd hend)
  | cons field fields ih =>
      simp only [readElements] at h
      split at h
      · simp at h
      · rename_i hnext
        simp only [Except.ok.injEq, Prod.mk.injEq] at h
        exact h.2 ▸ length_le_of_nextElement hnext
      · rename_i hnext
        split at h
        · simp at h
        · rename_i hvalue
          have hnext := length_le_of_nextElement hnext
          have hvalue := (field.reader draft).shrinks hvalue
          have hrest := ih h
          omega

/-! ## Both -/

def describeLength (record : Record σ α) : Text :=
  record.expected ++ " with ".toList ++ Text.decimal record.fields.length
    ++ (if record.fields.length = 1 then " element" else " elements").toList

/-- Finishes a draft; a fault is reported behind the record. -/
def finishAt (rest : List Symbol) : Except Cause α → Step α
  | .error cause => .error (.here cause rest)
  | .ok a => .ok (a, rest)

/-- Finishes a draft made of the first elements of a list. -/
def finishList (record : Record σ α) (count : Nat) (draft : σ) : Except Cause α :=
  match record.finish draft with
  | .error _ => .error (.invalidLength count record.describeLength)
  | .ok a => .ok a

def readRecord (record : Record σ α) (s : List Symbol) : Step α :=
  match skipBlanks s with
  | [] => .error (.next .endInValue [])
  | .char '{' :: rest =>
      match record.readMembers record.empty true rest with
      | .error failure => .error failure
      | .ok (draft, rest) => finishAt rest (record.finish draft)
  | .char '[' :: rest =>
      match readElements true 0 record.empty record.fields rest with
      | .error failure => .error failure
      | .ok ((draft, count), rest) => finishAt rest (record.finishList count draft)
  | x :: rest => .error (mismatch record.expected x rest)

theorem eq_of_finishAt {rest rest' : List Symbol} {result : Except Cause α} {a : α}
    (h : finishAt rest result = .ok (a, rest')) : rest = rest' := by
  unfold finishAt at h
  split at h
  · simp at h
  · simp only [Except.ok.injEq, Prod.mk.injEq] at h
    exact h.2

theorem length_lt_of_readRecord {record : Record σ α} {s rest : List Symbol} {a : α}
    (h : record.readRecord s = .ok (a, rest)) : rest.length < s.length := by
  unfold readRecord at h
  split at h
  · simp at h
  · rename_i hs
    have hlt := length_lt_of_skipBlanks hs
    split at h
    · simp at h
    · rename_i hmembers
      have hmembers := length_lt_of_readMembers hmembers
      rw [← eq_of_finishAt h]
      omega
  · rename_i hs
    have hlt := length_lt_of_skipBlanks hs
    split at h
    · simp at h
    · rename_i helements
      have helements := length_le_of_readElements helements
      rw [← eq_of_finishAt h]
      omega
  · simp at h

def reader (record : Record σ α) : Reader α where
  read := record.readRecord
  shrinks := length_lt_of_readRecord

end Record

/-- A field that has to be there. -/
def require {β : Type} (key : String) : Option β → Except Cause β
  | some b => .ok b
  | none => .error (.missingField key.toList)

end PseudocodeLexer.Json
