import Mathlib.Tactic.MkIffOfInductiveProp
import PseudocodeLexer.Config
import PseudocodeLexer.Proofs.ReadRecords

/-!
# Configurations in well-formed documents

A configuration means the fields that its document gives, over the defaults
(`ScanConfig.IsGivenBy`). The members of an object may stand in any order, with any others between
them, and are known by what their keys say, however they are spelled; the elements of a list stand
for the fields in order. A document that gives a field twice, or by a value of another kind, is
refused.
-/

namespace PseudocodeLexer

open Json

/-! ## What a document says -/

/-- The values that an object has under a key. -/
def Json.valuesOf (key : Text) (members : List (Option Text × Value)) : List Value :=
  (members.filter fun m => m.1 == some key).map Prod.snd

/-- What the values under the key of a field make of it: the default if there is none, and otherwise
what the only one stands for. -/
inductive FieldIs {α : Type} (forms : α → List Value) (default : α) : List Value → α → Prop
  | absent : FieldIs forms default [] default
  | given {v : Value} {a : α} : v ∈ forms a → FieldIs forms default [v] a

/-- There is at most one value, and it stands for something. -/
def OnceAtMost {α : Type} (forms : α → List Value) (values : List Value) : Prop :=
  values.length ≤ 1 ∧ ∀ v ∈ values, ∃ a, v ∈ forms a

/-! ## Values of the fields -/

def booleanForms (b : Bool) : List Value :=
  [.boolean b]

def textForms (t : Text) : List Value :=
  [.string (some t)]

/-- A format is the string of its label, or an object with that key alone and null. -/
def OutputFormat.forms (format : OutputFormat) : List Value :=
  [.string (some format.label), .object [(some format.label, .null)]]

namespace ScanConfig

/-- The object gives each field of the configuration, or leaves it out. -/
structure IsGivenBy (config : ScanConfig) (members : List (Option Text × Value)) : Prop where
  recognizeComments : FieldIs booleanForms default.recognizeComments
    (valuesOf "recognize_comments".toList members) config.recognizeComments
  scopeSuffix : FieldIs textForms default.scopeSuffix
    (valuesOf "scope_suffix".toList members) config.scopeSuffix
  format : FieldIs OutputFormat.forms default.format
    (valuesOf "format".toList members) config.format

/-- The elements of a list as members under the keys of the fields, in order. -/
def keyed (elements : List Value) : List (Option Text × Value) :=
  [some "recognize_comments".toList, some "scope_suffix".toList, some "format".toList].zip elements

end ScanConfig

/-! ## Fields filled by members -/

theorem valuesOf_cons (key : Text) (m : Option Text × Value)
    (members : List (Option Text × Value)) :
    valuesOf key (m :: members) = valuesOf key [m] ++ valuesOf key members := by
  simp only [valuesOf, ← List.map_append, ← List.filter_append, List.singleton_append]

theorem valuesOf_self (key : Text) (v : Value) : valuesOf key [(some key, v)] = [v] := by
  simp [valuesOf]

theorem valuesOf_other {key other : Text} (h : key ≠ other) (v : Value) :
    valuesOf other [(some key, v)] = [] := by
  simp [valuesOf, h]

theorem boolean?_eq_some_iff {v : Value} {b : Bool} : v.boolean? = some b ↔ v ∈ booleanForms b := by
  cases v <;> simp [Value.boolean?, booleanForms]

theorem text?_eq_some_iff {v : Value} {t : Text} : v.text? = some t ↔ v ∈ textForms t := by
  cases v <;> simp [Value.text?, textForms]

theorem exists_null?_iff {v : Value} : (∃ u, v.null? = some u) ↔ v = .null := by
  cases v <;> simp [Value.null?]

namespace OutputFormat

theorem lookup_choices {label : Text} {format : OutputFormat} :
    choices.lookup label = some format ↔ label = format.label := by
  constructor
  · intro h
    obtain ⟨l₁, l₂, hsplit, -⟩ := List.lookup_eq_some_iff.mp h
    have hmem : (label, format) ∈ choices := by simp [hsplit]
    have hlabels : ∀ choice ∈ choices, choice.1 = choice.2.label := by decide
    exact hlabels _ hmem
  · rintro rfl
    cases format <;> decide

theorem choice?_eq_some_iff {v : Value} {format : OutputFormat} :
    v.choice? choices = some format ↔ v ∈ format.forms := by
  unfold Value.choice?
  split
  · simp [forms, Option.bind_eq_some_iff, lookup_choices]
  · simp [forms, Option.bind_eq_some_iff, lookup_choices, exists_null?_iff, and_comm]
  · rename_i hstring hobject
    simp only [reduceCtorEq, false_iff, forms, List.mem_cons, List.not_mem_nil, or_false, not_or]
    exact ⟨hstring _, hobject _ _⟩

theorem reader_reads : reader.Reads fun v => v.choice? choices :=
  choice_reads choices

end OutputFormat

/-- A field that has been given before takes no value, any other the only one there is. -/
inductive Filled {α : Type} (forms : α → List Value) : Option α → List Value → Option α → Prop
  | kept (old : Option α) : Filled forms old [] old
  | given {v : Value} {a : α} : v ∈ forms a → Filled forms none [v] (some a)

namespace Filled

variable {α : Type} {forms : α → List Value} {old new : Option α} {v : Value} {vs ws : List Value}

theorem nil_iff : Filled forms old [] new ↔ old = new := by
  constructor
  · rintro ⟨⟩
    rfl
  · rintro rfl
    exact .kept old

theorem append_iff :
    Filled forms old (vs ++ ws) new ↔ ∃ mid, Filled forms old vs mid ∧ Filled forms mid ws new := by
  constructor
  · intro h
    cases vs with
    | nil => exact ⟨old, .kept old, h⟩
    | cons v vs =>
        generalize hall : v :: vs ++ ws = values at h
        cases h with
        | kept => cases hall
        | given hv =>
            obtain ⟨rfl, hnil⟩ := List.cons_eq_cons.mp hall
            obtain ⟨rfl, rfl⟩ := List.append_eq_nil_iff.mp hnil
            exact ⟨_, .given hv, .kept _⟩
  · rintro ⟨mid, hvs, hws⟩
    cases hvs with
    | kept => exact hws
    | given hv =>
        cases hws
        exact .given hv

/-- A field takes a value of its kind if it has none. -/
theorem singleton_iff {meaning? : Value → Option α} {β : Type} {f : Option α → β} {next : β}
    (hmeaning : ∀ a, meaning? v = some a ↔ v ∈ forms a) :
    (if old.isSome then none else (meaning? v).map fun a => f (some a)) = some next ↔
      ∃ new, f new = next ∧ Filled forms old [v] new := by
  cases old with
  | some a =>
      simp only [Option.isSome_some, if_true, reduceCtorEq, false_iff]
      rintro ⟨new, -, ⟨⟩⟩
  | none =>
      simp only [Option.isSome_none, Bool.false_eq_true, if_false, Option.map_eq_some_iff, hmeaning]
      constructor
      · rintro ⟨a, hv, rfl⟩
        exact ⟨some a, rfl, .given hv⟩
      · rintro ⟨new, rfl, h⟩
        cases h with
        | given hv => exact ⟨_, hv, rfl⟩

theorem fieldIs_iff {default a : α} :
    FieldIs forms default vs a ↔ ∃ new, Filled forms none vs new ∧ new.getD default = a := by
  constructor
  · intro h
    cases h with
    | absent => exact ⟨none, .kept none, rfl⟩
    | given hv => exact ⟨_, .given hv, rfl⟩
  · rintro ⟨new, h, rfl⟩
    cases h with
    | kept => exact .absent
    | given hv => exact .given hv

end Filled

theorem FieldIs.unique {α : Type} {forms : α → List Value} {meaning? : Value → Option α}
    {default a a' : α} {values : List Value} (h : FieldIs forms default values a)
    (hmeaning : ∀ v a, meaning? v = some a ↔ v ∈ forms a)
    (h' : FieldIs forms default values a') : a = a' := by
  cases h with
  | absent =>
      cases h'
      rfl
  | @given v _ hv =>
      cases h' with
      | given hv' =>
          have hsome : some a = some a' :=
            ((hmeaning v a).mpr hv).symm.trans ((hmeaning v a').mpr hv')
          exact Option.some.inj hsome

theorem exists_fieldIs_iff {α : Type} {forms : α → List Value} {default : α} {values : List Value} :
    (∃ a, FieldIs forms default values a) ↔ OnceAtMost forms values := by
  constructor
  · rintro ⟨a, h⟩
    cases h with
    | absent => exact ⟨by simp, by simp⟩
    | given hv => exact ⟨by simp, by simpa using ⟨a, hv⟩⟩
  · rintro ⟨hlength, hall⟩
    match values, hlength with
    | [], _ => exact ⟨default, .absent⟩
    | [v], _ =>
        obtain ⟨a, hv⟩ := hall v (by simp)
        exact ⟨a, .given hv⟩

namespace ScanConfig

def slots : List (Slot Draft) :=
  [.ofReader "recognize_comments".toList Draft.recognizeComments
      (fun draft b => { draft with recognizeComments := some b }) bool_reads,
   .ofReader "scope_suffix".toList Draft.scopeSuffix
      (fun draft t => { draft with scopeSuffix := some t }) string_reads,
   .ofReader "format".toList Draft.format
      (fun draft f => { draft with format := some f }) OutputFormat.reader_reads]

theorem record_fields : record.fields = slots.map Slot.field := rfl

/-- A member is given to the field of its key. -/
theorem placeMember?_some (draft : Draft) (key : Text) (v : Value) :
    Slot.placeMember? slots draft (some key, v) =
      if key = "recognize_comments".toList then
        if draft.recognizeComments.isSome then none
        else v.boolean?.map fun b => { draft with recognizeComments := some b }
      else if key = "scope_suffix".toList then
        if draft.scopeSuffix.isSome then none
        else v.text?.map fun t => { draft with scopeSuffix := some t }
      else if key = "format".toList then
        if draft.format.isSome then none
        else (v.choice? OutputFormat.choices).map fun f => { draft with format := some f }
      else some draft := by
  simp only [slots, Slot.placeMember?_cons, Slot.placeMember?_nil]
  rfl

/-- One draft becomes another as values under the keys of the fields fill it. -/
@[mk_iff]
structure Fills (draft : Draft) (members : List (Option Text × Value)) (new : Draft) : Prop where
  keys : ∀ m ∈ members, m.1.isSome = true
  recognizeComments : Filled booleanForms draft.recognizeComments
    (valuesOf "recognize_comments".toList members) new.recognizeComments
  scopeSuffix : Filled textForms draft.scopeSuffix
    (valuesOf "scope_suffix".toList members) new.scopeSuffix
  format : Filled OutputFormat.forms draft.format
    (valuesOf "format".toList members) new.format

theorem placeMember?_iff {draft new : Draft} {m : Option Text × Value} :
    Slot.placeMember? slots draft m = some new ↔ Fills draft [m] new := by
  obtain ⟨key, v⟩ := m
  cases key with
  | none => simp [Slot.placeMember?, fills_iff]
  | some key =>
      obtain ⟨r, s, f⟩ := new
      rw [placeMember?_some]
      by_cases hcomments : key = "recognize_comments".toList
      · subst hcomments
        rw [if_pos rfl, fills_iff, valuesOf_self, valuesOf_other (by decide),
          valuesOf_other (by decide)]
        refine (Filled.singleton_iff (f := fun r => { draft with recognizeComments := r })
          fun _ => boolean?_eq_some_iff).trans ?_
        grind [Filled.nil_iff]
      by_cases hsuffix : key = "scope_suffix".toList
      · subst hsuffix
        rw [if_neg (by decide), if_pos rfl, fills_iff, valuesOf_self, valuesOf_other (by decide),
          valuesOf_other (by decide)]
        refine (Filled.singleton_iff (f := fun t => { draft with scopeSuffix := t })
          fun _ => text?_eq_some_iff).trans ?_
        grind [Filled.nil_iff]
      by_cases hformat : key = "format".toList
      · subst hformat
        rw [if_neg (by decide), if_neg (by decide), if_pos rfl, fills_iff, valuesOf_self,
          valuesOf_other (by decide), valuesOf_other (by decide)]
        refine (Filled.singleton_iff (f := fun format => { draft with format := format })
          fun _ => OutputFormat.choice?_eq_some_iff).trans ?_
        grind [Filled.nil_iff]
      · rw [if_neg hcomments, if_neg hsuffix, if_neg hformat, fills_iff, valuesOf_other hcomments,
          valuesOf_other hsuffix, valuesOf_other hformat]
        cases draft
        simp [Filled.nil_iff]

theorem fills_cons_iff {draft new : Draft} {m : Option Text × Value}
    {members : List (Option Text × Value)} :
    Fills draft (m :: members) new ↔ ∃ mid, Fills draft [m] mid ∧ Fills mid members new := by
  constructor
  · rintro ⟨hkeys, hcomments, hsuffix, hformat⟩
    rw [valuesOf_cons, Filled.append_iff] at hcomments hsuffix hformat
    obtain ⟨r, hr, hcomments⟩ := hcomments
    obtain ⟨s, hs, hsuffix⟩ := hsuffix
    obtain ⟨f, hf, hformat⟩ := hformat
    exact ⟨⟨r, s, f⟩, ⟨by simpa using hkeys m (by simp), hr, hs, hf⟩,
      ⟨fun m hm => hkeys m (by simp [hm]), hcomments, hsuffix, hformat⟩⟩
  · rintro ⟨mid, hm, hmembers⟩
    have hkeys : ∀ m' ∈ m :: members, m'.1.isSome = true :=
      List.forall_mem_cons.mpr ⟨hm.keys m (by simp), hmembers.keys⟩
    refine ⟨hkeys, ?_, ?_, ?_⟩
    all_goals rw [valuesOf_cons, Filled.append_iff]
    · exact ⟨_, hm.recognizeComments, hmembers.recognizeComments⟩
    · exact ⟨_, hm.scopeSuffix, hmembers.scopeSuffix⟩
    · exact ⟨_, hm.format, hmembers.format⟩

/-- The members of an object fill the draft one after the other. -/
theorem foldlM_placeMember?_iff {draft new : Draft} {members : List (Option Text × Value)} :
    members.foldlM (Slot.placeMember? slots) draft = some new ↔ Fills draft members new := by
  induction members generalizing draft with
  | nil =>
      obtain ⟨r, s, f⟩ := draft
      obtain ⟨r', s', f'⟩ := new
      simp [fills_iff, valuesOf, Filled.nil_iff]
  | cons m members ih =>
      rw [List.foldlM_cons, fills_cons_iff]
      simp only [Option.bind_eq_bind, Option.bind_eq_some_iff, placeMember?_iff, ih]

/-- The empty draft is filled and finished as the configuration that the object gives. -/
theorem exists_fills_iff {config : ScanConfig} {members : List (Option Text × Value)} :
    (∃ draft, Fills .empty members draft ∧ draft.finish = config) ↔
      (∀ m ∈ members, m.1.isSome = true) ∧ config.IsGivenBy members := by
  constructor
  · rintro ⟨draft, h, rfl⟩
    exact ⟨h.keys, Filled.fieldIs_iff.mpr ⟨_, h.recognizeComments, rfl⟩,
      Filled.fieldIs_iff.mpr ⟨_, h.scopeSuffix, rfl⟩, Filled.fieldIs_iff.mpr ⟨_, h.format, rfl⟩⟩
  · rintro ⟨hkeys, hcomments, hsuffix, hformat⟩
    obtain ⟨r, hr, hcomments⟩ := Filled.fieldIs_iff.mp hcomments
    obtain ⟨s, hs, hsuffix⟩ := Filled.fieldIs_iff.mp hsuffix
    obtain ⟨f, hf, hformat⟩ := Filled.fieldIs_iff.mp hformat
    refine ⟨⟨r, s, f⟩, ⟨hkeys, hr, hs, hf⟩, ?_⟩
    rw [Draft.finish, hcomments, hsuffix, hformat]

/-! ## Fields filled by elements -/

theorem slots_inOrder : Slot.InOrder slots slots .empty := by
  refine .cons (fun _ => rfl) fun v next hcomments => ?_
  obtain ⟨r, -, rfl⟩ := Option.map_eq_some_iff.mp hcomments
  refine .cons (fun _ => rfl) fun v next hsuffix => ?_
  obtain ⟨s, -, rfl⟩ := Option.map_eq_some_iff.mp hsuffix
  exact .cons (fun _ => rfl) fun v next _ => .nil next

theorem isSome_key_of_mem_keyed {elements : List Value} {m : Option Text × Value}
    (h : m ∈ keyed elements) : m.1.isSome = true := by
  obtain ⟨key, v⟩ := m
  have hkey := (List.of_mem_zip h).1
  simp only [List.mem_cons, List.not_mem_nil, or_false] at hkey
  rcases hkey with rfl | rfl | rfl <;> rfl

theorem valuesOf_keyed (elements : List Value) :
    valuesOf "recognize_comments".toList (keyed elements) = elements[0]?.toList ∧
      valuesOf "scope_suffix".toList (keyed elements) = elements[1]?.toList ∧
      valuesOf "format".toList (keyed elements) = elements[2]?.toList := by
  match elements with
  | [] => exact ⟨rfl, rfl, rfl⟩
  | [a] => exact ⟨rfl, rfl, rfl⟩
  | [a, b] => exact ⟨rfl, rfl, rfl⟩
  | a :: b :: c :: vs => exact ⟨rfl, rfl, rfl⟩

/-! ## Whole documents -/

theorem ofText_eq_ok_iff {v : Value} {t : Text} (h : Document v t) {config : ScanConfig} :
    ofText t = .ok config ↔ record.meaning? slots v = some config := by
  have hmeaning : (ofText t).toOption = record.meaning? slots v :=
    Reader.Reads.decode (Record.reads record_fields) h .text
  rw [← hmeaning]
  cases ofText t <;> simp [Except.toOption]

/-- A draft is finished as a configuration, whatever it was made of. -/
theorem bind_finish_iff {placed : Option Draft} {config : ScanConfig} :
    (placed.bind fun draft => (record.finish draft).toOption) = some config ↔
      ∃ draft, placed = some draft ∧ draft.finish = config := by
  rw [Option.bind_eq_some_iff]
  constructor
  · rintro ⟨draft, hplaced, ⟨⟩⟩
    exact ⟨draft, hplaced, rfl⟩
  · rintro ⟨draft, hplaced, rfl⟩
    exact ⟨draft, hplaced, rfl⟩

theorem ofText_object_iff {members : List (Option Text × Value)} {t : Text}
    (h : Document (.object members) t) {config : ScanConfig} :
    ofText t = .ok config ↔
      (∀ m ∈ members, m.1.isSome = true) ∧ config.IsGivenBy members := by
  rw [ofText_eq_ok_iff h, Record.meaning?, bind_finish_iff, ← exists_fills_iff]
  simp only [foldlM_placeMember?_iff]
  rfl

theorem ofText_list_iff {elements : List Value} {t : Text} (h : Document (.list elements) t)
    {config : ScanConfig} :
    ofText t = .ok config ↔ elements.length ≤ 3 ∧ config.IsGivenBy (keyed elements) := by
  have hkeys : ∀ m ∈ keyed elements, m.1.isSome = true := fun _ => isSome_key_of_mem_keyed
  have hplace : Slot.placeElements? slots record.empty elements
      = if elements.length ≤ 3 then (keyed elements).foldlM (Slot.placeMember? slots) .empty
        else none := slots_inOrder.placeElements?_eq elements
  rw [ofText_eq_ok_iff h, Record.meaning?, bind_finish_iff, hplace]
  by_cases hlength : elements.length ≤ 3
  · simp only [if_pos hlength, foldlM_placeMember?_iff, exists_fills_iff]
    exact ⟨fun h => ⟨hlength, h.2⟩, fun h => ⟨hkeys, h.2⟩⟩
  · simp [hlength]

/-- A document gives one configuration at most. -/
theorem IsGivenBy.unique {config config' : ScanConfig} {members : List (Option Text × Value)}
    (h : config.IsGivenBy members) (h' : config'.IsGivenBy members) : config = config' := by
  obtain ⟨r, s, f⟩ := config
  obtain ⟨r', s', f'⟩ := config'
  have hcomments : r = r' :=
    h.recognizeComments.unique (fun _ _ => boolean?_eq_some_iff) h'.recognizeComments
  have hsuffix : s = s' := h.scopeSuffix.unique (fun _ _ => text?_eq_some_iff) h'.scopeSuffix
  have hformat : f = f' :=
    h.format.unique (fun _ _ => OutputFormat.choice?_eq_some_iff) h'.format
  rw [hcomments, hsuffix, hformat]

theorem exists_isGivenBy_iff {members : List (Option Text × Value)} :
    (∃ config : ScanConfig, config.IsGivenBy members) ↔
      OnceAtMost booleanForms (valuesOf "recognize_comments".toList members) ∧
      OnceAtMost textForms (valuesOf "scope_suffix".toList members) ∧
      OnceAtMost OutputFormat.forms (valuesOf "format".toList members) := by
  constructor
  · rintro ⟨config, hcomments, hsuffix, hformat⟩
    exact ⟨exists_fieldIs_iff.mp ⟨_, hcomments⟩, exists_fieldIs_iff.mp ⟨_, hsuffix⟩,
      exists_fieldIs_iff.mp ⟨_, hformat⟩⟩
  · rintro ⟨hcomments, hsuffix, hformat⟩
    obtain ⟨r, hr⟩ := exists_fieldIs_iff.mpr hcomments
    obtain ⟨s, hs⟩ := exists_fieldIs_iff.mpr hsuffix
    obtain ⟨f, hf⟩ := exists_fieldIs_iff.mpr hformat
    exact ⟨⟨r, s, f⟩, hr, hs, hf⟩

theorem onceAtMost_toList_iff {α : Type} {forms : α → List Value} {value : Option Value} :
    OnceAtMost forms value.toList ↔ ∀ v ∈ value, ∃ a, v ∈ forms a := by
  cases value <;> simp [OnceAtMost]

theorem exists_isGivenBy_keyed_iff {elements : List Value} :
    (∃ config : ScanConfig, config.IsGivenBy (keyed elements)) ↔
      (∀ v ∈ elements[0]?, ∃ b, v ∈ booleanForms b) ∧
      (∀ v ∈ elements[1]?, ∃ t, v ∈ textForms t) ∧
      (∀ v ∈ elements[2]?, ∃ format : OutputFormat, v ∈ format.forms) := by
  obtain ⟨hcomments, hsuffix, hformat⟩ := valuesOf_keyed elements
  rw [exists_isGivenBy_iff, hcomments, hsuffix, hformat, onceAtMost_toList_iff,
    onceAtMost_toList_iff, onceAtMost_toList_iff]

/-- A configuration is read from a well-formed object exactly when each field is given once at most,
by a value of its kind, and then it is what the object gives, over the defaults; the elements of a
list, three at most, stand for the fields in order. -/
theorem ofText_of_document {t : Text} :
    (∀ members, Document (.object members) t →
      ((∃ config, ofText t = .ok config) ↔
        (∀ m ∈ members, m.1.isSome = true) ∧
        OnceAtMost booleanForms (valuesOf "recognize_comments".toList members) ∧
        OnceAtMost textForms (valuesOf "scope_suffix".toList members) ∧
        OnceAtMost OutputFormat.forms (valuesOf "format".toList members)) ∧
      ∀ config, ofText t = .ok config → config.IsGivenBy members) ∧
    ∀ elements, Document (.list elements) t →
      ((∃ config, ofText t = .ok config) ↔
        elements.length ≤ 3 ∧
        (∀ v ∈ elements[0]?, ∃ b, v ∈ booleanForms b) ∧
        (∀ v ∈ elements[1]?, ∃ suffix, v ∈ textForms suffix) ∧
        ∀ v ∈ elements[2]?, ∃ format : OutputFormat, v ∈ format.forms) ∧
      (∀ config, ofText t = .ok config → config.IsGivenBy (keyed elements)) ∧
      ∀ t', elements.length ≤ 3 → Document (.object (keyed elements)) t' →
        ∀ config, ofText t = .ok config ↔ ofText t' = .ok config := by
  refine ⟨fun members h => ⟨?_, ?_⟩, fun elements h => ⟨?_, ?_, ?_⟩⟩
  · simp only [ofText_object_iff h, exists_and_left, exists_isGivenBy_iff]
  · intro config hconfig
    exact ((ofText_object_iff h).mp hconfig).2
  · simp only [ofText_list_iff h, exists_and_left, exists_isGivenBy_keyed_iff]
  · intro config hconfig
    exact ((ofText_list_iff h).mp hconfig).2
  · intro t' hlength h' config
    rw [ofText_list_iff h, ofText_object_iff h']
    exact ⟨fun h => ⟨fun _ => isSome_key_of_mem_keyed, h.2⟩, fun h => ⟨hlength, h.2⟩⟩

/-- A surrogate stands alone in a value that nobody asked for, a key spells a letter as an escape,
and the other fields have their defaults. -/
theorem ofText_of_document_nested :
    ofText (" \x7b\"x\":[0,\x7b\"\\ud800\":null\x7d] ,".toList
        ++ "\"f\\u006frmat\":\x7b\"json\":null\x7d\x7d".toList)
      = .ok ⟨false, "pseudocode".toList, .json⟩ := by
  have hnumber : IsNumber ['0'] := .inl ⟨['0'], [], [], .inl rfl, .inl rfl, .inl rfl, rfl⟩
  have hnone : IsBlanks [] := by decide
  have hlone : Writes (.value (.object [(none, .null)])) _ :=
    .object (@Writes.member true [.unit ⟨⟨13, false⟩, ⟨8, false⟩, ⟨0, false⟩, ⟨0, false⟩⟩] .null []
      [] [] [] [] _ _ hnone hnone hnone hnone .null (.noMember hnone))
  have hlist : Writes (.value (.list [.number ['0'], .object [(none, .null)]])) _ :=
    .list (.element hnone hnone (.number hnumber) (.element hnone hnone hlone (.noElement hnone)))
  have hformat : Writes (.value (.object [(some "json".toList, .null)])) _ :=
    .object (@Writes.member true (plainly "json".toList (by decide)) .null [] [] [] [] [] _ _
      hnone hnone hnone hnone .null (.noMember hnone))
  have hobject : Writes (.value (.object
      [(some "x".toList, .list [.number ['0'], .object [(none, .null)]]),
       (some "format".toList, .object [(some "json".toList, .null)])])) _ :=
    .object (@Writes.member true (plainly "x".toList (by decide)) _ _ [] [] [] [] _ _
      hnone hnone hnone hnone hlist
      (@Writes.member false
        (plainly "f".toList (by decide)
          ++ .unit ⟨⟨0, false⟩, ⟨0, false⟩, ⟨6, false⟩, ⟨15, false⟩⟩
            :: plainly "rmat".toList (by decide))
        _ _ [' '] [] [] [] _ _ (by decide) hnone hnone hnone hformat (.noMember hnone)))
  obtain ⟨haccepts, hgives⟩ := ofText_of_document.1 _
    ⟨[' '], _, [], by decide, hobject, hnone, rfl⟩
  have hgiven : IsGivenBy ⟨false, "pseudocode".toList, .json⟩
      [(some "x".toList, .list [.number ['0'], .object [(none, .null)]]),
       (some "format".toList, .object [(some "json".toList, .null)])] :=
    ⟨.absent, .absent, .given (.tail _ (.head _))⟩
  obtain ⟨config, hconfig⟩ := haccepts.mpr ⟨by decide, exists_isGivenBy_iff.mp ⟨_, hgiven⟩⟩
  rw [← (hgives config hconfig).unique hgiven]
  exact hconfig

end ScanConfig

end PseudocodeLexer
