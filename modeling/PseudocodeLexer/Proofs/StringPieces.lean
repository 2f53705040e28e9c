import Mathlib.Data.List.Forall2
import PseudocodeLexer.Proofs.StringSpelling

/-!
# Pieces of string literals

A text is read from left to right, each backslash together with the character behind it (`pieces`).
A quote that is a piece of its own closes a literal, and the first one does
(`throughClosingQuote?_eq_some_iff`). In front of it stand plain characters and escape pairs only,
which can be cut in no other way (`eq_of_flatten_eq`), and the value has one character for each of
them. So the decoder never meets a lexeme without its quotes or a backslash with nothing behind it
(`recognize?_pieces`).
-/

namespace PseudocodeLexer.StringLiteral

open Text

/-- The text from left to right, each backslash together with the character behind it. -/
def pieces : Text → List Text
  | [] => []
  | '\\' :: c :: rest => ['\\', c] :: pieces rest
  | c :: rest => [c] :: pieces rest

/-- A plain character or an escape pair. -/
inductive IsPiece : Text → Prop where
  | plain {c : Char} : c ≠ '"' → c ≠ '\\' → IsPiece [c]
  | escape (c : Char) : IsPiece ['\\', c]

/-- The literal has these pieces between its quotes. -/
structure IsCutInto (literal : Text) (ps : List Text) : Prop where
  isPiece : ∀ piece ∈ ps, IsPiece piece
  literal_eq : literal = enclosed ps.flatten

/-! ## Cutting -/

theorem pieces_cons {c : Char} (h : c ≠ '\\') (rest : Text) :
    pieces (c :: rest) = [c] :: pieces rest := by
  rw [pieces]
  exact fun _ _ hc _ => h hc

theorem flatten_pieces (t : Text) : (pieces t).flatten = t := by
  fun_induction pieces t with
  | case1 => rfl
  | case2 c rest ih => rw [List.flatten_cons, ih]; rfl
  | case3 c rest _ ih => rw [List.flatten_cons, ih]; rfl

theorem not_isPiece_quote : ¬ IsPiece ['"'] := by
  rintro (⟨hquote, -⟩ | _)
  exact hquote rfl

section

variable {ps : List Text}

/-- Plain characters and escape pairs are cut as they were put together. -/
theorem pieces_flatten_append (h : ∀ piece ∈ ps, IsPiece piece) (rest : Text) :
    pieces (ps.flatten ++ rest) = ps ++ pieces rest := by
  induction ps with
  | nil => rfl
  | cons piece ps ih =>
      obtain ⟨hpiece, hps⟩ := List.forall_mem_cons.mp h
      have hrest := ih hps
      cases hpiece with
      | @plain c hquote hbackslash =>
          show pieces (c :: (ps.flatten ++ rest)) = _
          rw [pieces_cons hbackslash, hrest]
          rfl
      | escape c =>
          show pieces ('\\' :: c :: (ps.flatten ++ rest)) = _
          rw [pieces, hrest]
          rfl

/-- A text can be put together from plain characters and escape pairs in one way only. -/
theorem eq_of_flatten_eq {ps' : List Text} (h : ∀ piece ∈ ps, IsPiece piece)
    (h' : ∀ piece ∈ ps', IsPiece piece) (heq : ps.flatten = ps'.flatten) : ps = ps' := by
  have hcut := pieces_flatten_append h []
  have hcut' := pieces_flatten_append h' []
  rw [heq, hcut', pieces, List.append_nil, List.append_nil] at hcut
  exact hcut.symm

theorem IsCutInto.unique {literal : Text} {ps' : List Text} (h : IsCutInto literal ps)
    (h' : IsCutInto literal ps') : ps = ps' := by
  have heq := h.literal_eq.symm.trans h'.literal_eq
  unfold enclosed at heq
  obtain ⟨-, htail⟩ := List.cons.inj heq
  exact eq_of_flatten_eq h.isPiece h'.isPiece (List.append_cancel_right htail)

end

/-- In front of another piece no backslash stands alone. -/
theorem isPiece_of_pieces_eq {t : Text} {before later : List Text}
    (h : pieces t = before ++ later) (hlater : later ≠ []) (hquote : ['"'] ∉ before) :
    ∀ piece ∈ before, IsPiece piece := by
  fun_induction pieces t generalizing before with
  | case1 =>
      obtain ⟨rfl, -⟩ := List.append_eq_nil_iff.mp h.symm
      intro piece hmem
      cases hmem
  | case2 c rest ih =>
      cases before with
      | nil =>
          intro piece hmem
          cases hmem
      | cons first before =>
          obtain ⟨rfl, hrest⟩ := List.cons.inj h
          rw [List.mem_cons, not_or] at hquote
          exact List.forall_mem_cons.mpr ⟨.escape c, ih hrest hquote.2⟩
  | case3 c rest hescape ih =>
      cases before with
      | nil =>
          intro piece hmem
          cases hmem
      | cons first before =>
          obtain ⟨rfl, hrest⟩ := List.cons.inj h
          rw [List.mem_cons, not_or] at hquote
          have hbackslash : c ≠ '\\' := by
            rintro rfl
            cases rest with
            | nil => exact hlater (List.append_eq_nil_iff.mp hrest.symm).2
            | cons d rest => exact hescape d rest rfl rfl
          have hplain : c ≠ '"' := by
            rintro rfl
            exact hquote.1 rfl
          exact List.forall_mem_cons.mpr ⟨.plain hplain hbackslash, ih hrest hquote.2⟩

/-! ## Pieces spell characters -/

theorem exists_spellsChar_of_isPiece {piece : Text} (h : IsPiece piece) :
    ∃ c, SpellsChar c piece := by
  cases h with
  | @plain c hquote hbackslash => exact ⟨c, .plain hquote hbackslash⟩
  | escape c =>
      by_cases hn : c = 'n'
      · subst c
        exact ⟨_, .lineFeed⟩
      · by_cases ht : c = 't'
        · subst c
          exact ⟨_, .tab⟩
        · by_cases hr : c = 'r'
          · subst c
            exact ⟨_, .carriageReturn⟩
          · exact ⟨c, .escape hn ht hr⟩

theorem exists_forall₂_spellsChar {ps : List Text} (h : ∀ piece ∈ ps, IsPiece piece) :
    ∃ value, List.Forall₂ SpellsChar value ps := by
  induction ps with
  | nil => exact ⟨[], .nil⟩
  | cons piece ps ih =>
      obtain ⟨hpiece, hps⟩ := List.forall_mem_cons.mp h
      obtain ⟨c, hc⟩ := exists_spellsChar_of_isPiece hpiece
      obtain ⟨value, hvalue⟩ := ih hps
      exact ⟨c :: value, .cons hc hvalue⟩

theorem spells_flatten {value : Text} {ps : List Text} (h : List.Forall₂ SpellsChar value ps) :
    Spells value ps.flatten := by
  induction h with
  | nil => exact .nil
  | cons hpiece _ ih => exact .cons hpiece ih

/-! ## The closing quote -/

section

variable {input body after : Text}

theorem exists_isPiece_of_throughClosingQuote?
    (h : throughClosingQuote? input = some (body, after)) :
    ∃ ps : List Text, (∀ piece ∈ ps, IsPiece piece) ∧ body = ps.flatten ++ ['"'] := by
  fun_induction throughClosingQuote? input generalizing body with
  | case1 => cases h
  | case2 rest =>
      cases h
      exact ⟨[], by simp, rfl⟩
  | case3 => cases h
  | case4 c rest b a hrest ih =>
      cases h
      obtain ⟨ps, hps, rfl⟩ := ih hrest
      exact ⟨['\\', c] :: ps, List.forall_mem_cons.mpr ⟨.escape c, hps⟩, rfl⟩
  | case5 => cases h
  | case6 c rest hquote hescape b a hrest ih =>
      cases h
      have hbackslash := ne_backslash_of_throughClosingQuote? hescape hrest
      obtain ⟨ps, hps, rfl⟩ := ih hrest
      exact ⟨[c] :: ps, List.forall_mem_cons.mpr ⟨.plain hquote hbackslash, hps⟩, rfl⟩

/-- The literal ends with the first quote that is a piece of its own. -/
theorem throughClosingQuote?_eq_some_iff :
    throughClosingQuote? input = some (body, after) ↔
      ∃ before later, pieces input = before ++ ['"'] :: later ∧ ['"'] ∉ before ∧
        body = before.flatten ++ ['"'] ∧ after = later.flatten := by
  constructor
  · intro h
    obtain ⟨ps, hps, rfl⟩ := exists_isPiece_of_throughClosingQuote? h
    have happend := throughClosingQuote?_append h
    rw [List.append_assoc, List.singleton_append] at happend
    have hcut := pieces_flatten_append hps ('"' :: after)
    rw [happend, pieces_cons (by decide)] at hcut
    refine ⟨ps, pieces after, hcut, ?_, rfl, (flatten_pieces after).symm⟩
    intro hquote
    exact not_isPiece_quote (hps _ hquote)
  · rintro ⟨before, later, hcut, hquote, rfl, rfl⟩
    have hbefore := isPiece_of_pieces_eq hcut (List.cons_ne_nil _ _) hquote
    obtain ⟨value, hvalue⟩ := exists_forall₂_spellsChar hbefore
    have hinput : input = before.flatten ++ '"' :: later.flatten := by
      rw [← flatten_pieces input, hcut, List.flatten_append, List.flatten_cons,
        List.singleton_append]
    rw [hinput]
    exact throughClosingQuote?_of_spells (spells_flatten hvalue) later.flatten

theorem exists_throughClosingQuote?_iff :
    (∃ body after, throughClosingQuote? input = some (body, after)) ↔ ['"'] ∈ pieces input := by
  simp only [throughClosingQuote?_eq_some_iff]
  constructor
  · rintro ⟨_, _, before, later, hcut, -⟩
    rw [hcut]
    exact List.mem_append_right before List.mem_cons_self
  · intro hmem
    obtain ⟨before, later, hcut, hquote⟩ := List.eq_append_cons_of_mem hmem
    exact ⟨_, _, before, later, hcut, hquote, rfl, rfl⟩

/-- Only behind a quote is there a literal, and it ends where the quote is closed. -/
theorem recognize?_eq_some_iff_closes {literal rest : Text} :
    recognize? input = some (literal, rest) ↔
      ∃ text body, input = '"' :: text ∧ throughClosingQuote? text = some (body, rest) ∧
        literal = '"' :: body := by
  constructor
  · intro h
    unfold recognize? at h
    split at h
    · split at h
      · cases h
      · rename_i hclose
        cases h
        exact ⟨_, _, rfl, hclose, rfl⟩
    · cases h
  · rintro ⟨text, body, rfl, hclose, rfl⟩
    rw [recognize?, hclose]

end

/-! ## Decoding without a way out -/

/-- The text between the quotes, which must stand at both ends. -/
def unquoted? : Text → Option Text
  | '"' :: body => if body.getLast? = some '"' then some body.dropLast else none
  | _ => none

/-- Resolves escape pairs and refuses a backslash with nothing behind it. -/
def unescape? : Text → Option Text
  | [] => some []
  | ['\\'] => none
  | '\\' :: c :: rest => (unescape? rest).map (escaped c :: ·)
  | c :: rest => (unescape? rest).map (c :: ·)

/-- The value of a lexeme for which decoding has nothing to make up for. -/
def strictValue? (lexeme : Text) : Option Text :=
  (unquoted? lexeme).bind unescape?

theorem unescape?_of_spells {value body : Text} (h : Spells value body) :
    unescape? body = some value := by
  induction h with
  | nil => rfl
  | @cons c piece value body hpiece _ ih =>
      rcases hpiece.plain_or_escape with ⟨rfl, -, hbackslash⟩ | ⟨d, rfl, rfl⟩
      · rw [List.singleton_append, unescape?, ih]
        · rfl
        · exact fun hc _ => hbackslash hc
        · exact fun _ _ hc _ => hbackslash hc
      · show unescape? ('\\' :: d :: body) = _
        rw [unescape?, ih]
        rfl

theorem unescape_of_unescape? {t value : Text} (h : unescape? t = some value) :
    unescape t = value := by
  fun_induction unescape? t generalizing value with
  | case1 =>
      cases h
      rfl
  | case2 => cases h
  | case3 c rest ih =>
      obtain ⟨value, hrest, rfl⟩ := Option.map_eq_some_iff.mp h
      rw [unescape, ih hrest]
  | case4 c rest _ hescape ih =>
      obtain ⟨value, hrest, rfl⟩ := Option.map_eq_some_iff.mp h
      rw [unescape, ih hrest]
      exact hescape

/-- Where decoding has nothing to make up for, it gives the value. -/
theorem value_of_strictValue? {lexeme v : Text} (h : strictValue? lexeme = some v) :
    StringLiteral.value lexeme = v := by
  obtain ⟨body, hbody, hv⟩ := Option.bind_eq_some_iff.mp h
  unfold unquoted? at hbody
  split at hbody
  · rename_i inner
    split at hbody
    · rename_i hlast
      cases hbody
      rw [StringLiteral.value, unquoted, if_pos hlast]
      exact unescape_of_unescape? hv
    · cases hbody
  · cases hbody

theorem strictValue?_enclosed {value body : Text} (h : Spells value body) :
    strictValue? (enclosed body) = some value := by
  have hunquoted : unquoted? (enclosed body) = some body := by simp [unquoted?, enclosed]
  rw [strictValue?, hunquoted, Option.bind_some, unescape?_of_spells h]

/-! ## Literals of a line -/

theorem IsCutInto.spells {literal : Text} {ps : List Text} (h : IsCutInto literal ps) :
    List.Forall₂ SpellsChar (StringLiteral.value literal) ps := by
  obtain ⟨value, hvalue⟩ := exists_forall₂_spellsChar h.isPiece
  rw [h.literal_eq, value_enclosed (spells_flatten hvalue)]
  exact hvalue

theorem exists_isCutInto_of_recognize? {input literal rest : Text}
    (h : recognize? input = some (literal, rest)) : ∃ ps, IsCutInto literal ps := by
  obtain ⟨text, body, -, hclose, rfl⟩ := recognize?_eq_some_iff_closes.mp h
  obtain ⟨ps, hps, rfl⟩ := exists_isPiece_of_throughClosingQuote? hclose
  exact ⟨ps, hps, rfl⟩

/-- A string is scanned where a literal is recognized, whatever comes behind it. -/
theorem recognize?_of_reading {comments afterWord : Bool} {token : Token} {rest : Text}
    (h : Reading comments afterWord token rest) (hkind : token.kind = .string) :
    recognize? token.lexeme = some (token.lexeme, []) := by
  cases h with
  | string hclose =>
      rw [recognize?, throughClosingQuote?_body hclose]
  | @word lexeme =>
      have hword := tokenClass_wordToken lexeme
      rw [Token.tokenClass, hkind] at hword
      exact absurd hword (by decide)
  | longer hlonger => cases hlonger <;> cases hkind
  | number | stray | blanks | sign | mark => cases hkind

/-- **String literals are matched exactly.** A literal stands where a quote does and another quote,
no second half of an escape pair, comes behind it; it ends with the first such quote. What stands
between the quotes is cut into plain characters and escape pairs in exactly one way, and the value
has one character for each of them. Strict decoding, which gives no other values, succeeds: both
quotes are in place and no backslash stands without a character behind it. The literals of a line
are lexemes of this kind. -/
theorem recognize?_pieces :
    (∀ input, (∃ literal rest, recognize? input = some (literal, rest)) ↔
      ∃ text, input = '"' :: text ∧ ['"'] ∈ pieces text) ∧
    (∀ input literal rest, recognize? input = some (literal, rest) ↔
      ∃ text before later, input = '"' :: text ∧ pieces text = before ++ ['"'] :: later ∧
        ['"'] ∉ before ∧ literal = enclosed before.flatten ∧ rest = later.flatten) ∧
    (∀ input literal rest, recognize? input = some (literal, rest) →
      (∃! ps, IsCutInto literal ps) ∧
      (∀ ps, IsCutInto literal ps → List.Forall₂ SpellsChar (StringLiteral.value literal) ps) ∧
      strictValue? literal = some (StringLiteral.value literal)) ∧
    (∀ lexeme v, strictValue? lexeme = some v → StringLiteral.value lexeme = v) ∧
    (∀ comments line, ∀ token ∈ scan (Rule.table comments) line, token.kind = .string →
      recognize? token.lexeme = some (token.lexeme, []) ∧
      token.stringValue? = some (StringLiteral.value token.lexeme)) := by
  refine ⟨?_, ?_, ?_, fun _ _ => value_of_strictValue?, ?_⟩
  · intro input
    constructor
    · rintro ⟨literal, rest, h⟩
      obtain ⟨text, body, rfl, hclose, -⟩ := recognize?_eq_some_iff_closes.mp h
      exact ⟨text, rfl, exists_throughClosingQuote?_iff.mp ⟨body, rest, hclose⟩⟩
    · rintro ⟨text, rfl, hquote⟩
      obtain ⟨body, rest, hclose⟩ := exists_throughClosingQuote?_iff.mpr hquote
      exact ⟨_, rest, recognize?_eq_some_iff_closes.mpr ⟨text, body, rfl, hclose, rfl⟩⟩
  · intro input literal rest
    rw [recognize?_eq_some_iff_closes]
    constructor
    · rintro ⟨text, body, hinput, hclose, rfl⟩
      obtain ⟨before, later, hcut, hquote, rfl, hrest⟩ := throughClosingQuote?_eq_some_iff.mp hclose
      exact ⟨text, before, later, hinput, hcut, hquote, rfl, hrest⟩
    · rintro ⟨text, before, later, hinput, hcut, hquote, rfl, hrest⟩
      have hclose := throughClosingQuote?_eq_some_iff.mpr ⟨before, later, hcut, hquote, rfl, hrest⟩
      exact ⟨text, _, hinput, hclose, rfl⟩
  · intro input literal rest h
    obtain ⟨ps, hps⟩ := exists_isCutInto_of_recognize? h
    refine ⟨⟨ps, hps, fun ps' hps' => hps'.unique hps⟩, fun ps' hps' => hps'.spells, ?_⟩
    rw [hps.literal_eq, value_enclosed (spells_flatten hps.spells),
      strictValue?_enclosed (spells_flatten hps.spells)]
  · intro comments line token hmem hkind
    obtain ⟨afterWord, rest, hreads⟩ := (readable_scan _ line).exists_reads hmem
    refine ⟨recognize?_of_reading hreads.reading hkind, ?_⟩
    rw [Token.stringValue?, hkind]

/-- An escaped backslash in front of the closing quote, and a backslash that ends the input. -/
theorem recognize?_pieces_backslashes :
    recognize? ['"', 'a', '\\', '\\', '"', '\\'] = some (['"', 'a', '\\', '\\', '"'], ['\\']) ∧
      strictValue? ['"', 'a', '\\', '\\', '"'] = some ['a', '\\'] := by
  have hliteral : recognize? ['"', 'a', '\\', '\\', '"', '\\']
      = some (['"', 'a', '\\', '\\', '"'], ['\\']) := by
    refine (recognize?_pieces.2.1 _ _ _).mpr ?_
    exact ⟨_, [['a'], ['\\', '\\']], [['\\']], rfl, rfl, by decide, rfl, rfl⟩
  exact ⟨hliteral, (recognize?_pieces.2.2.1 _ _ _ hliteral).2.2⟩

end PseudocodeLexer.StringLiteral
