import PseudocodeLexer.Proofs.NextToken

/-!
# Scanning by byte offsets

The loop of the scanner knows a lexeme by its length in bytes only: it takes the byte length of what
a rule left from that of what the rule was given, and cuts the line there. A cut inside the encoding
of a character cannot be made, and a match of length zero would keep the loop where it is. Neither
ever happens: every rule takes at least one byte (`Rule.utf8Length_lt_of_recognize?`), every cut
falls on a character boundary, and the loop ends with the tokens of `scan` (`finishes_iff`).
-/

namespace PseudocodeLexer

open Text

/-! ## Character boundaries -/

namespace Text

/-- Cuts a text at a byte offset, which must be that of a character boundary. -/
def cutAt? : Text → Nat → Option (Text × Text)
  | t, 0 => some ([], t)
  | [], _ + 1 => none
  | c :: t, n + 1 =>
      if n + 1 < c.utf8Size then none
      else (cutAt? t (n + 1 - c.utf8Size)).map fun (piece, rest) => (c :: piece, rest)

theorem utf8Length_eq_utf8ByteSize (t : Text) :
    utf8Length t = (String.ofList t).utf8ByteSize := by
  induction t with
  | nil => simp
  | cons c t ih =>
      rw [utf8Length_cons, ih, ← List.singleton_append, String.ofList_append,
        String.utf8ByteSize_append, ← String.singleton_eq_ofList, String.utf8ByteSize_singleton]

theorem utf8Length_pos {t : Text} (h : t ≠ []) : 0 < utf8Length t := by
  cases t with
  | nil => exact absurd rfl h
  | cons c t =>
      have := c.utf8Size_pos
      rw [utf8Length_cons]
      omega

theorem cutAt?_append (piece rest : Text) :
    cutAt? (piece ++ rest) (utf8Length piece) = some (piece, rest) := by
  induction piece with
  | nil => simp [cutAt?]
  | cons c piece ih =>
      have hpos := c.utf8Size_pos
      obtain ⟨n, hn⟩ : ∃ n, c.utf8Size + utf8Length piece = n + 1 :=
        ⟨c.utf8Size + utf8Length piece - 1, by omega⟩
      have hfits : ¬ n + 1 < c.utf8Size := by omega
      have hleft : n + 1 - c.utf8Size = utf8Length piece := by omega
      rw [List.cons_append, utf8Length_cons, hn, cutAt?, if_neg hfits, hleft, ih]
      rfl

theorem append_of_cutAt? {t piece rest : Text} {n : Nat} (h : cutAt? t n = some (piece, rest)) :
    piece ++ rest = t ∧ utf8Length piece = n := by
  induction t generalizing n piece with
  | nil =>
      cases n with
      | zero =>
          cases h
          exact ⟨rfl, rfl⟩
      | succ n => simp [cutAt?] at h
  | cons c t ih =>
      cases n with
      | zero =>
          cases h
          exact ⟨rfl, rfl⟩
      | succ n =>
          rw [cutAt?] at h
          split at h
          · simp at h
          · rename_i hfits
            obtain ⟨⟨piece', rest'⟩, hcut, heq⟩ := Option.map_eq_some_iff.mp h
            cases heq
            obtain ⟨happend, hlength⟩ := ih hcut
            refine ⟨by rw [List.cons_append, happend], ?_⟩
            rw [utf8Length_cons, hlength]
            omega

/-- A text can be cut exactly at the character boundaries of its encoding. -/
theorem cutAt?_isSome_iff {t : Text} {n : Nat} :
    (cutAt? t n).isSome = true ↔ String.Pos.Raw.IsValid (String.ofList t) ⟨n⟩ := by
  rw [String.Pos.Raw.isValid_ofList, Option.isSome_iff_exists]
  constructor
  · rintro ⟨⟨piece, rest⟩, hcut⟩
    obtain ⟨rfl, rfl⟩ := append_of_cutAt? hcut
    exact ⟨piece.length, by rw [List.take_left', utf8Length_eq_utf8ByteSize]; rfl⟩
  · rintro ⟨i, hi⟩
    refine ⟨(t.take i, t.drop i), ?_⟩
    have hn : n = utf8Length (t.take i) := by rw [utf8Length_eq_utf8ByteSize]; exact hi
    have hcut := cutAt?_append (t.take i) (t.drop i)
    rwa [List.take_append_drop, ← hn] at hcut

end Text

/-! ## The loop -/

/-- Where the loop stands in a line. -/
structure LoopState where
  tokens : List Token
  /-- The last character of the lexeme cut off last. -/
  previous : Option Char
  remaining : Text

namespace LoopState

def start (line : Text) : LoopState :=
  ⟨[], none, line⟩

/-- Kind and byte length of the next token. A match of length zero is passed over. -/
def nextLength (rules : List Rule) (previous : Option Char) (input : Text) : Kind × Nat :=
  let found := rules.findSome? fun rule =>
    match rule.attempt? (previous.any isWordChar) input with
    | none => none
    | some (kind, _, rest) =>
        if 0 < utf8Length input - utf8Length rest then
          some (kind, utf8Length input - utf8Length rest)
        else none
  found.getD (.text, utf8Length (input.take 1))

/-- Cuts the next lexeme off; there is no next state where the cut cannot be made. -/
def step? (rules : List Rule) (state : LoopState) : Option LoopState :=
  let (kind, length) := nextLength rules state.previous state.remaining
  (cutAt? state.remaining length).map fun (lexeme, rest) =>
    ⟨state.tokens ++ [⟨kind, lexeme⟩], lexeme.getLast?, rest⟩

/-- The loop comes to its end, with these tokens. -/
inductive Finishes (rules : List Rule) : LoopState → List Token → Prop
  | done {tokens : List Token} {previous : Option Char} :
      Finishes rules ⟨tokens, previous, []⟩ tokens
  | step {state next : LoopState} {tokens : List Token} :
      state.remaining ≠ [] → state.step? rules = some next → Finishes rules next tokens →
        Finishes rules state tokens

end LoopState

/-! ## The guard against matches of length zero -/

/-- Every rule takes at least one byte of its input, so the guard never fires. -/
theorem Rule.utf8Length_lt_of_recognize? {rule : Rule} {input : Text} {kind : Kind}
    {lexeme rest : Text} (h : rule.recognize? input = some (kind, lexeme, rest)) :
    utf8Length rest < utf8Length input := by
  have hcut := Rule.recognize?_cut h
  have hpos := utf8Length_pos hcut.ne_nil
  rw [← hcut.append, utf8Length_append]
  omega

/-! ## The cut behind an identifier -/

/-- The byte length of the longest stretch that an identifier could take, less the apostrophes at
its end. -/
def identifierLength (input : Text) : Nat :=
  utf8Length ((input.takeWhile isIdentifierContinue).rdropWhile (· == '\''))

/-- Where there is an identifier, the input can be cut at that length, and the identifier is what
is cut off. -/
theorem cutAt?_identifierLength {input name rest : Text}
    (h : identifier? input = some (name, rest)) :
    cutAt? input (identifierLength input) = some (name, rest) := by
  have hcut := cutAt?_append name rest
  rw [(identifier?_cut h).append] at hcut
  rw [identifierLength, ← identifier?_eq_rdropWhile h]
  exact hcut

/-! ## The loop and the scan -/

namespace LoopState

private theorem findSome?_length (rules : List Rule) (afterWord : Bool) (input : Text) :
    (rules.findSome? fun rule =>
      match rule.attempt? afterWord input with
      | none => none
      | some (kind, _, rest) =>
          if 0 < utf8Length input - utf8Length rest then
            some (kind, utf8Length input - utf8Length rest)
          else none)
      = (firstMatch? rules afterWord input).map fun (kind, lexeme, _) =>
          (kind, utf8Length lexeme) := by
  unfold firstMatch?
  induction rules with
  | nil => rfl
  | cons rule rules ih =>
      rw [List.findSome?_cons, List.findSome?_cons]
      cases hattempt : rule.attempt? afterWord input with
      | none => exact ih
      | some found =>
          obtain ⟨kind, lexeme, rest⟩ := found
          have hcut := Rule.attempt?_cut hattempt
          have hpos := utf8Length_pos hcut.ne_nil
          have hlength : utf8Length input - utf8Length rest = utf8Length lexeme := by
            rw [← hcut.append, utf8Length_append]
            omega
          simp [hlength, hpos]

/-- The length found by the loop is that of the token that the scanner reads. -/
theorem nextLength_of_nextToken? {rules : List Rule} {previous : Option Char} {input : Text}
    {token : Token} {rest : Text}
    (h : nextToken? rules (previous.any isWordChar) input = some (token, rest)) :
    nextLength rules previous input = (token.kind, utf8Length token.lexeme) := by
  cases input with
  | nil => simp [nextToken?] at h
  | cons c input =>
      unfold nextLength
      simp only [findSome?_length]
      simp only [nextToken?] at h
      split at h
      · rename_i hmatch
        cases h
        rw [hmatch]
        rfl
      · rename_i hnone
        cases h
        rw [hnone]
        rfl

/-- One step of the loop never fails on text that is left, and appends the token read there. -/
theorem step?_of_nextToken? {rules : List Rule} {state : LoopState} {token : Token} {rest : Text}
    (h : nextToken? rules (state.previous.any isWordChar) state.remaining = some (token, rest)) :
    state.step? rules
      = some ⟨state.tokens ++ [token], token.lexeme.getLast?, rest⟩ := by
  have hcut := cutAt?_append token.lexeme rest
  rw [(nextToken?_cut h).append] at hcut
  unfold step?
  simp only [nextLength_of_nextToken? h, hcut]
  rfl

theorem finishes_scanFrom (rules : List Rule) (tokens : List Token) (previous : Option Char)
    (input : Text) :
    Finishes rules ⟨tokens, previous, input⟩
      (tokens ++ scanFrom rules (previous.any isWordChar) input) := by
  by_cases hinput : input = []
  · subst input
    rw [scanFrom_nil, List.append_nil]
    exact .done
  · obtain ⟨token, rest, hnext⟩ :=
      exists_nextToken? rules (previous.any isWordChar) hinput
    -- The line left over is shorter, so the loop cannot go on for ever.
    have hlt := (nextToken?_cut hnext).length_lt
    have hstep : step? rules ⟨tokens, previous, input⟩
        = some ⟨tokens ++ [token], token.lexeme.getLast?, rest⟩ := step?_of_nextToken? hnext
    have hrest := finishes_scanFrom rules (tokens ++ [token]) token.lexeme.getLast? rest
    rw [scanFrom_of_nextToken? hnext]
    rw [List.append_assoc] at hrest
    exact .step hinput hstep hrest
termination_by input.length

theorem eq_of_finishes {rules : List Rule} {state : LoopState} {tokens : List Token}
    (h : Finishes rules state tokens) :
    tokens = state.tokens ++ scanFrom rules (state.previous.any isWordChar) state.remaining := by
  induction h with
  | done => rw [scanFrom_nil, List.append_nil]
  | @step state next tokens hremaining hstep _ ih =>
      obtain ⟨token, rest, hnext⟩ :=
        exists_nextToken? rules (state.previous.any isWordChar) hremaining
      rw [step?_of_nextToken? hnext] at hstep
      cases hstep
      rw [ih, scanFrom_of_nextToken? hnext, List.append_assoc]
      rfl

/-- The loop ends on every line, and with the tokens of the scan only. -/
theorem finishes_iff {rules : List Rule} {line : Text} {tokens : List Token} :
    Finishes rules (start line) tokens ↔ tokens = scan rules line := by
  constructor
  · exact eq_of_finishes
  · rintro rfl
    exact finishes_scanFrom rules [] none line

end LoopState

/-- **Scanning loses nothing and always moves on.** The loop ends on every line, with the tokens of
the scan; their lexemes make up the line and are filled; an unclassified lexeme is one character;
every cut falls on a character boundary, the one behind an identifier included; and every rule takes
at least one byte. -/
theorem scan_lossless (comments : Bool) (line : Text) :
    (∀ tokens, LoopState.Finishes (Rule.table comments) (LoopState.start line) tokens ↔
      tokens = scan (Rule.table comments) line) ∧
    covered (scan (Rule.table comments) line) = line ∧
    (∀ token ∈ scan (Rule.table comments) line,
      token.lexeme ≠ [] ∧ (token.kind = .text → token.lexeme.length = 1)) ∧
    (∀ tokens₁ tokens₂, scan (Rule.table comments) line = tokens₁ ++ tokens₂ →
      String.Pos.Raw.IsValid (String.ofList line) ⟨utf8Length (covered tokens₁)⟩) ∧
    (∀ rule ∈ Rule.table comments, ∀ input kind lexeme rest,
      rule.recognize? input = some (kind, lexeme, rest) →
        lexeme ++ rest = input ∧ utf8Length rest < utf8Length input) ∧
    (∀ input name rest, identifier? input = some (name, rest) →
      cutAt? input (identifierLength input) = some (name, rest)) := by
  have hcovered := covered_scan (Rule.table comments) line
  have hreadable := readable_scan (Rule.table comments) line
  refine ⟨fun _ => LoopState.finishes_iff, hcovered, ?_, ?_, ?_, ?_⟩
  · intro token hmem
    refine ⟨hreadable.lexeme_ne_nil hmem, ?_⟩
    intro htext
    obtain ⟨tokens₁, tokens₂, hsplit⟩ := List.append_of_mem hmem
    rw [hsplit] at hreadable
    obtain ⟨c, hc⟩ := hreadable.reads.reading.exists_lexeme_eq htext
    rw [hc]
    rfl
  · intro tokens₁ tokens₂ hsplit
    rw [← cutAt?_isSome_iff]
    -- The cut stands behind whole lexemes.
    have hline : covered tokens₁ ++ covered tokens₂ = line := by
      rw [← covered_append, ← hsplit]
      exact hcovered
    rw [← hline, cutAt?_append]
    rfl
  · intro rule _ input kind lexeme rest hrule
    exact ⟨(Rule.recognize?_cut hrule).append, Rule.utf8Length_lt_of_recognize? hrule⟩
  · intro input name rest hname
    exact cutAt?_identifierLength hname

end PseudocodeLexer
