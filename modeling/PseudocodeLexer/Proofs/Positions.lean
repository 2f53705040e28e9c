import Mathlib.Data.List.DropRight
import PseudocodeLexer.Proofs.ByteOffsets
import PseudocodeLexer.Proofs.Lines

/-!
# Positions of spans

The place of a span follows from the text in front of it: its length in bytes, the line feeds in it
and the characters behind the last of them (`Span.StandsBehind`). Along one line each token moves the
place by its lexeme (`Span.standsIn_ofTokens`); a line in front moves all places behind it
(`Span.StandsIn.behind_line`). So every span of a text stands where it says (`standsIn_tokenize`), and
the spans follow each other without overlap (`pairwise_tokenize`).
-/

namespace PseudocodeLexer

open Text

/-! ## Places in a text -/

namespace Text

/-- The number of the line in which the text ends, from one. -/
def lineAt (before : Text) : Nat :=
  1 + before.count '\n'

/-- The column behind the text, in characters from one. -/
def columnAt (before : Text) : Nat :=
  1 + (before.rtakeWhile (· ≠ '\n')).length

theorem lineAt_append {before piece : Text} (h : '\n' ∉ piece) :
    lineAt (before ++ piece) = lineAt before := by
  rw [lineAt, List.count_append, List.count_eq_zero.mpr h, Nat.add_zero, lineAt]

theorem columnAt_append {before piece : Text} (h : '\n' ∉ piece) :
    columnAt (before ++ piece) = columnAt before + piece.length := by
  induction piece generalizing before with
  | nil => simp
  | cons c piece ih =>
      rw [List.mem_cons, not_or] at h
      obtain ⟨hc, hpiece⟩ := h
      have hstep : columnAt (before ++ [c]) = columnAt before + 1 := by
        rw [columnAt, List.rtakeWhile_concat_pos _ _ _ (by simpa using Ne.symm hc),
          List.length_append, columnAt]
        rfl
      rw [List.append_cons, ih hpiece, hstep, List.length_cons]
      omega

theorem lineAt_behind_line {line : Text} (h : '\n' ∉ line) (before : Text) :
    lineAt (line ++ '\n' :: before) = lineAt before + 1 := by
  rw [lineAt, count_line_append h, lineAt, Nat.add_assoc]

theorem columnAt_behind_line (line before : Text) :
    columnAt (line ++ '\n' :: before) = columnAt before := by
  have hsame : (line ++ '\n' :: before).rtakeWhile (· ≠ '\n')
      = before.rtakeWhile (· ≠ '\n') := by
    induction before using List.reverseRecOn with
    | nil => rw [List.rtakeWhile_concat_neg _ _ _ (by simp), List.rtakeWhile_nil]
    | append_singleton before c ih =>
        rw [← List.cons_append, ← List.append_assoc, List.rtakeWhile_concat,
          List.rtakeWhile_concat, ih]
  rw [columnAt, hsame, columnAt]

/-! ### Bytes -/

theorem size_utf8Encode (t : Text) : t.utf8Encode.size = utf8Length t := by
  rw [utf8Length_eq_utf8ByteSize, ← String.size_toByteArray, String.toByteArray_ofList]

/-- The bytes between two offsets are those of the piece that lies between them. -/
theorem extract_utf8Encode (before piece behind : Text) :
    (before ++ piece ++ behind).utf8Encode.extract (utf8Length before) (utf8Length (before ++ piece))
      = piece.utf8Encode := by
  rw [List.utf8Encode_append, ← size_utf8Encode (before ++ piece),
    ByteArray.extract_append_size_left, List.utf8Encode_append]
  exact ByteArray.extract_append_eq_right (size_utf8Encode before).symm ByteArray.size_append

end Text

namespace Span

/-! ## Where a span stands -/

/-- The span covers a piece of one line and has the place behind the text. -/
structure StandsBehind (before : Text) (span : Span) : Prop where
  lexeme_ne_nil : span.token.lexeme ≠ []
  lexeme_unbroken : '\n' ∉ span.token.lexeme
  start_eq : span.start = utf8Length before
  stop_eq : span.stop = utf8Length (before ++ span.token.lexeme)
  line_eq : span.line = lineAt before
  column_eq : span.column = columnAt before

/-- The lexeme stands in the source at the place that the span gives for it. -/
def StandsIn (source : Text) (span : Span) : Prop :=
  ∃ before behind, before ++ span.token.lexeme ++ behind = source ∧ span.StandsBehind before

namespace StandsIn

variable {source : Text} {span : Span}

theorem start_lt_stop (h : span.StandsIn source) : span.start < span.stop := by
  obtain ⟨before, behind, -, hspan⟩ := h
  have hpos := utf8Length_pos hspan.lexeme_ne_nil
  rw [hspan.start_eq, hspan.stop_eq, utf8Length_append]
  omega

theorem stop_le (h : span.StandsIn source) : span.stop ≤ utf8Length source := by
  obtain ⟨before, behind, rfl, hspan⟩ := h
  rw [hspan.stop_eq, utf8Length_append _ behind]
  omega

/-- The bytes between the two offsets are those of the lexeme. -/
theorem extract_eq (h : span.StandsIn source) :
    source.utf8Encode.extract span.start span.stop = span.token.lexeme.utf8Encode := by
  obtain ⟨before, behind, rfl, hspan⟩ := h
  rw [hspan.start_eq, hspan.stop_eq]
  exact extract_utf8Encode before span.token.lexeme behind

theorem append_right (h : span.StandsIn source) (t : Text) : span.StandsIn (source ++ t) := by
  obtain ⟨before, behind, rfl, hspan⟩ := h
  exact ⟨before, behind ++ t, by simp only [List.append_assoc], hspan⟩

/-- A line put in front of the source moves the span by its bytes and by one line. -/
theorem behind_line {line : Text} (hline : '\n' ∉ line) (h : span.StandsIn source) :
    (span.shift (utf8Length line + 1) 1).StandsIn (line ++ '\n' :: source) := by
  obtain ⟨before, behind, rfl, hspan⟩ := h
  refine ⟨line ++ '\n' :: before, behind, ?_, ?_⟩
  · simp only [shift, List.append_assoc, List.cons_append]
  · exact {
      lexeme_ne_nil := hspan.lexeme_ne_nil
      lexeme_unbroken := hspan.lexeme_unbroken
      start_eq := by rw [utf8Length_line_append, ← hspan.start_eq, shift]
      stop_eq := by
        rw [List.append_assoc, List.cons_append, utf8Length_line_append]
        simp only [shift, hspan.stop_eq]
      line_eq := by rw [lineAt_behind_line hline, ← hspan.line_eq, shift]
      column_eq := by rw [columnAt_behind_line, ← hspan.column_eq, shift] }

end StandsIn

/-! ## Along one line -/

theorem standsIn_ofTokens {source : Text} (before behind : Text) {tokens : List Token}
    (htokens : ∀ token ∈ tokens, token.lexeme ≠ [] ∧ '\n' ∉ token.lexeme)
    (hsource : before ++ covered tokens ++ behind = source) :
    ∀ span ∈ ofTokens (lineAt before) (utf8Length before) (columnAt before) tokens,
      span.StandsIn source := by
  induction tokens generalizing before with
  | nil => simp [ofTokens]
  | cons token tokens ih =>
      obtain ⟨hne, hunbroken⟩ := htokens token List.mem_cons_self
      rw [covered_cons, ← List.append_assoc] at hsource
      -- The next place is behind the lexeme, on the same line.
      have hrest := ih (before ++ token.lexeme)
        (fun token' hmem => htokens token' (List.mem_cons_of_mem _ hmem)) hsource
      rw [lineAt_append hunbroken, columnAt_append hunbroken, utf8Length_append] at hrest
      intro span hmem
      rcases List.mem_cons.mp hmem with rfl | hmem
      · refine ⟨before, covered tokens ++ behind, ?_, ⟨hne, hunbroken, rfl, ?_, rfl, rfl⟩⟩
        · rw [← List.append_assoc, hsource]
        · exact (utf8Length_append before token.lexeme).symm
      · exact hrest span hmem

theorem le_start_of_mem_ofTokens {line start column : Nat} {tokens : List Token} {span : Span}
    (h : span ∈ ofTokens line start column tokens) : start ≤ span.start := by
  induction tokens generalizing start column with
  | nil => simp [ofTokens] at h
  | cons token tokens ih =>
      rcases List.mem_cons.mp h with rfl | h
      · exact Nat.le_refl start
      · exact Nat.le_trans (Nat.le_add_right _ _) (ih h)

theorem pairwise_ofTokens (line start column : Nat) (tokens : List Token) :
    (ofTokens line start column tokens).Pairwise fun span next => span.stop ≤ next.start := by
  induction tokens generalizing start column with
  | nil => exact .nil
  | cons token tokens ih =>
      refine .cons ?_ (ih _ _)
      intro next hmem
      exact le_start_of_mem_ofTokens hmem

end Span

/-! ## Over all lines -/

section

variable {rules : List Rule}

private theorem standsIn_tokenize_line {line : Text} (hline : '\n' ∉ line) :
    ∀ span ∈ tokenize rules line, span.StandsIn line := by
  obtain ⟨cut, hcut⟩ := dropReturn_prefix line
  have hcovered := covered_scan rules (dropReturn line)
  rw [tokenize_line rules hline]
  refine Span.standsIn_ofTokens [] cut ?_ ?_
  · intro token hmem
    refine ⟨(readable_scan rules (dropReturn line)).lexeme_ne_nil hmem, ?_⟩
    intro hlf
    apply hline
    rw [← hcut, ← hcovered]
    exact List.mem_append_left _ (List.mem_flatMap.mpr ⟨token, hmem, hlf⟩)
  · rw [List.nil_append, hcovered, hcut]

/-- Every span stands where it says. -/
theorem standsIn_tokenize (rules : List Rule) (source : Text) :
    ∀ span ∈ tokenize rules source, span.StandsIn source := by
  induction source using Text.lineInduction with
  | last line hline => exact standsIn_tokenize_line hline
  | append line rest hline ih =>
      rw [tokenize_line_append rules hline]
      intro span hmem
      rcases List.mem_append.mp hmem with hmem | hmem
      · exact (standsIn_tokenize_line hline span hmem).append_right _
      · obtain ⟨unmoved, hunmoved, rfl⟩ := List.mem_map.mp hmem
        exact (ih unmoved hunmoved).behind_line hline

private theorem pairwise_tokenize_line {line : Text} (hline : '\n' ∉ line) :
    (tokenize rules line).Pairwise fun span next => span.stop ≤ next.start := by
  rw [tokenize_line rules hline]
  exact Span.pairwise_ofTokens _ _ _ _

/-- No span begins before all earlier ones have ended. -/
theorem pairwise_tokenize (rules : List Rule) (source : Text) :
    (tokenize rules source).Pairwise fun span next => span.stop ≤ next.start := by
  induction source using Text.lineInduction with
  | last line hline => exact pairwise_tokenize_line hline
  | append line rest hline ih =>
      rw [tokenize_line_append rules hline, List.pairwise_append, List.pairwise_map]
      refine ⟨pairwise_tokenize_line hline, ih.imp ?_, ?_⟩
      · intro span next hle
        exact Nat.add_le_add_right hle _
      · intro span hmem next hnext
        obtain ⟨next, -, rfl⟩ := List.mem_map.mp hnext
        have hstop := (standsIn_tokenize_line hline span hmem).stop_le
        show span.stop ≤ next.start + (utf8Length line + 1)
        omega

end

/-- **Positions are right.** Every span covers a filled piece of one line of the source, exactly the
bytes between its offsets; its line and column are those behind the text in front of it; and the
spans come one behind the other. -/
theorem tokenize_positions (rules : List Rule) (source : Text) :
    (∀ span ∈ tokenize rules source, ∃ before behind,
      before ++ span.token.lexeme ++ behind = source ∧
      span.token.lexeme ≠ [] ∧ '\n' ∉ span.token.lexeme ∧
      span.start = utf8Length before ∧ span.stop = utf8Length (before ++ span.token.lexeme) ∧
      source.utf8Encode.extract span.start span.stop = span.token.lexeme.utf8Encode ∧
      span.line = 1 + before.count '\n' ∧
      span.column = 1 + (before.rtakeWhile (· ≠ '\n')).length) ∧
    (tokenize rules source).Pairwise fun span next =>
      span.start < next.start ∧ span.stop ≤ next.start := by
  have hstands := standsIn_tokenize rules source
  constructor
  · intro span hmem
    have hbytes := (hstands span hmem).extract_eq
    obtain ⟨before, behind, hsource, hspan⟩ := hstands span hmem
    exact ⟨before, behind, hsource, hspan.lexeme_ne_nil, hspan.lexeme_unbroken, hspan.start_eq,
      hspan.stop_eq, hbytes, hspan.line_eq, hspan.column_eq⟩
  · refine (pairwise_tokenize rules source).imp_of_mem ?_
    intro span next hmem _ hle
    exact ⟨Nat.lt_of_lt_of_le (hstands span hmem).start_lt_stop hle, hle⟩

/-- A carriage return in front of a line feed counts in the offsets behind it. -/
example : tokenize (Rule.table false) "é\r\n é".toList
    = [⟨⟨.identifier, ['é']⟩, 0, 2, 1, 1⟩, ⟨⟨.whitespace, [' ']⟩, 4, 5, 2, 1⟩,
       ⟨⟨.identifier, ['é']⟩, 5, 7, 2, 2⟩] := by
  decide +kernel

end PseudocodeLexer
