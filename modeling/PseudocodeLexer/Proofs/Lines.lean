import PseudocodeLexer.Proofs.Reading
import PseudocodeLexer.Token.Span

/-!
# One line after the other

A text is a last line without a line feed, or a first line in front of a line feed and another text
(`Text.lineInduction`). The spans of the first line are those that it has alone, and the spans of
the text behind it are moved by the bytes of the line and its line feed, and by one line
(`tokenize_line_append`). By induction on the lines, a text can be tokenized in two parts wherever a
line feed stands (`tokenize_append_lineFeed`): nothing that the first part leaves open reaches the
second.
-/

namespace PseudocodeLexer

open Text

/-! ## Lines of a text -/

namespace Text

/-- Induction over the lines of a text, the last of which has no line feed behind it. -/
@[elab_as_elim]
theorem lineInduction {motive : Text → Prop} (last : ∀ line, '\n' ∉ line → motive line)
    (append : ∀ line rest, '\n' ∉ line → motive rest → motive (line ++ '\n' :: rest))
    (t : Text) : motive t := by
  by_cases hmem : '\n' ∈ t
  · obtain ⟨line, rest, heq, hline⟩ := List.eq_append_cons_of_mem hmem
    have hlt : rest.length < t.length := by
      rw [heq, List.length_append, List.length_cons]
      omega
    rw [heq]
    exact append line rest hline (lineInduction last append rest)
  · exact last t hmem
termination_by t.length

theorem rawLines_of_not_mem {line : Text} (h : '\n' ∉ line) : rawLines line = [line] := by
  induction line with
  | nil => rfl
  | cons c line ih =>
      rw [List.mem_cons, not_or] at h
      obtain ⟨hc, hline⟩ := h
      rw [rawLines, if_neg (Ne.symm hc), ih hline]

theorem rawLines_line_append {line : Text} (h : '\n' ∉ line) (rest : Text) :
    rawLines (line ++ '\n' :: rest) = line :: rawLines rest := by
  induction line with
  | nil => simp [rawLines]
  | cons c line ih =>
      rw [List.mem_cons, not_or] at h
      obtain ⟨hc, hline⟩ := h
      rw [List.cons_append, rawLines, if_neg (Ne.symm hc), ih hline]

theorem dropReturn_prefix (line : Text) : dropReturn line <+: line := by
  fun_induction dropReturn line with
  | case1 => exact List.prefix_rfl
  | case2 => exact List.nil_prefix
  | case3 c rest _ ih => exact List.cons_prefix_cons.mpr ⟨rfl, ih⟩

theorem utf8Length_line_append (line rest : Text) :
    utf8Length (line ++ '\n' :: rest) = utf8Length rest + (utf8Length line + 1) := by
  have hsize : '\n'.utf8Size = 1 := by decide
  rw [utf8Length_append, utf8Length_cons, hsize]
  omega

theorem count_line_append {line : Text} (h : '\n' ∉ line) (rest : Text) :
    (line ++ '\n' :: rest).count '\n' = rest.count '\n' + 1 := by
  rw [List.count_append, List.count_eq_zero.mpr h, List.count_cons_self, Nat.zero_add]

end Text

/-! ## Spans moved to another place -/

namespace Span

/-- The span at a place that lies some bytes and some lines further on. -/
def shift (bytes lines : Nat) (span : Span) : Span :=
  { span with
    start := span.start + bytes
    stop := span.stop + bytes
    line := span.line + lines }

theorem shift_shift (bytes lines bytes' lines' : Nat) (span : Span) :
    (span.shift bytes lines).shift bytes' lines' = span.shift (bytes + bytes') (lines + lines') := by
  simp only [shift, Nat.add_assoc]

theorem ofTokens_shift (bytes lines line start column : Nat) (tokens : List Token) :
    ofTokens (line + lines) (start + bytes) column tokens
      = (ofTokens line start column tokens).map (shift bytes lines) := by
  induction tokens generalizing start column with
  | nil => rfl
  | cons token tokens ih =>
      rw [ofTokens, ofTokens, List.map_cons, ← ih, Nat.add_right_comm]
      rfl

theorem ofRawLines_shift (rules : List Rule) (bytes lines line offset : Nat) (raws : List Text) :
    ofRawLines rules (line + lines) (offset + bytes) raws
      = (ofRawLines rules line offset raws).map (shift bytes lines) := by
  induction raws generalizing line offset with
  | nil => rfl
  | cons raw raws ih =>
      rw [ofRawLines, ofRawLines, List.map_append, ← ofTokens_shift, ← ih]
      congr 2
      · omega
      · omega

/-- To move past a text and then past a line in front of it is to move past both. -/
theorem shift_shift_line {line : Text} (h : '\n' ∉ line) (rest : Text) (span : Span) :
    (span.shift (utf8Length rest + 1) (rest.count '\n' + 1)).shift (utf8Length line + 1) 1
      = span.shift (utf8Length (line ++ '\n' :: rest) + 1)
          ((line ++ '\n' :: rest).count '\n' + 1) := by
  rw [shift_shift, utf8Length_line_append, count_line_append h, Nat.add_right_comm]

end Span

/-! ## Tokenizing line by line -/

section

variable {line : Text}

/-- The spans of a line that stands alone. -/
theorem tokenize_line (rules : List Rule) (h : '\n' ∉ line) :
    tokenize rules line = Span.ofTokens 1 0 1 (scan rules (dropReturn line)) := by
  rw [tokenize, rawLines_of_not_mem h, Span.ofRawLines, Span.ofRawLines, List.append_nil]

/-- A first line is tokenized as if it stood alone, and the text behind it as if it did, at its
place behind the line. -/
theorem tokenize_line_append (rules : List Rule) (h : '\n' ∉ line) (rest : Text) :
    tokenize rules (line ++ '\n' :: rest)
      = tokenize rules line
        ++ (tokenize rules rest).map (Span.shift (utf8Length line + 1) 1) := by
  rw [tokenize_line rules h, tokenize, tokenize, rawLines_line_append h, Span.ofRawLines,
    ← Span.ofRawLines_shift]
  congr 2

end

/-- **Lines do not reach into each other.** Two texts with a line feed between them have the spans of
the first, and those of the second moved by the bytes and the lines in front of it. -/
theorem tokenize_append_lineFeed (rules : List Rule) (a b : Text) :
    tokenize rules (a ++ '\n' :: b)
      = tokenize rules a
        ++ (tokenize rules b).map (Span.shift (utf8Length a + 1) (a.count '\n' + 1)) := by
  induction a using Text.lineInduction with
  | last line hline =>
      rw [tokenize_line_append rules hline, List.count_eq_zero.mpr hline]
  | append line rest hline ih =>
      rw [List.append_assoc, List.cons_append, tokenize_line_append rules hline, ih,
        tokenize_line_append rules hline, List.map_append, List.map_map, List.append_assoc]
      congr 2
      apply List.map_congr_left
      intro span _
      exact Span.shift_shift_line hline rest span

end PseudocodeLexer
