import Mathlib.Data.List.Forall2
import PseudocodeLexer.Proofs.LineEnds

/-!
# Mixed line ends

Lines are put together to a text with an end chosen for each of them but the last (`joinLines`). A
carriage return in an end is dropped before its line is scanned, so the spans of the text are those
of the text with line feeds only, each moved by one byte for every carriage return in the ends in
front of it (`tokenize_joinLines_eq`). Two texts with the same lines therefore have the same tokens
on the same lines and columns, whatever the ends of either are (`tokenize_joinLines`).

The induction is over the lines: a line more in front of the others moves their spans by its bytes
and those of its end (`tokenize_lineEnd_append`), and the number of carriage returns in front of
them grows by the one in that end (`returnsBefore_behind_line`).
-/

namespace PseudocodeLexer

open Text

namespace Text

/-! ## Lines and their chosen ends -/

/-- What a line can hold so that it can be told from the end behind it. -/
structure IsContent (line : Text) : Prop where
  unbroken : '\n' ∉ line
  getLast?_ne : line.getLast? ≠ some '\r'

theorem isContent_nil : IsContent [] where
  unbroken := List.not_mem_nil
  getLast?_ne := by simp

/-- The lines one behind the other, each but the last with the end chosen for its index. -/
def joinLines (ends : Nat → LineEnd) : List Text → Text
  | [] => []
  | [line] => line
  | line :: next :: lines =>
      line ++ (ends 0).text ++ joinLines (fun index => ends (index + 1)) (next :: lines)

/-- How many of the ends in front of a line, given its number, hold a carriage return. -/
def returnsBefore (ends : Nat → LineEnd) (number : Nat) : Nat :=
  (List.range (number - 1)).countP fun index => ends index = .returnLineFeed

/-- The first end is in front of every line but the first. -/
theorem returnsBefore_behind_line (ends : Nat → LineEnd) {number : Nat} (h : 0 < number) :
    returnsBefore ends (number + 1) + 1
      = returnsBefore (fun index => ends (index + 1)) number + (ends 0).text.length := by
  obtain ⟨count, rfl⟩ := Nat.exists_eq_succ_of_ne_zero (Nat.ne_of_gt h)
  have hlineFeed : LineEnd.lineFeed.text.length = 1 := rfl
  have hreturnLineFeed : LineEnd.returnLineFeed.text.length = 2 := rfl
  simp only [returnsBefore, Nat.add_sub_cancel, Nat.succ_eq_add_one, List.range_succ_eq_map,
    List.countP_cons, List.countP_map, Function.comp_def]
  cases hend : ends 0 with
  | lineFeed => simp [hlineFeed]
  | returnLineFeed => simp [hreturnLineFeed]

end Text

/-! ## One line in front -/

section

variable {rules : List Rule} {line : Text}

theorem line_eq_one_of_mem_tokenize (h : '\n' ∉ line) {span : Span}
    (hmem : span ∈ tokenize rules line) : span.line = 1 := by
  rw [tokenize_line rules h] at hmem
  exact Span.line_of_mem_ofTokens hmem

/-- A carriage return at the end of a line leaves its spans as they are. -/
theorem tokenize_append_return (h : line.IsContent) :
    tokenize rules (line ++ ['\r']) = tokenize rules line := by
  have hreturn : '\n' ∉ line ++ ['\r'] := by simp [h.unbroken]
  rw [tokenize_line rules hreturn, tokenize_line rules h.unbroken, dropReturn_append_return,
    dropReturn_of_getLast?_ne h.getLast?_ne]

/-- Whatever ends a line moves the spans behind it by its own length, and not those of the line. -/
theorem tokenize_lineEnd_append (h : line.IsContent) (lineEnd : LineEnd) (rest : Text) :
    tokenize rules (line ++ lineEnd.text ++ rest)
      = tokenize rules line
        ++ (tokenize rules rest).map (Span.shift (utf8Length line + lineEnd.text.length) 1) := by
  cases lineEnd with
  | lineFeed =>
      have htext : line ++ LineEnd.lineFeed.text ++ rest = line ++ '\n' :: rest := by
        simp [LineEnd.text]
      rw [htext, tokenize_line_append rules h.unbroken]
      rfl
  | returnLineFeed =>
      have htext : line ++ LineEnd.returnLineFeed.text ++ rest
          = (line ++ ['\r']) ++ '\n' :: rest := by
        simp [LineEnd.text]
      have hreturn : '\n' ∉ line ++ ['\r'] := by simp [h.unbroken]
      have hsize : '\r'.utf8Size = 1 := by decide
      rw [htext, tokenize_line_append rules hreturn, tokenize_append_return h, utf8Length_append,
        utf8Length_cons, utf8Length_nil, hsize]
      rfl

end

/-! ## All lines -/

section

variable {rules : List Rule}

/-- The spans of a single line have no ends in front of them. -/
private theorem map_shift_tokenize_line {line : Text} (h : '\n' ∉ line) (ends : Nat → LineEnd) :
    (tokenize rules line).map (fun span => span.shift (returnsBefore ends span.line) 0)
      = tokenize rules line := by
  conv_rhs => rw [← List.map_id (tokenize rules line)]
  apply List.map_congr_left
  intro span hmem
  rw [line_eq_one_of_mem_tokenize h hmem]
  rfl

/-- The spans of lines with any ends are those of the lines with line feeds between them, moved by
the carriage returns in front of them. -/
theorem tokenize_joinLines_eq {lines : List Text} (h : ∀ line ∈ lines, line.IsContent)
    (ends : Nat → LineEnd) :
    tokenize rules (joinLines ends lines)
      = (tokenize rules (joinLines (fun _ => .lineFeed) lines)).map
          fun span => span.shift (returnsBefore ends span.line) 0 := by
  fun_induction joinLines ends lines with
  | case1 ends => exact (map_shift_tokenize_line isContent_nil.unbroken ends).symm
  | case2 ends line =>
      exact (map_shift_tokenize_line (h line List.mem_cons_self).unbroken ends).symm
  | case3 ends line next lines ih =>
      obtain ⟨hline, hlines⟩ := List.forall_mem_cons.mp h
      rw [joinLines, tokenize_lineEnd_append hline, tokenize_lineEnd_append hline, ih hlines,
        List.map_append, map_shift_tokenize_line hline.unbroken, List.map_map, List.map_map]
      congr 1
      apply List.map_congr_left
      intro span hmem
      have hpos := (standsIn_tokenize _ _ span hmem).line_pos
      have hreturns := returnsBefore_behind_line ends hpos
      have hlineFeed : LineEnd.lineFeed.text.length = 1 := rfl
      simp only [Function.comp_apply, Span.shift_shift]
      congr 1
      show _ = utf8Length line + LineEnd.lineFeed.text.length + returnsBefore ends (span.line + 1)
      omega

end

/-- **The style of the line ends does not show in the tokens.** Two texts with the same lines, each
with line ends of its own choice, have as many spans, with the same tokens on the same lines and
columns, and the offsets of a span differ by as many carriage returns as one text has more than the
other in the line ends in front of it. -/
theorem tokenize_joinLines (rules : List Rule) {lines : List Text}
    (h : ∀ line ∈ lines, '\n' ∉ line ∧ line.getLast? ≠ some '\r') (ends ends' : Nat → LineEnd) :
    List.Forall₂
      (fun span span' =>
        span'.token = span.token ∧ span'.line = span.line ∧ span'.column = span.column ∧
        (span'.start : Int) - span.start
          = returnsBefore ends' span.line - returnsBefore ends span.line ∧
        (span'.stop : Int) - span.stop
          = returnsBefore ends' span.line - returnsBefore ends span.line)
      (tokenize rules (joinLines ends lines)) (tokenize rules (joinLines ends' lines)) := by
  have hcontent : ∀ line ∈ lines, line.IsContent := by
    intro line hmem
    obtain ⟨hunbroken, hlast⟩ := h line hmem
    exact ⟨hunbroken, hlast⟩
  rw [tokenize_joinLines_eq hcontent ends, tokenize_joinLines_eq hcontent ends',
    List.forall₂_map_left_iff, List.forall₂_map_right_iff, List.forall₂_same]
  intro span _
  refine ⟨rfl, rfl, rfl, ?_, ?_⟩
  · simp only [Span.shift, Nat.add_zero]
    omega
  · simp only [Span.shift, Nat.add_zero]
    omega

/-- The first of three lines ends in a carriage return and a line feed in one text, the second does
in the other, so the second line begins one byte later in the former. -/
theorem tokenize_joinLines_crossed :
    let first : Nat → LineEnd := fun index => if index = 0 then .returnLineFeed else .lineFeed
    let second : Nat → LineEnd := fun index => if index = 1 then .returnLineFeed else .lineFeed
    (∀ line ∈ [['é'], ['b'], ['a']], '\n' ∉ line ∧ line.getLast? ≠ some '\r') ∧
    (returnsBefore first 2 = 1 ∧ returnsBefore second 2 = 0) ∧
    List.Forall₂
      (fun span span' => span'.token = span.token ∧ span'.line = span.line ∧
        (span'.start : Int) - span.start
          = returnsBefore second span.line - returnsBefore first span.line)
      (tokenize (Rule.table false) ['é', '\r', '\n', 'b', '\n', 'a'])
      (tokenize (Rule.table false) ['é', '\n', 'b', '\r', '\n', 'a']) := by
  intro first second
  have hlines : ∀ line ∈ [['é'], ['b'], ['a']], '\n' ∉ line ∧ line.getLast? ≠ some '\r' := by decide
  refine ⟨hlines, ⟨rfl, rfl⟩, ?_⟩
  exact (tokenize_joinLines (Rule.table false) hlines first second).imp
    fun span span' ⟨htoken, hline, _, hstart, _⟩ => ⟨htoken, hline, hstart⟩

end PseudocodeLexer
