import PseudocodeLexer.Proofs.Positions

/-!
# Line ends

A line is ended by a line feed, and a carriage return directly in front of it belongs to that end.
Everything else is content, also a carriage return behind which the text stops. Spans keep the
content of every line but this last carriage return: it is dropped as if a line feed came behind it.
So the bytes outside of line ends are covered, each by one span, and the lines are those that the
lexemes make up, exactly if the text does not end in a carriage return (`tokenize_keeps_iff`).

Both laws follow the lines of the text: they pass from a text to one with a line more in front of
it, whatever that line ends in, and on the last line they hold if nothing was dropped from it.
-/

namespace PseudocodeLexer

open Text

/-! ## Lines and their ends -/

namespace Text

inductive LineEnd where
  | lineFeed
  | returnLineFeed
  deriving DecidableEq

def LineEnd.text : LineEnd → Text
  | .lineFeed => ['\n']
  | .returnLineFeed => ['\r', '\n']

/-- The byte at the offset is one of a line end. -/
def InLineEnd (source : Text) (offset : Nat) : Prop :=
  ∃ before behind, ∃ lineEnd : LineEnd, before ++ lineEnd.text ++ behind = source ∧
    utf8Length before ≤ offset ∧ offset < utf8Length (before ++ lineEnd.text)

/-- The content of the lines. Behind the last line end there is a line only if there is text. -/
def lines : Text → List Text
  | [] => []
  | '\n' :: rest => [] :: lines rest
  | '\r' :: '\n' :: rest => [] :: lines rest
  | c :: rest =>
      match lines rest with
      | [] => [[c]]
      | line :: more => (c :: line) :: more

/-! ### Carriage returns at the end -/

theorem dropReturn_append_return (line : Text) : dropReturn (line ++ ['\r']) = line := by
  induction line with
  | nil => rfl
  | cons c line ih =>
      rw [List.cons_append, dropReturn, ih]
      intro _ hnil
      exact absurd hnil (by simp)

theorem dropReturn_of_getLast?_ne {line : Text} (h : line.getLast? ≠ some '\r') :
    dropReturn line = line := by
  fun_induction dropReturn line with
  | case1 => rfl
  | case2 => exact absurd rfl h
  | case3 c rest hreturn ih =>
      cases rest with
      | nil => rfl
      | cons d rest => rw [ih (by rwa [List.getLast?_cons_cons] at h)]

/-- A line ends in a carriage return, which is dropped, or nothing is dropped. -/
theorem eq_dropReturn_append_or (line : Text) :
    (line.getLast? = some '\r' ∧ line = dropReturn line ++ ['\r']) ∨
      (line.getLast? ≠ some '\r' ∧ line = dropReturn line) := by
  by_cases hlast : line.getLast? = some '\r'
  · obtain ⟨content, rfl⟩ := List.getLast?_eq_some_iff.mp hlast
    rw [dropReturn_append_return]
    exact .inl ⟨hlast, rfl⟩
  · rw [dropReturn_of_getLast?_ne hlast]
    exact .inr ⟨hlast, rfl⟩

/-- A carriage return at the end, where there is one, takes one byte. -/
theorem utf8Length_dropReturn (line : Text) :
    utf8Length line
      = utf8Length (dropReturn line) + if line.getLast? = some '\r' then 1 else 0 := by
  rcases eq_dropReturn_append_or line with ⟨hlast, heq⟩ | ⟨hlast, heq⟩
  · have hlength := congrArg utf8Length heq
    have hsize : '\r'.utf8Size = 1 := by decide
    rw [if_pos hlast, hlength, utf8Length_append, utf8Length_cons, utf8Length_nil, hsize]
  · rw [if_neg hlast, ← heq, Nat.add_zero]

theorem getLast?_line_append (line rest : Text) :
    (line ++ '\n' :: rest).getLast? = some '\r' ↔ rest.getLast? = some '\r' := by
  cases rest with
  | nil => simp
  | cons c rest =>
      rw [List.getLast?_append_of_ne_nil _ (List.cons_ne_nil _ _), List.getLast?_cons_cons]

theorem dropReturn_line_append (line rest : Text) :
    dropReturn (line ++ '\n' :: rest) = line ++ '\n' :: dropReturn rest := by
  rcases eq_dropReturn_append_or rest with ⟨-, heq⟩ | ⟨hlast, heq⟩
  · conv_lhs => rw [heq, ← List.cons_append, ← List.append_assoc]
    exact dropReturn_append_return _
  · rw [← heq, dropReturn_of_getLast?_ne ((getLast?_line_append line rest).not.mpr hlast)]

/-! ### Line by line -/

theorem lines_line {line : Text} (h : '\n' ∉ line) (hne : line ≠ []) : lines line = [line] := by
  induction line with
  | nil => exact absurd rfl hne
  | cons c line ih =>
      rw [List.mem_cons, not_or] at h
      obtain ⟨hc, hline⟩ := h
      cases line with
      | nil => rw [lines, lines] <;> simp [Ne.symm hc]
      | cons d line =>
          have hd : d ≠ '\n' := fun hd => hline (hd ▸ List.mem_cons_self)
          rw [lines, ih hline (List.cons_ne_nil d line)] <;> simp [Ne.symm hc, hd]

theorem lines_line_append {line : Text} (h : '\n' ∉ line) (rest : Text) :
    lines (line ++ '\n' :: rest) = dropReturn line :: lines rest := by
  fun_induction dropReturn line with
  | case1 => rfl
  | case2 => rfl
  | case3 c line hreturn ih =>
      rw [List.mem_cons, not_or] at h
      obtain ⟨hc, hline⟩ := h
      rw [List.cons_append, lines, ih hline]
      · simpa using Ne.symm hc
      · -- A carriage return in front of the line feed would have been the last character.
        intro _ hc' heq
        cases line with
        | nil => exact hreturn hc' rfl
        | cons d line =>
            obtain ⟨rfl, -⟩ := List.cons.inj heq
            exact hline List.mem_cons_self

/-- Where a text falls apart at two line feeds, the first of which is the first of the text. -/
theorem append_lineFeed_eq {line before behind rest : Text} (h : '\n' ∉ line)
    (heq : before ++ '\n' :: behind = line ++ '\n' :: rest) :
    before = line ∨ ∃ before', before = line ++ '\n' :: before' ∧
      before' ++ '\n' :: behind = rest := by
  rcases List.append_eq_append_iff.mp heq with ⟨cut, hline, hcut⟩ | ⟨cut, hbefore, hcut⟩
  · cases cut with
    | nil => exact .inl (by rw [hline, List.append_nil])
    | cons c cut =>
        obtain ⟨rfl, -⟩ := List.cons.inj hcut
        exact absurd (hline ▸ List.mem_append_right _ List.mem_cons_self) h
  · cases cut with
    | nil => exact .inl (by rw [hbefore, List.append_nil])
    | cons c cut =>
        obtain ⟨rfl, hrest⟩ := List.cons.inj hcut
        exact .inr ⟨cut, hbefore, hrest.symm⟩

theorem not_inLineEnd_line {line : Text} (h : '\n' ∉ line) (offset : Nat) :
    ¬ InLineEnd line offset := by
  rintro ⟨before, behind, lineEnd, rfl, -⟩
  apply h
  cases lineEnd <;> simp [LineEnd.text]

/-- Each line end is a line feed and what is dropped in front of it. -/
theorem inLineEnd_iff {source : Text} {offset : Nat} :
    InLineEnd source offset ↔
      ∃ before behind, before ++ '\n' :: behind = source ∧
        utf8Length (dropReturn before) ≤ offset ∧ offset ≤ utf8Length before := by
  have hlineFeed : utf8Length LineEnd.lineFeed.text = 1 := by decide
  have hreturnLineFeed : utf8Length LineEnd.returnLineFeed.text = 2 := by decide
  have hreturn : utf8Length ['\r'] = 1 := by decide
  constructor
  · rintro ⟨before, behind, lineEnd, rfl, hle, hlt⟩
    rw [utf8Length_append] at hlt
    cases lineEnd with
    | lineFeed =>
        have hdrop := utf8Length_dropReturn before
        exact ⟨before, behind, by simp [LineEnd.text], by omega, by omega⟩
    | returnLineFeed =>
        refine ⟨before ++ ['\r'], behind, by simp [LineEnd.text], ?_, ?_⟩
        · rwa [dropReturn_append_return]
        · rw [utf8Length_append]
          omega
  · rintro ⟨before, behind, rfl, hle, hlt⟩
    rcases eq_dropReturn_append_or before with ⟨-, heq⟩ | ⟨-, heq⟩
    · refine ⟨dropReturn before, behind, .returnLineFeed, ?_, hle, ?_⟩
      · conv_rhs => rw [heq]
        simp [LineEnd.text]
      · rw [heq, utf8Length_append] at hlt
        rw [utf8Length_append]
        omega
    · refine ⟨before, behind, .lineFeed, by simp [LineEnd.text], ?_, ?_⟩
      · rwa [← heq] at hle
      · rw [utf8Length_append]
        omega

/-- The end of a first line is its line feed and what is dropped in front of it; the other line ends
are those of the text behind. -/
theorem inLineEnd_line_append_iff {line : Text} (h : '\n' ∉ line) (rest : Text) (offset : Nat) :
    InLineEnd (line ++ '\n' :: rest) offset ↔
      (utf8Length (dropReturn line) ≤ offset ∧ offset ≤ utf8Length line) ∨
        (utf8Length line < offset ∧ InLineEnd rest (offset - (utf8Length line + 1))) := by
  rw [inLineEnd_iff, inLineEnd_iff]
  constructor
  · rintro ⟨before, behind, heq, hle, hlt⟩
    rcases append_lineFeed_eq h heq with rfl | ⟨before', rfl, hrest⟩
    · exact .inl ⟨hle, hlt⟩
    · rw [dropReturn_line_append, utf8Length_line_append] at hle
      rw [utf8Length_line_append] at hlt
      exact .inr ⟨by omega, before', behind, hrest, by omega, by omega⟩
  · rintro (⟨hle, hlt⟩ | ⟨hlt, before, behind, rfl, hle, hlt'⟩)
    · exact ⟨line, rest, rfl, hle, hlt⟩
    · refine ⟨line ++ '\n' :: before, behind, by simp, ?_, ?_⟩
      · rw [dropReturn_line_append, utf8Length_line_append]
        omega
      · rw [utf8Length_line_append]
        omega

end Text

/-! ## Bytes in spans -/

namespace Span

/-- Whether the byte at the offset is one of the lexeme. -/
def covers (offset : Nat) (span : Span) : Bool :=
  decide (span.start ≤ offset ∧ offset < span.stop)

theorem covers_iff {offset : Nat} {span : Span} :
    span.covers offset = true ↔ span.start ≤ offset ∧ offset < span.stop :=
  decide_eq_true_iff

theorem covers_shift (offset bytes lines : Nat) (span : Span) :
    (span.shift bytes lines).covers offset
      = (decide (bytes ≤ offset) && span.covers (offset - bytes)) := by
  rw [Bool.eq_iff_iff, Bool.and_eq_true, decide_eq_true_iff, covers_iff, covers_iff]
  simp only [shift]
  omega

/-- The tokens of a line share its bytes among them. -/
theorem countP_covers_ofTokens (offset line start column : Nat) (tokens : List Token) :
    (ofTokens line start column tokens).countP (covers offset)
      = if start ≤ offset ∧ offset < start + utf8Length (covered tokens) then 1 else 0 := by
  induction tokens generalizing start column with
  | nil =>
      rw [covered_nil, utf8Length_nil, if_neg (by omega)]
      rfl
  | cons token tokens ih =>
      rw [ofTokens, List.countP_cons, ih, covered_cons, utf8Length_append]
      simp only [covers_iff]
      -- No byte is one of the first lexeme and of a later one.
      rcases Nat.lt_or_ge offset (start + utf8Length token.lexeme) with hhead | htail
      · rw [if_neg (by omega), Nat.zero_add]
        exact if_congr (by omega) rfl rfl
      · have houtside : ¬ (start ≤ offset ∧ offset < start + utf8Length token.lexeme) := by omega
        rw [if_neg houtside, Nat.add_zero]
        exact if_congr (by omega) rfl rfl

theorem countP_covers_shift (offset bytes lines : Nat) (spans : List Span) :
    (spans.map (shift bytes lines)).countP (covers offset)
      = if bytes ≤ offset then spans.countP (covers (offset - bytes)) else 0 := by
  rw [List.countP_map]
  split
  · rename_i hle
    apply List.countP_congr
    intro span _
    simp [covers_shift, hle]
  · rename_i hle
    rw [List.countP_eq_zero]
    intro span _
    simp [covers_shift, hle]

end Span

/-- Outside of line ends every byte is one of exactly one lexeme. -/
def KeepsBytes (rules : List Rule) (source : Text) : Prop :=
  ∀ offset, offset < utf8Length source → ¬ InLineEnd source offset →
    (tokenize rules source).countP (Span.covers offset) = 1

section

variable {rules : List Rule} {line : Text}

theorem countP_covers_tokenize_line (h : '\n' ∉ line) (offset : Nat) :
    (tokenize rules line).countP (Span.covers offset)
      = if offset < utf8Length (dropReturn line) then 1 else 0 := by
  rw [tokenize_line rules h, Span.countP_covers_ofTokens, covered_scan, Nat.zero_add]
  simp only [Nat.zero_le, true_and]

theorem countP_covers_tokenize_line_append (h : '\n' ∉ line) (rest : Text) (offset : Nat) :
    (tokenize rules (line ++ '\n' :: rest)).countP (Span.covers offset)
      = (if offset < utf8Length (dropReturn line) then 1 else 0)
        + if utf8Length line + 1 ≤ offset then
            (tokenize rules rest).countP (Span.covers (offset - (utf8Length line + 1)))
          else 0 := by
  rw [tokenize_line_append rules h, List.countP_append, countP_covers_tokenize_line h,
    Span.countP_covers_shift]

theorem keepsBytes_line_iff (h : '\n' ∉ line) :
    KeepsBytes rules line ↔ line.getLast? ≠ some '\r' := by
  have hdrop := utf8Length_dropReturn line
  constructor
  · intro hkeeps hlast
    rw [if_pos hlast] at hdrop
    have hreturn := hkeeps (utf8Length (dropReturn line)) (by omega) (not_inLineEnd_line h _)
    rw [countP_covers_tokenize_line h, if_neg (by omega)] at hreturn
    exact absurd hreturn (by decide)
  · intro hlast offset hlt _
    rw [if_neg hlast] at hdrop
    rw [countP_covers_tokenize_line h, if_pos (by omega)]

theorem keepsBytes_line_append_iff (h : '\n' ∉ line) (rest : Text) :
    KeepsBytes rules (line ++ '\n' :: rest) ↔ KeepsBytes rules rest := by
  have hdrop := utf8Length_dropReturn line
  constructor
  · intro hkeeps offset hlt hout
    have hmoved := hkeeps (offset + (utf8Length line + 1)) (by rw [utf8Length_line_append]; omega)
    rw [inLineEnd_line_append_iff h, countP_covers_tokenize_line_append h, Nat.add_sub_cancel,
      if_neg (by omega), if_pos (by omega), Nat.zero_add] at hmoved
    apply hmoved
    rintro (⟨-, hle⟩ | ⟨-, hin⟩)
    · omega
    · exact hout hin
  · intro hkeeps offset hlt hout
    rw [utf8Length_line_append] at hlt
    rw [inLineEnd_line_append_iff h, not_or] at hout
    obtain ⟨houtLine, houtRest⟩ := hout
    rw [countP_covers_tokenize_line_append h]
    by_cases hline : offset < utf8Length (dropReturn line)
    · rw [if_pos hline, if_neg (by omega)]
    · have hbehind : utf8Length line < offset := by omega
      rw [if_neg hline, if_pos (by omega), Nat.zero_add]
      exact hkeeps _ (by omega) fun hin => houtRest ⟨hbehind, hin⟩

end

theorem keepsBytes_iff (rules : List Rule) (source : Text) :
    KeepsBytes rules source ↔ source.getLast? ≠ some '\r' := by
  induction source using Text.lineInduction with
  | last line hline => exact keepsBytes_line_iff hline
  | append line rest hline ih =>
      rw [keepsBytes_line_append_iff hline, ih, ne_eq, ne_eq, getLast?_line_append]

/-! ## Lexemes of a line -/

namespace Span

/-- What the spans with the given line number cover. -/
def onLine (number : Nat) (spans : List Span) : Text :=
  covered ((spans.filter (·.line == number)).map Span.token)

theorem onLine_append (number : Nat) (spans spans' : List Span) :
    onLine number (spans ++ spans') = onLine number spans ++ onLine number spans' := by
  rw [onLine, List.filter_append, List.map_append, covered_append, onLine, onLine]

theorem onLine_eq_nil {number : Nat} {spans : List Span}
    (h : ∀ span ∈ spans, span.line ≠ number) : onLine number spans = [] := by
  have hnone : spans.filter (·.line == number) = [] := by
    rw [List.filter_eq_nil_iff]
    intro span hmem
    simpa using h span hmem
  rw [onLine, hnone]
  rfl

theorem onLine_shift (number bytes : Nat) (spans : List Span) :
    onLine (number + 1) (spans.map (shift bytes 1)) = onLine number spans := by
  rw [onLine, onLine, List.filter_map, List.map_map]
  congr 2
  apply List.filter_congr
  intro span _
  simp [shift]

theorem line_of_mem_ofTokens {line start column : Nat} {tokens : List Token} {span : Span}
    (h : span ∈ ofTokens line start column tokens) : span.line = line := by
  induction tokens generalizing start column with
  | nil => simp [ofTokens] at h
  | cons token tokens ih =>
      rcases List.mem_cons.mp h with rfl | h
      · rfl
      · exact ih h

theorem map_token_ofTokens (line start column : Nat) (tokens : List Token) :
    (ofTokens line start column tokens).map Span.token = tokens := by
  induction tokens generalizing start column with
  | nil => rfl
  | cons token tokens ih => rw [ofTokens, List.map_cons, ih]

theorem onLine_ofTokens (line start column : Nat) (tokens : List Token) :
    onLine line (ofTokens line start column tokens) = covered tokens := by
  have hall : (ofTokens line start column tokens).filter (·.line == line)
      = ofTokens line start column tokens := by
    rw [List.filter_eq_self]
    intro span hmem
    simp [line_of_mem_ofTokens hmem]
  rw [onLine, hall, map_token_ofTokens]

theorem StandsIn.line_pos {source : Text} {span : Span} (h : span.StandsIn source) :
    0 < span.line := by
  obtain ⟨before, behind, -, hspan⟩ := h
  rw [hspan.line_eq, lineAt]
  omega

end Span

/-- Every line is what the lexemes with its number make up. -/
def KeepsLines (rules : List Rule) (source : Text) : Prop :=
  ∀ index line, (lines source)[index]? = some line →
    Span.onLine (index + 1) (tokenize rules source) = line

section

variable {rules : List Rule} {line : Text}

theorem onLine_tokenize_line (h : '\n' ∉ line) :
    Span.onLine 1 (tokenize rules line) = dropReturn line := by
  rw [tokenize_line rules h, Span.onLine_ofTokens, covered_scan]

/-- The lexemes of the first line. -/
theorem onLine_one_tokenize_line_append (h : '\n' ∉ line) (rest : Text) :
    Span.onLine 1 (tokenize rules (line ++ '\n' :: rest)) = dropReturn line := by
  have hrest : Span.onLine 0 (tokenize rules rest) = [] := by
    apply Span.onLine_eq_nil
    intro span hmem
    exact Nat.ne_of_gt (standsIn_tokenize rules rest span hmem).line_pos
  rw [tokenize_line_append rules h, Span.onLine_append, onLine_tokenize_line h,
    Span.onLine_shift, hrest, List.append_nil]

/-- The lexemes of a later line. -/
theorem onLine_tokenize_line_append (h : '\n' ∉ line) (rest : Text) (index : Nat) :
    Span.onLine (index + 2) (tokenize rules (line ++ '\n' :: rest))
      = Span.onLine (index + 1) (tokenize rules rest) := by
  have hline : Span.onLine (index + 2) (tokenize rules line) = [] := by
    rw [tokenize_line rules h]
    apply Span.onLine_eq_nil
    intro span hmem
    rw [Span.line_of_mem_ofTokens hmem]
    omega
  rw [tokenize_line_append rules h, Span.onLine_append, hline, Span.onLine_shift, List.nil_append]

theorem keepsLines_line_iff (h : '\n' ∉ line) :
    KeepsLines rules line ↔ line.getLast? ≠ some '\r' := by
  by_cases hempty : line = []
  · subst line
    simp [KeepsLines, lines]
  · rcases eq_dropReturn_append_or line with ⟨hlast, heq⟩ | ⟨hlast, heq⟩
    · refine iff_of_false ?_ (not_not.mpr hlast)
      intro hkeeps
      have hline := hkeeps 0 line (by rw [lines_line h hempty]; rfl)
      rw [onLine_tokenize_line h] at hline
      exact absurd (hline.trans heq) (by simp)
    · refine iff_of_true ?_ hlast
      intro index line' hget
      rw [lines_line h hempty, List.getElem?_singleton] at hget
      split at hget
      · rename_i hindex
        cases hget
        rw [hindex, onLine_tokenize_line h, ← heq]
      · cases hget

theorem keepsLines_line_append_iff (h : '\n' ∉ line) (rest : Text) :
    KeepsLines rules (line ++ '\n' :: rest) ↔ KeepsLines rules rest := by
  unfold KeepsLines
  rw [lines_line_append h]
  constructor
  · intro hkeeps index line' hget
    rw [← onLine_tokenize_line_append h]
    exact hkeeps (index + 1) line' hget
  · intro hkeeps index line' hget
    cases index with
    | zero =>
        cases hget
        exact onLine_one_tokenize_line_append h rest
    | succ index =>
        rw [onLine_tokenize_line_append h]
        exact hkeeps index line' hget

end

theorem keepsLines_iff (rules : List Rule) (source : Text) :
    KeepsLines rules source ↔ source.getLast? ≠ some '\r' := by
  induction source using Text.lineInduction with
  | last line hline => exact keepsLines_line_iff hline
  | append line rest hline ih =>
      rw [keepsLines_line_append_iff hline, ih, ne_eq, ne_eq, getLast?_line_append]

/-! ## Texts that are kept -/

/-- **Only line ends are left out, unless the text ends in a carriage return.** Such a carriage
return ends no line, but it is dropped like one that does. Of all other texts every byte outside of
the line ends is in exactly one span, and the lexemes with the number of a line make up that
line. -/
theorem tokenize_keeps_iff (rules : List Rule) (source : Text) :
    (KeepsBytes rules source ↔ source.getLast? ≠ some '\r') ∧
      (KeepsLines rules source ↔ source.getLast? ≠ some '\r') :=
  ⟨keepsBytes_iff rules source, keepsLines_iff rules source⟩

/-- No span covers a carriage return behind which the text stops, though it ends no line. -/
theorem not_keeps_last_return :
    ¬ KeepsBytes (Rule.table false) ['a', '\r'] ∧ ¬ KeepsLines (Rule.table false) ['a', '\r'] := by
  constructor
  · intro hkeeps
    have hout : ¬ InLineEnd ['a', '\r'] 1 := not_inLineEnd_line (by decide) 1
    exact absurd (hkeeps 1 (by decide) hout) (by decide +kernel)
  · intro hkeeps
    exact absurd (hkeeps 0 ['a', '\r'] (by decide)) (by decide +kernel)

end PseudocodeLexer
