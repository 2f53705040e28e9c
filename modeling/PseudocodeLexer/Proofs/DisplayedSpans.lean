import PseudocodeLexer.Proofs.PrintedLines
import PseudocodeLexer.Proofs.QuotedText

/-!
# Spans on lines of text

A span is displayed on one line, in three columns with a tab behind the first and the second. What
stands in the columns holds no tab of its own, and each of them is read back: the place up to its
colon, the class by its label, the lexeme out of its quotes (`Span.readRow?_display`). So the
display of a span says its line, column, class and lexeme and no more (`Span.display_eq_iff`), and
the output of a run on one text says the same of all its tokens, with one line for each
(`run_displays`).
-/

namespace PseudocodeLexer

open Text

/-! ## Columns -/

namespace Text

/-- The text in front of the first separator, and the text behind it. -/
def splitOnce? (separator : Char) (t : Text) : Option (Text × Text) :=
  match t.dropWhile (· ≠ separator) with
  | [] => none
  | _ :: rest => some (t.takeWhile (· ≠ separator), rest)

/-- A separator is found again in front of which there is none. -/
theorem splitOnce?_append {separator : Char} {s : Text} (hs : separator ∉ s) (rest : Text) :
    splitOnce? separator (s ++ separator :: rest) = some (s, rest) := by
  have hother : ∀ c ∈ s, decide (c ≠ separator) = true := by
    intro c hmem
    simpa using ne_of_mem_of_not_mem hmem hs
  rw [splitOnce?, List.dropWhile_append_of_pos hother, List.takeWhile_append_of_pos hother]
  simp

theorem not_mem_decimal {n : Nat} {c : Char} (h : c.isDigit = false) : c ∉ decimal n := by
  intro hmem
  rw [isDigit_of_mem_decimal hmem] at h
  cases h

end Text

namespace TokenClass

theorem ofLabel?_label (tokenClass : TokenClass) :
    ofLabel? tokenClass.label = some tokenClass := by
  cases tokenClass <;> decide

theorem not_mem_label {tokenClass : TokenClass} {c : Char} (h : isSeparator c = true) :
    c ∉ tokenClass.label := by
  have hlabel : (tokenClass.label.all fun x => !isSeparator x) = true := by
    cases tokenClass <;> rfl
  intro hmem
  have hc := List.all_eq_true.mp hlabel c hmem
  rw [h] at hc
  cases hc

end TokenClass

/-! ## Displays -/

namespace Span

/-- What the display of a span says: line, column, class and lexeme. -/
def row (span : Span) : Nat × Nat × TokenClass × Text :=
  (span.line, span.column, span.token.tokenClass, span.token.lexeme)

/-- The first column. -/
def displayedPlace (span : Span) : Text :=
  decimal span.line ++ ':' :: decimal span.column

theorem display_eq (span : Span) :
    span.display = span.displayedPlace
      ++ '\t' :: (span.token.tokenClass.label ++ '\t' :: quoted span.token.lexeme) := by
  simp [display, displayedPlace]

theorem not_mem_displayedPlace {span : Span} {c : Char} (h : isSeparator c = true) :
    c ∉ span.displayedPlace := by
  have hdigit : c.isDigit = false ∧ c ≠ ':' := by
    simp only [isSeparator, Bool.or_eq_true, decide_eq_true_eq] at h
    rcases h with (rfl | rfl) | rfl <;> decide
  simp [displayedPlace, not_mem_decimal hdigit.1, hdigit.2]

/-- A display stays on its line. -/
theorem not_mem_display {span : Span} : '\n' ∉ span.display ∧ '\r' ∉ span.display := by
  have hnone : ∀ c, isSeparator c = true → c ≠ '\t' → c ∉ span.display := by
    intro c hc htab
    simp [display_eq, not_mem_displayedPlace hc, TokenClass.not_mem_label hc, not_mem_quoted hc,
      htab]
  exact ⟨hnone '\n' rfl (by decide), hnone '\r' rfl (by decide)⟩

theorem count_tab_display (span : Span) : span.display.count '\t' = 2 := by
  have htab : isSeparator '\t' = true := rfl
  rw [display_eq, List.count_append, List.count_cons_self, List.count_append,
    List.count_cons_self, List.count_eq_zero.mpr (not_mem_displayedPlace htab),
    List.count_eq_zero.mpr (TokenClass.not_mem_label htab),
    List.count_eq_zero.mpr (not_mem_quoted htab)]

/-- The row that is written on a line in three columns. -/
def readRow? (line : Text) : Option (Nat × Nat × TokenClass × Text) := do
  let (place, behind) ← splitOnce? '\t' line
  let (lineNumber, column) ← splitOnce? ':' place
  let (label, lexeme) ← splitOnce? '\t' behind
  return (← readDecimal? lineNumber, ← readDecimal? column, ← TokenClass.ofLabel? label,
    ← unquote? lexeme)

theorem readRow?_display (span : Span) : readRow? span.display = some span.row := by
  have htab : isSeparator '\t' = true := rfl
  have hcolon : Char.isDigit ':' = false := by decide
  have hcolumns : splitOnce? '\t' span.display
      = some (span.displayedPlace,
          span.token.tokenClass.label ++ '\t' :: quoted span.token.lexeme) := by
    rw [display_eq]
    exact splitOnce?_append (not_mem_displayedPlace htab) _
  have hplace : splitOnce? ':' span.displayedPlace = some (decimal span.line, decimal span.column) :=
    splitOnce?_append (not_mem_decimal hcolon) _
  have hlabel : splitOnce? '\t' (span.token.tokenClass.label ++ '\t' :: quoted span.token.lexeme)
      = some (span.token.tokenClass.label, quoted span.token.lexeme) :=
    splitOnce?_append (TokenClass.not_mem_label htab) _
  simp [readRow?, hcolumns, hplace, hlabel, readDecimal?_decimal, TokenClass.ofLabel?_label,
    unquote?_quoted, row]

/-- Spans with the same display have the same line, column, class and lexeme. -/
theorem display_eq_iff {span span' : Span} :
    span.display = span'.display ↔ span.row = span'.row := by
  constructor
  · intro h
    have hrows := congrArg readRow? h
    rwa [readRow?_display, readRow?_display, Option.some.injEq] at hrows
  · intro h
    simp only [row, Prod.mk.injEq] at h
    obtain ⟨hline, hcolumn, hclass, hlexeme⟩ := h
    rw [display, display, hline, hcolumn, hclass, hlexeme]

theorem map_display_eq_iff {spans spans' : List Span} :
    spans.map display = spans'.map display ↔ spans.map row = spans'.map row := by
  induction spans generalizing spans' with
  | nil => cases spans' <;> simp
  | cons span spans ih =>
      cases spans' with
      | nil => simp
      | cons span' spans' => simp only [List.map_cons, List.cons.injEq, display_eq_iff, ih]

end Span

/-! ## Runs on one text -/

namespace CommandLine

section

variable {arguments : List Text} {files : FileSystem} {stdin : ByteArray} {config : ScanConfig}
  {input : Input}

theorem allPrintedLines_display (h : config.format = .tsv) (input : Input) :
    allPrintedLines config [input]
      = (tokenize (Rule.table config.recognizeComments) input.content).map Span.display := by
  have hprint : printSpan config input.name = Span.display := by
    funext span
    rw [printSpan, h]
  simp [allPrintedLines, printedLines, hprint]

/-- The lines that a run on one text prints are the displays of its spans. -/
theorem lines_stdout_display (hscans : Scans arguments files stdin config [input])
    (hformat : config.format = .tsv) :
    lines (run arguments files stdin).stdout
      = (tokenize (Rule.table config.recognizeComments) input.content).map Span.display := by
  rw [hscans.lines_stdout, allPrintedLines_display hformat]
  rw [allPrintedLines_display hformat]
  intro line hmem
  obtain ⟨span, -, rfl⟩ := List.mem_map.mp hmem
  exact Span.not_mem_display

theorem stdout_display (hscans : Scans arguments files stdin config [input])
    (hformat : config.format = .tsv) :
    (run arguments files stdin).stdout
      = ((tokenize (Rule.table config.recognizeComments) input.content).map Span.display).flatMap
          terminated := by
  rw [hscans.run_eq, allPrintedLines_display hformat]
  rfl

end

/-- **Displays can be read back.** The display of a span stays on its line, has three columns, and
says line, column, class and lexeme of the span and no more. A run that displays the tokens of one
text prints one line for each of them and ends each by a line feed, and two such runs print the same
if and only if these are the same for all their tokens. -/
theorem run_displays :
    (∀ span : Span,
      '\n' ∉ span.display ∧ '\r' ∉ span.display ∧ span.display.count '\t' = 2) ∧
    (∀ span span' : Span, span.display = span'.display ↔ span.row = span'.row) ∧
    ∀ arguments files stdin config input, Scans arguments files stdin config [input] →
      config.format = .tsv →
      let spans := tokenize (Rule.table config.recognizeComments) input.content
      (run arguments files stdin).code = 0 ∧
      (run arguments files stdin).stdout = (spans.map Span.display).flatMap terminated ∧
      lines (run arguments files stdin).stdout = spans.map Span.display ∧
      ∀ arguments' files' stdin' config' input', Scans arguments' files' stdin' config' [input'] →
        config'.format = .tsv →
        let spans' := tokenize (Rule.table config'.recognizeComments) input'.content
        ((run arguments files stdin).stdout = (run arguments' files' stdin').stdout ↔
          spans.map Span.row = spans'.map Span.row) := by
  refine ⟨?_, fun span span' => Span.display_eq_iff, ?_⟩
  · intro span
    obtain ⟨hlineFeed, hreturn⟩ := span.not_mem_display
    exact ⟨hlineFeed, hreturn, span.count_tab_display⟩
  · intro arguments files stdin config input hscans hformat spans
    have hlines := lines_stdout_display hscans hformat
    refine ⟨by rw [hscans.run_eq]; rfl, stdout_display hscans hformat, hlines, ?_⟩
    intro arguments' files' stdin' config' input' hscans' hformat' spans'
    rw [← Span.map_display_eq_iff]
    constructor
    · intro hstdout
      rw [← hlines, ← lines_stdout_display hscans' hformat', hstdout]
    · intro hdisplays
      rw [stdout_display hscans hformat, stdout_display hscans' hformat', hdisplays]

/-- Two lexemes with the same look but for their escapes: a tab, and a backslash in front of `t`. -/
theorem run_displays_tab :
    let files : FileSystem := fun _ => .missing
    (run [] files ['"', '\t', '"'].utf8Encode).stdout
      ≠ (run [] files ['"', '\\', 't', '"'].utf8Encode).stdout := by
  intro files hstdout
  have hscans : ∀ content : Text,
      Scans [] files content.utf8Encode .default [⟨stdinName, content⟩] :=
    fun content => ⟨.empty, rfl, rfl, rfl, .stdin content rfl⟩
  obtain ⟨-, -, -, hsame⟩ := run_displays.2.2 _ _ _ _ _ (hscans ['"', '\t', '"']) rfl
  have hrows := (hsame _ _ _ _ _ (hscans ['"', '\\', 't', '"']) rfl).mp hstdout
  exact absurd hrows (by decide +kernel)

end CommandLine

end PseudocodeLexer
