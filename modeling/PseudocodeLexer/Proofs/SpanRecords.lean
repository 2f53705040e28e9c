import PseudocodeLexer.Proofs.Positions
import PseudocodeLexer.Proofs.PrintedLines
import PseudocodeLexer.Proofs.Scalars

/-!
# Records of spans

The record of a span is an object on one line, as no control is written as itself. What is read back
from it are the name of the input, the two offsets, line and column, and the class, the scope and
the lexeme of the token, whatever characters name, suffix and lexeme have. So a run that prints
records prints one for each token of each input, and each of them says where in the bytes of its
input the lexeme stands (`run_records`).
-/

namespace PseudocodeLexer

open Text

/-! ## Documents on one line -/

namespace Json

/-- No character is a control below U+0020. -/
def HasNoControl (t : Text) : Prop :=
  ∀ c ∈ t, 0x20 ≤ c.toNat

namespace HasNoControl

variable {s t : Text}

theorem append (hs : HasNoControl s) (ht : HasNoControl t) : HasNoControl (s ++ t) := by
  intro c hc
  rcases List.mem_append.mp hc with hc | hc
  · exact hs c hc
  · exact ht c hc

theorem cons {c : Char} (hc : 0x20 ≤ c.toNat) (ht : HasNoControl t) : HasNoControl (c :: t) :=
  append (s := [c]) (by simpa [HasNoControl] using hc) ht

theorem not_mem_lineEnd (ht : HasNoControl t) : '\n' ∉ t ∧ '\r' ∉ t := by
  constructor
  · intro hmem
    exact absurd (ht '\n' hmem) (by decide)
  · intro hmem
    exact absurd (ht '\r' hmem) (by decide)

end HasNoControl

theorem hasNoControl_escapeChar (c : Char) : HasNoControl (escapeChar c) := by
  rcases escapeChar_cases c with ⟨letter, hmem, hform⟩ | ⟨hcontrol, hform⟩ | ⟨-, -, hplain, hform⟩
  · have hletters : ∀ escape ∈ shortEscapes, 0x20 ≤ escape.2.toNat := by decide
    have hletter := hletters _ hmem
    simpa [hform, HasNoControl] using hletter
  · have hdigits : ∀ digit < 16, 0x20 ≤ digit.digitChar.toNat := by decide
    have hhigh := hdigits (c.toNat / 16) (by omega)
    have hlow := hdigits (c.toNat % 16) (by omega)
    simpa [hform, HasNoControl] using ⟨hhigh, hlow⟩
  · simpa [hform, HasNoControl] using hplain

theorem hasNoControl_writeString (t : Text) : HasNoControl (writeString t) := by
  refine .cons (by decide) (.append ?_ (.cons (by decide) ?_))
  · intro x hx
    obtain ⟨c, -, hx⟩ := List.mem_flatMap.mp hx
    exact hasNoControl_escapeChar c x hx
  · simp [HasNoControl]

theorem hasNoControl_decimal (n : Nat) : HasNoControl (decimal n) := by
  intro c hc
  have hdigit := isDigit_of_mem_decimal hc
  simp only [Char.isDigit, Bool.and_eq_true, decide_eq_true_eq] at hdigit
  have hle : '0'.toNat ≤ c.toNat := hdigit.1
  exact Nat.le_trans (by decide) hle

theorem hasNoControl_writeMembers {depth : Nat} {first : Bool} {members : List (Text × Text)}
    (h : ∀ member ∈ members, HasNoControl member.2) :
    HasNoControl (writeMembers .compact depth first members) := by
  induction members generalizing first with
  | nil => simp [writeMembers, Layout.lineBreak, HasNoControl]
  | cons member members ih =>
      obtain ⟨hmember, hmembers⟩ := List.forall_mem_cons.mp h
      have hseparator : HasNoControl (writeSeparator first) := by
        cases first <;> simp [writeSeparator, HasNoControl]
      have hcolon : HasNoControl Layout.compact.colon := by simp [Layout.colon, HasNoControl]
      have hkey := (hasNoControl_writeString member.1).append hcolon
      exact (hseparator.append (hkey.append hmember)).append (ih hmembers)

/-- A compact object has controls neither in its keys nor between its members. -/
theorem hasNoControl_writeObject {depth : Nat} {members : List (Text × Text)}
    (h : ∀ member ∈ members, HasNoControl member.2) :
    HasNoControl (writeObject .compact depth members) := by
  rw [writeObject_eq]
  exact .cons (by decide) (hasNoControl_writeMembers h)

end Json

/-! ## The record of a span -/

namespace CommandLine

open Json

/-- What the record of a span says. -/
def spanRecord (suffix file : Text) (span : Span) : List (Text × Scalar) :=
  [("class".toList, .text span.token.tokenClass.label),
   ("column".toList, .natural span.column),
   ("end".toList, .natural span.stop),
   ("file".toList, .text file),
   ("lexeme".toList, .text span.token.lexeme),
   ("line".toList, .natural span.line),
   ("scope".toList, .text (span.token.scope suffix)),
   ("start".toList, .natural span.start)]

/-- The members of the object that is written on a line. -/
def readRecordLine (line : Text) : Except Failure (List (Text × Scalar)) :=
  scalar.object.readDocument (Symbol.ofText line)

theorem takesBackMembers_spanMembers (suffix file : Text) (span : Span) :
    scalar.TakesBackMembers (spanMembers suffix file span) (spanRecord suffix file span) := by
  simp [Reader.TakesBackMembers, spanMembers, spanRecord, scalar_takesBack_text,
    scalar_takesBack_natural]

theorem readRecordLine_writeSpan (suffix file : Text) (span : Span) :
    readRecordLine (writeSpan suffix file span) = .ok (spanRecord suffix file span) :=
  (Reader.object_takesBack (takesBackMembers_spanMembers suffix file span)).readDocument

theorem hasNoControl_writeSpan (suffix file : Text) (span : Span) :
    HasNoControl (writeSpan suffix file span) := by
  apply hasNoControl_writeObject
  simp only [spanMembers, List.forall_mem_cons, hasNoControl_writeString, hasNoControl_decimal,
    List.not_mem_nil, false_imp_iff, implies_true, and_self]

/-! ## Runs that print records -/

section

variable {arguments : List Text} {files : FileSystem} {stdin : ByteArray} {config : ScanConfig}
  {inputs : List Input}

theorem allPrintedLines_records (hformat : config.format = .json) (inputs : List Input) :
    allPrintedLines config inputs = inputs.flatMap fun input =>
      (tokenize (Rule.table config.recognizeComments) input.content).map
        (writeSpan config.scopeSuffix input.name) := by
  have hunheaded : (decide (1 < inputs.length) && decide (config.format ≠ .json)) = false := by
    simp [hformat]
  rw [allPrintedLines, hunheaded]
  apply List.flatMap_congr
  intro input _
  have hprint : printSpan config input.name = writeSpan config.scopeSuffix input.name := by
    funext span
    rw [printSpan, hformat]
  rw [printedLines, hprint]
  rfl

/-- The bytes of an input are those of the file of its name, or of standard input. -/
theorem bytes_of_sources {paths : List Text} (h : Sources files stdin paths inputs) :
    ∀ input ∈ inputs, files input.name = .content input.content.utf8Encode ∨
      input.name = stdinName ∧ stdin = input.content.utf8Encode := by
  cases h with
  | stdin content hstdin =>
      intro input hmem
      rw [List.mem_singleton] at hmem
      rw [hmem]
      exact .inr ⟨rfl, hstdin⟩
  | files _ hsupplied =>
      clear * - hsupplied
      induction hsupplied with
      | nil => simp
      | @cons path input _ inputs hsupplies _ ih =>
          have hfirst : files input.name = .content input.content.utf8Encode := by
            rw [hsupplies.name_eq]
            exact hsupplies.holds
          exact List.forall_mem_cons.mpr ⟨.inl hfirst, ih⟩

/-- **A record for each token.** A run that prints records prints one line for each token of each
input, in the order of the inputs and of the spans, and ends each by a line feed. What is read back
from the line is the name of the input, the place, the class, the scope and the lexeme of the token,
and nothing else, and the offsets are those of the lexeme in the bytes of the input. -/
theorem run_records (hscans : Scans arguments files stdin config inputs)
    (hformat : config.format = .json) :
    let spans (input : Input) := tokenize (Rule.table config.recognizeComments) input.content
    (run arguments files stdin).code = 0 ∧
    (run arguments files stdin).stdout
      = (lines (run arguments files stdin).stdout).flatMap terminated ∧
    (lines (run arguments files stdin).stdout).map readRecordLine
      = (inputs.flatMap fun input =>
          (spans input).map fun span => .ok (spanRecord config.scopeSuffix input.name span)) ∧
    ∀ input ∈ inputs,
      (files input.name = .content input.content.utf8Encode ∨
        input.name = stdinName ∧ stdin = input.content.utf8Encode) ∧
      ∀ span ∈ spans input,
        input.content.utf8Encode.extract span.start span.stop = span.token.lexeme.utf8Encode := by
  intro spans
  have hunbroken : ∀ line ∈ allPrintedLines config inputs, '\n' ∉ line ∧ '\r' ∉ line := by
    rw [allPrintedLines_records hformat]
    intro line hmem
    obtain ⟨input, -, hmem⟩ := List.mem_flatMap.mp hmem
    obtain ⟨span, -, rfl⟩ := List.mem_map.mp hmem
    exact (hasNoControl_writeSpan _ _ span).not_mem_lineEnd
  have hlines := hscans.lines_stdout hunbroken
  refine ⟨by rw [hscans.run_eq]; rfl, ?_, ?_, ?_⟩
  · rw [hlines, hscans.run_eq]
    rfl
  · rw [hlines, allPrintedLines_records hformat, List.map_flatMap]
    simp only [List.map_map, Function.comp_def, readRecordLine_writeSpan, spans]
  · obtain ⟨invocation, -, -, -, hsources⟩ := hscans
    intro input hmem
    exact ⟨bytes_of_sources hsources input hmem, fun span hspan =>
      (standsIn_tokenize _ _ span hspan).extract_eq⟩

/-- A file whose name has a quote and a line feed, and a lexeme with quotes and a tab on its second
line. -/
theorem run_records_quoted :
    let name := ['a', '"', '\n']
    let files : FileSystem := fun _ => .content ['\n', '"', '\t', '"'].utf8Encode
    (lines (run ["--format=json".toList, name] files ByteArray.empty).stdout).map readRecordLine
      = [.ok [("class".toList, .text "string-literal".toList), ("column".toList, .natural 1),
          ("end".toList, .natural 4), ("file".toList, .text name),
          ("lexeme".toList, .text ['"', '\t', '"']), ("line".toList, .natural 2),
          ("scope".toList, .text "string.quoted.double.pseudocode".toList),
          ("start".toList, .natural 1)]] := by
  intro name files
  have hscans : Scans ["--format=json".toList, name] files ByteArray.empty
      { ScanConfig.default with format := .json } [⟨name, ['\n', '"', '\t', '"']⟩] := by
    refine ⟨⟨[name], none, some .json, false, false, false⟩, rfl, rfl, rfl, ?_⟩
    exact .files (List.cons_ne_nil _ _) (.cons ⟨rfl, rfl⟩ .nil)
  rw [(run_records hscans rfl).2.2.1]
  decide +kernel

end

end CommandLine

end PseudocodeLexer
