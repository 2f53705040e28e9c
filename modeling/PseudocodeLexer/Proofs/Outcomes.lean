import PseudocodeLexer.Proofs.DisplayedSpans
import PseudocodeLexer.Proofs.SpanRecords

/-!
# What a run prints

What a run prints is described by what is found in it. The line of a token is the display of its
span, from which the row is read back, or an object from which its record is read back, or the scope
of the token (`Shows`). The text of an input has one such line for each of its tokens in their
order, and the texts of the inputs stand one behind the other, under their names where several
inputs could not be told apart else (`ShowsAll`). Unless the lines are records this determines what
is printed (`showsAll_iff`). So a run that fails prints nothing and reports the first fault, and a
run that does not fail shows all tokens of all its sources (`run_outcome`).
-/

namespace PseudocodeLexer.CommandLine

open Text

/-! ## Shown tokens -/

/-- What is found on the line of a token, in the format that is asked for. -/
def Shows (config : ScanConfig) (name : Text) (span : Span) (line : Text) : Prop :=
  match config.format with
  | .tsv => '\n' ∉ line ∧ line = span.display ∧ Span.readRow? line = some span.row
  | .json => '\n' ∉ line ∧ readRecordLine line = .ok (spanRecord config.scopeSuffix name span)
  | .scopes => line = span.token.scope config.scopeSuffix

/-- What stands above the lines of an input: its name on a line, if there are several inputs and
the lines themselves do not name them. -/
def heading (config : ScanConfig) (count : Nat) (name : Text) : Text :=
  if 1 < count ∧ config.format ≠ .json then "==> ".toList ++ name ++ " <==".toList ++ ['\n'] else []

/-- The text has the heading and a line for each token of the input. -/
def ShowsInput (config : ScanConfig) (count : Nat) (input : Input) (t : Text) : Prop :=
  ∃ lines, t = heading config count input.name ++ lines.flatMap (fun line => line ++ ['\n']) ∧
    List.Forall₂ (Shows config input.name)
      (tokenize (Rule.table config.recognizeComments) input.content) lines

/-- The text shows the tokens of all inputs, one input behind the other. -/
def ShowsAll (config : ScanConfig) (inputs : List Input) (t : Text) : Prop :=
  ∃ parts, t = parts.flatten ∧
    List.Forall₂ (ShowsInput config inputs.length) inputs parts

theorem shows_printSpan (config : ScanConfig) (name : Text) (span : Span) :
    Shows config name span (printSpan config name span) := by
  unfold Shows printSpan
  cases config.format with
  | tsv => exact ⟨span.not_mem_display.1, rfl, span.readRow?_display⟩
  | json =>
      exact ⟨(hasNoControl_writeSpan _ _ span).not_mem_lineEnd.1, readRecordLine_writeSpan _ _ span⟩
  | scopes => rfl

theorem printInput_eq_heading_append (config : ScanConfig) (count : Nat) (input : Input) :
    printInput config (1 < count && config.format ≠ .json) input
      = heading config count input.name
        ++ ((tokenize (Rule.table config.recognizeComments) input.content).map
              (printSpan config input.name)).flatMap fun line => line ++ ['\n'] := by
  have hheading : heading config count input.name
      = if 1 < count && config.format ≠ .json then terminated (header input.name) else [] :=
    if_congr (by simp) rfl rfl
  rw [printInput, hheading, List.flatMap_map]
  rfl

theorem showsInput_printInput (config : ScanConfig) (count : Nat) (input : Input) :
    ShowsInput config count input
      (printInput config (1 < count && config.format ≠ .json) input) := by
  refine ⟨_, printInput_eq_heading_append config count input, ?_⟩
  rw [List.forall₂_map_right_iff, List.forall₂_same]
  exact fun span _ => shows_printSpan config input.name span

theorem showsAll_printInputs (config : ScanConfig) (inputs : List Input) :
    ShowsAll config inputs (printInputs config inputs) := by
  refine ⟨_, List.flatMap_def, ?_⟩
  rw [List.forall₂_map_right_iff, List.forall₂_same]
  exact fun input _ => showsInput_printInput config inputs.length input

/-! ## Texts without records -/

section

variable {config : ScanConfig}

/-- A display or a scope is the whole line. -/
theorem Shows.eq_printSpan {name line : Text} {span : Span} (h : config.format ≠ .json)
    (hshows : Shows config name span line) : line = printSpan config name span := by
  unfold Shows at hshows
  unfold printSpan
  cases hformat : config.format with
  | json => exact absurd hformat h
  | tsv =>
      rw [hformat] at hshows
      exact hshows.2.1
  | scopes =>
      rw [hformat] at hshows
      exact hshows

theorem ShowsInput.eq_printInput {count : Nat} {input : Input} {t : Text}
    (h : config.format ≠ .json) (hshows : ShowsInput config count input t) :
    t = printInput config (1 < count && config.format ≠ .json) input := by
  obtain ⟨lines, rfl, hlines⟩ := hshows
  have hprinted : lines = (tokenize (Rule.table config.recognizeComments) input.content).map
      (printSpan config input.name) := by
    rw [← List.forall₂_eq_eq_eq, List.forall₂_map_right_iff]
    exact hlines.flip.imp fun _ _ hline => Shows.eq_printSpan h hline
  rw [hprinted, printInput_eq_heading_append]

/-- Only records leave open how they are written. -/
theorem showsAll_iff {inputs : List Input} {t : Text} (h : config.format ≠ .json) :
    ShowsAll config inputs t ↔ t = printInputs config inputs := by
  constructor
  · rintro ⟨parts, rfl, hparts⟩
    have hprinted : parts
        = inputs.map (printInput config (1 < inputs.length && config.format ≠ .json)) := by
      rw [← List.forall₂_eq_eq_eq, List.forall₂_map_right_iff]
      exact hparts.flip.imp fun _ _ hpart => ShowsInput.eq_printInput h hpart
    rw [hprinted, ← List.flatMap_def]
    rfl
  · rintro rfl
    exact showsAll_printInputs config inputs

end

/-! ## Outcomes -/

/-- **A run that fails prints nothing.** Asking for the metadata gives the same outcome whatever
else is asked for and whatever could be read. Otherwise a run fails exactly if its configuration,
one of its files or its standard input is faulty; it prints nothing then and reports the first
fault, of which there is only one. A run that does not fail shows all tokens of all sources and
reports nothing. -/
theorem run_outcome {arguments : List Text} {invocation : Invocation}
    (haccepted : CommandLine.invocation arguments = .ok invocation) (files : FileSystem)
    (stdin : ByteArray) :
    (invocation.metadata = true →
      (run arguments files stdin).code = 0 ∧
      ∀ arguments' invocation' files' stdin',
        CommandLine.invocation arguments' = .ok invocation' → invocation'.metadata = true →
        run arguments' files' stdin' = run arguments files stdin) ∧
    (invocation.metadata = false →
      ((run arguments files stdin).code = 1 ↔
        (∃ fault, invocation.Misconfigured files fault) ∨
        (∃ path ∈ invocation.files, ∃ reason, (files path).Unreadable reason) ∨
        (invocation.files = [] ∧ ¬ stdin.IsValidUTF8)) ∧
      ((run arguments files stdin).code = 1 →
        (run arguments files stdin).stdout = [] ∧
        ∃ message, (run arguments files stdin).report? = some ("Error: ".toList ++ message) ∧
          ∀ message', invocation.Reports files stdin message' ↔ message' = message) ∧
      ((run arguments files stdin).code ≠ 1 →
        (run arguments files stdin).code = 0 ∧
        (run arguments files stdin).report? = none ∧
        ∃ loaded inputs, invocation.Loads files loaded ∧
          Sources files stdin invocation.files inputs ∧
          ShowsAll (invocation.override loaded) inputs (run arguments files stdin).stdout)) := by
  rw [run_eq_of_invocation haccepted]
  constructor
  · intro hmetadata
    rw [Invocation.run_of_metadata hmetadata]
    refine ⟨rfl, ?_⟩
    intro arguments' invocation' files' stdin' haccepted' hmetadata'
    rw [run_eq_of_invocation haccepted', Invocation.run_of_metadata hmetadata']
  · intro hmetadata
    rw [← Invocation.exists_printTokens_eq_error_iff]
    rcases Invocation.run_cases hmetadata files stdin with
      ⟨stdout, hprinted, hrun⟩ | ⟨fault, hprinted, hrun⟩
    · rw [hrun, hprinted]
      refine ⟨by simp [Outcome.success], by simp [Outcome.success], ?_⟩
      intro _
      obtain ⟨loaded, inputs, hloaded, hinputs, rfl⟩ :=
        Invocation.printTokens_eq_ok_iff.mp hprinted
      exact ⟨rfl, rfl, loaded, inputs, hloaded, hinputs, showsAll_printInputs _ inputs⟩
    · rw [hrun]
      refine ⟨iff_of_true rfl ⟨fault, hprinted⟩, ?_, fun hcode => absurd rfl hcode⟩
      intro _
      refine ⟨rfl, fault.message, rfl, ?_⟩
      intro message'
      simp only [Invocation.reports_iff, hprinted, Except.error.injEq, exists_eq_left']

/-- Two files in two formats, and a run that prints nothing of the first file as there is no
second. -/
theorem run_outcome_two_files :
    let files : FileSystem := fun path =>
      if path = ['a'] then .content ['S', 'i'].utf8Encode
      else if path = ['b'] then .content ['x'].utf8Encode
      else .missing
    let outcome (arguments : List Text) :=
      let outcome := run arguments files ByteArray.empty
      (outcome.code, outcome.stdout, outcome.report?)
    outcome [['a'], ['b']]
      = (0, "==> a <==\n1:1\tcontrol-keyword\t\"Si\"\n==> b <==\n1:1\tidentifier\t\"x\"\n".toList,
          none) ∧
    outcome ["--format=scopes".toList, ['a'], ['b']]
      = (0, "==> a <==\nkeyword.control.pseudocode\n==> b <==\nvariable.other.pseudocode\n".toList,
          none) ∧
    outcome [['a'], ['c']]
      = (1, [], some "Error: Failed to read c: No such file or directory (os error 2)".toList) := by
  intro files outcome
  have hsources : Sources files ByteArray.empty [['a'], ['b']]
      [⟨['a'], ['S', 'i']⟩, ⟨['b'], ['x']⟩] :=
    .files (List.cons_ne_nil _ _) (.cons ⟨rfl, rfl⟩ (.cons ⟨rfl, rfl⟩ .nil))
  -- Both runs are accepted with the same files, and what they print follows from what it shows.
  have hshown : ∀ arguments format, format.getD .tsv ≠ .json →
      CommandLine.invocation arguments
        = .ok ⟨[['a'], ['b']], none, format, false, false, false⟩ →
      (run arguments files ByteArray.empty).code ≠ 1 →
      outcome arguments = (0, printInputs { ScanConfig.default with format := format.getD .tsv }
        [⟨['a'], ['S', 'i']⟩, ⟨['b'], ['x']⟩], none) := by
    intro arguments format hformat haccepted hcode
    obtain ⟨hsucceeds, hsilent, loaded, inputs, rfl, hinputs, hshows⟩ :=
      ((run_outcome haccepted files ByteArray.empty).2 rfl).2.2 hcode
    obtain rfl := hsources.unique hinputs
    have hstdout := (showsAll_iff hformat).mp hshows
    simp only [outcome, hsucceeds, hsilent, hstdout]
    rfl
  refine ⟨?_, ?_, ?_⟩
  · rw [hshown _ none (by decide) rfl (by decide +kernel)]
    decide +kernel
  · rw [hshown _ (some .scopes) (by decide) rfl (by decide +kernel)]
    decide +kernel
  · obtain ⟨hfails, hsilent, -⟩ := (@run_outcome [['a'], ['c']]
      ⟨[['a'], ['c']], none, none, false, false, false⟩ rfl files ByteArray.empty).2 rfl
    have hcode := hfails.mpr (.inr (.inl ⟨['c'], by simp, notFound, .missing⟩))
    obtain ⟨hstdout, message, hreport, hfirst⟩ := hsilent hcode
    have hsecond : FirstUnreadable files [['a'], ['c']] ['c'] notFound :=
      ⟨[['a']], [], rfl, by simp [Entry.Holds, files], .missing⟩
    obtain rfl := (hfirst _).mp (.file .default ['c'] notFound rfl hsecond)
    simp only [outcome, hcode, hstdout, hreport]
    decide

end PseudocodeLexer.CommandLine
