import PseudocodeLexer.Proofs.Arguments
import PseudocodeLexer.Proofs.Positions
import PseudocodeLexer.Proofs.Runs

/-!
# Several files

The run on several files is compared with the runs that ask for the same of one file each, and the
run on one file with the run on standard input. The name of an input shows in its header and in one
member of its records (`agreeBut_spanMembers`) and nowhere else, and an input is scanned from its
own beginning. So a run on several files prints what the runs on each of them print, and reading
standard input differs from reading a file by the name alone (`run_file_by_file`).
-/

namespace PseudocodeLexer.CommandLine

open Text

/-! ## Where the name shows -/

/-- The members are the same but for the value under one key. -/
def AgreeBut (key : Text) (members members' : List (Text × Text)) : Prop :=
  List.Forall₂
    (fun member member' => member.1 = member'.1 ∧ (member.1 ≠ key → member.2 = member'.2))
    members members'

theorem agreeBut_spanMembers (suffix file file' : Text) (span : Span) :
    AgreeBut "file".toList (spanMembers suffix file span) (spanMembers suffix file' span) := by
  simp [AgreeBut, spanMembers]

theorem printSpan_of_ne_json {config : ScanConfig} (h : config.format ≠ .json)
    (file file' : Text) (span : Span) :
    printSpan config file span = printSpan config file' span := by
  unfold printSpan
  cases hformat : config.format with
  | json => exact absurd hformat h
  | tsv | scopes => rfl

/-! ## One input -/

theorem printInput_unheaded (config : ScanConfig) (input : Input) :
    printInput config false input
      = (tokenize (Rule.table config.recognizeComments) input.content).flatMap fun span =>
          terminated (printSpan config input.name span) := by
  simp [printInput]

theorem printInput_headed (config : ScanConfig) (input : Input) :
    printInput config true input
      = terminated (header input.name) ++ printInput config false input := by
  simp [printInput]

theorem printInputs_singleton (config : ScanConfig) (input : Input) :
    printInputs config [input] = printInput config false input := by
  simp [printInputs]

section

variable {invocation : Invocation} {config : ScanConfig} {files : FileSystem} {stdin : ByteArray}

/-- The run on other files loads the same configuration. -/
theorem run_onFiles {paths arguments : List Text} {inputs : List Input}
    (hmetadata : invocation.metadata = false) (hconfig : loadConfig files invocation = .ok config)
    (honly : invocation.OnFiles paths arguments)
    (hinputs : readInputs files stdin paths = .ok inputs) :
    run arguments files stdin = .success (printInputs config inputs) := by
  rw [run_eq_of_invocation honly]
  exact Invocation.run_of_loaded hmetadata hconfig hinputs

/-- The outcome of the run on one file. -/
theorem run_single {path content : Text} {single : List Text}
    (hmetadata : invocation.metadata = false) (hconfig : loadConfig files invocation = .ok config)
    (honly : invocation.OnFiles [path] single) (hholds : (files path).Holds content) :
    run single files stdin = .success (printInput config false ⟨path, content⟩) := by
  have hinputs : readInputs files stdin [path] = .ok [⟨path, content⟩] :=
    readInputs_eq_ok_iff.mpr (.files (List.cons_ne_nil _ _) (.cons ⟨rfl, hholds⟩ .nil))
  rw [run_onFiles hmetadata hconfig honly hinputs, printInputs_singleton]

/-- The outcome of the run on standard input. -/
theorem run_piped {content : Text} {piped : List Text}
    (hmetadata : invocation.metadata = false) (hconfig : loadConfig files invocation = .ok config)
    (honly : invocation.OnFiles [] piped) :
    run piped files content.utf8Encode
      = .success (printInput config false ⟨stdinName, content⟩) := by
  have hinputs : readInputs files content.utf8Encode [] = .ok [⟨stdinName, content⟩] :=
    readInputs_eq_ok_iff.mpr (.stdin content rfl)
  rw [run_onFiles hmetadata hconfig honly hinputs, printInputs_singleton]

/-! ## Several inputs -/

/-- What is printed for several files, put together from what is printed for each. -/
theorem printInputs_files {paths : List Text} (hseveral : 2 ≤ paths.length)
    (config : ScanConfig) (contents : Text → Text) :
    printInputs config (paths.map fun path => ⟨path, contents path⟩)
      = paths.flatMap fun path =>
          (if config.format = .json then [] else terminated (header path))
            ++ printInput config false ⟨path, contents path⟩ := by
  have hlength : 1 < (paths.map fun path => (⟨path, contents path⟩ : Input)).length := by
    rw [List.length_map]
    exact hseveral
  rw [printInputs, List.flatMap_map]
  by_cases hjson : config.format = .json
  · simp [hjson]
  · simp only [hlength, hjson, decide_true, Bool.true_and, ne_eq, not_false_eq_true, if_false,
      printInput_headed]

theorem run_several {arguments : List Text}
    (haccepted : CommandLine.invocation arguments = .ok invocation)
    (hmetadata : invocation.metadata = false) (hconfig : loadConfig files invocation = .ok config)
    (hseveral : 2 ≤ invocation.files.length) {contents : Text → Text}
    (hholds : ∀ path ∈ invocation.files, (files path).Holds (contents path)) :
    run arguments files stdin = .success (invocation.files.flatMap fun path =>
      (if config.format = .json then [] else terminated (header path))
        ++ printInput config false ⟨path, contents path⟩) := by
  have hinputs : readInputs files stdin invocation.files
      = .ok (invocation.files.map fun path => ⟨path, contents path⟩) := by
    refine readInputs_eq_ok_iff.mpr (.files ?_ ?_)
    · intro hnil
      simp [hnil] at hseveral
    · rw [List.forall₂_map_right_iff, List.forall₂_same]
      exact fun path hmem => ⟨rfl, hholds path hmem⟩
  rw [run_eq_of_invocation haccepted, Invocation.run_of_loaded hmetadata hconfig hinputs,
    printInputs_files hseveral]

end

/-! ## Records -/

/-- The records of the spans of a text with a name, each on a line of its own. -/
def printedRecords (suffix name : Text) (spans : List Span) : Text :=
  spans.flatMap fun span => terminated (Json.writeObject .compact 0 (spanMembers suffix name span))

theorem printInput_records {config : ScanConfig} (h : config.format = .json) (input : Input) :
    printInput config false input
      = printedRecords config.scopeSuffix input.name
          (tokenize (Rule.table config.recognizeComments) input.content) := by
  rw [printInput_unheaded, printedRecords]
  simp only [printSpan, h, writeSpan]

/-- Without records the name of an input shows in its header only. -/
theorem printInput_eq_of_ne_json {config : ScanConfig} (h : config.format ≠ .json)
    (name name' content : Text) :
    printInput config false ⟨name, content⟩ = printInput config false ⟨name', content⟩ := by
  simp only [printInput_unheaded, printSpan_of_ne_json h name name']

section

variable {arguments : List Text} {invocation : Invocation} {config : ScanConfig}
  {files : FileSystem}

/-- **Files are printed one after the other.** The run on several files prints what the runs on each
of them print, in the order of the arguments and each under its header unless records are printed;
and what it prints for a file are the tokens of that file, with their places in that file. The run
on standard input differs from the run on a file with the same text only by the name in the records.
There is a command line for each of these runs. -/
theorem run_file_by_file (haccepted : CommandLine.invocation arguments = .ok invocation)
    (hmetadata : invocation.metadata = false) (hconfig : loadConfig files invocation = .ok config)
    (stdin : ByteArray) :
    (2 ≤ invocation.files.length → ∀ (contents : Text → Text) (alone : Text → List Text),
      (∀ path ∈ invocation.files,
        (files path).Holds (contents path) ∧ invocation.OnFiles [path] (alone path)) →
      run arguments files stdin = .success (invocation.files.flatMap fun path =>
        (if config.format = .json then []
          else terminated ("==> ".toList ++ path ++ " <==".toList))
          ++ (run (alone path) files stdin).stdout) ∧
      ∀ path ∈ invocation.files,
        let spans := tokenize (Rule.table config.recognizeComments) (contents path)
        run (alone path) files stdin
          = .success (spans.flatMap fun span => terminated (printSpan config path span)) ∧
        ∀ span ∈ spans, span.StandsIn (contents path)) ∧
    (∀ (path content : Text) (single piped : List Text), (files path).Holds content →
      invocation.OnFiles [path] single → invocation.OnFiles [] piped →
      (config.format ≠ .json →
        run piped files content.utf8Encode = run single files stdin) ∧
      (config.format = .json →
        let spans := tokenize (Rule.table config.recognizeComments) content
        run single files stdin = .success (printedRecords config.scopeSuffix path spans) ∧
        run piped files content.utf8Encode
          = .success (printedRecords config.scopeSuffix stdinName spans) ∧
        ∀ span ∈ spans, AgreeBut "file".toList (spanMembers config.scopeSuffix path span)
          (spanMembers config.scopeSuffix stdinName span))) ∧
    ∀ paths : List Text, (∀ path ∈ paths, path ≠ []) →
      ∃ arguments', invocation.OnFiles paths arguments' := by
  refine ⟨?_, ?_, fun paths hpaths => exists_onFiles haccepted hpaths⟩
  · intro hseveral contents alone hfiles
    have halone : ∀ path ∈ invocation.files, run (alone path) files stdin
        = .success (printInput config false ⟨path, contents path⟩) := by
      intro path hmem
      obtain ⟨hholds, honly⟩ := hfiles path hmem
      exact run_single hmetadata hconfig honly hholds
    constructor
    · rw [run_several haccepted hmetadata hconfig hseveral fun path hmem => (hfiles path hmem).1]
      congr 1
      apply List.flatMap_congr
      intro path hmem
      rw [halone path hmem]
      rfl
    · intro path hmem spans
      refine ⟨?_, standsIn_tokenize _ _⟩
      rw [halone path hmem, printInput_unheaded]
  · intro path content single piped hholds hsingle hpiped
    rw [run_single hmetadata hconfig hsingle hholds, run_piped hmetadata hconfig hpiped]
    constructor
    · intro hformat
      rw [printInput_eq_of_ne_json hformat stdinName path]
    · intro hformat spans
      rw [printInput_records hformat, printInput_records hformat]
      exact ⟨rfl, rfl, fun span _ => agreeBut_spanMembers _ _ _ span⟩

/-- Two files, the first without a line feed at its end. -/
theorem run_file_by_file_two :
    let files : FileSystem := fun path =>
      if path = ['a'] then .content ['x'].utf8Encode else .content ['y', '\n'].utf8Encode
    (run [['a'], ['b']] files ByteArray.empty).stdout
      = "==> a <==\n".toList ++ (run [['a']] files ByteArray.empty).stdout
        ++ "==> b <==\n".toList ++ (run [['b']] files ByteArray.empty).stdout := by
  intro files
  have happart := @run_file_by_file [['a'], ['b']]
    ⟨[['a'], ['b']], none, none, false, false, false⟩ .default files rfl rfl rfl ByteArray.empty
  have hfiles : ∀ path ∈ [['a'], ['b']],
      (files path).Holds (if path = ['a'] then ['x'] else ['y', '\n']) ∧
      Invocation.OnFiles ⟨[['a'], ['b']], none, none, false, false, false⟩ [path] [path] := by
    simp only [List.forall_mem_cons, List.not_mem_nil, false_imp_iff, implies_true, and_true]
    exact ⟨⟨rfl, rfl⟩, rfl, rfl⟩
  rw [(happart.1 (Nat.le_refl 2) _ (fun path => [path]) hfiles).1]
  simp [Outcome.success, ScanConfig.default, terminated]

end

end PseudocodeLexer.CommandLine
