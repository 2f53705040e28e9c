import PseudocodeLexer.CommandLine.Arguments

/-!
# Command lines and what they ask for

Reading the arguments never gives an empty name (`isNamed_of_invocation`): each argument keeps it
so, and by induction all of them do. Conversely every invocation without empty names is asked for by
the command line that writes each option under its full name, with its value behind an equals sign,
and the files behind a double minus (`invocation_arguments`). So whatever can be asked for at all
can be asked for of other files as well (`exists_onFiles`).
-/

namespace PseudocodeLexer

theorem OutputFormat.ofLabel?_label (format : OutputFormat) :
    OutputFormat.ofLabel? format.label = some format := by
  cases format <;> decide

namespace CommandLine

open Text

/-! ## Names are filled -/

namespace Invocation

/-- No file has an empty name. -/
structure IsNamed (invocation : Invocation) : Prop where
  config_ne_nil : ∀ path, invocation.config = some path → path ≠ []
  file_ne_nil : ∀ path ∈ invocation.files, path ≠ []

variable {invocation next : Invocation}

theorem isNamed_empty : Invocation.empty.IsNamed where
  config_ne_nil _ h := nomatch h
  file_ne_nil _ h := nomatch h

theorem IsNamed.raise {flag : Flag} (h : invocation.IsNamed)
    (hraise : invocation.raise flag = .ok next) : next.IsNamed := by
  cases flag with
  | comments | metadata | verbose =>
      simp only [Invocation.raise] at hraise
      split at hraise
      · cases hraise
      · cases hraise
        exact ⟨h.config_ne_nil, h.file_ne_nil⟩

theorem IsNamed.set {setting : Setting} {value : Text} (h : invocation.IsNamed)
    (hset : invocation.set setting value = .ok next) : next.IsNamed := by
  cases setting with
  | config =>
      simp only [Invocation.set] at hset
      split at hset
      · cases hset
      · rename_i hvalue
        cases hset
        refine ⟨?_, h.file_ne_nil⟩
        rintro path ⟨⟩ rfl
        simp at hvalue
  | format =>
      simp only [Invocation.set] at hset
      split at hset
      · cases hset
      · split at hset
        · cases hset
        · cases hset
          exact ⟨h.config_ne_nil, h.file_ne_nil⟩

theorem IsNamed.addFile {path : Text} (h : invocation.IsNamed)
    (hadd : invocation.addFile path = .ok next) : next.IsNamed := by
  unfold Invocation.addFile at hadd
  split at hadd
  · cases hadd
  · rename_i hpath
    cases hadd
    refine ⟨h.config_ne_nil, ?_⟩
    intro path' hmem
    rcases List.mem_append.mp hmem with hmem | hmem
    · exact h.file_ne_nil path' hmem
    · obtain rfl := List.mem_singleton.mp hmem
      simpa using hpath

end Invocation

section

variable {invocation next : Invocation} {waiting : Waiting}

/-- What is read without a fault can be taken apart again. -/
private theorem exists_of_map_eq_ok {read : Except Stop Invocation}
    (h : read.map (·, (none : Waiting)) = .ok (next, waiting)) : read = .ok next := by
  cases read with
  | error stop => cases h
  | ok invocation =>
      cases h
      rfl

theorem isNamed_of_readLong {body : Text} (h : invocation.IsNamed)
    (hread : readLong invocation body = .ok (next, waiting)) : next.IsNamed := by
  simp only [readLong] at hread
  split at hread
  · exact h.raise (exists_of_map_eq_ok hread)
  · cases hread
    exact h
  · exact h.set (exists_of_map_eq_ok hread)
  · cases hread
  · cases hread

theorem isNamed_of_readLetters {body : Text} (h : invocation.IsNamed)
    (hread : readLetters invocation body = .ok (next, waiting)) : next.IsNamed := by
  induction body generalizing invocation with
  | nil =>
      cases hread
      exact h
  | cons c rest ih =>
      unfold readLetters at hread
      split at hread
      · cases hread
      · cases hread
      · split at hread
        · cases hread
        · rename_i hraise
          exact ih (h.raise hraise) hread
      · split at hread
        · cases hread
          exact h
        · exact h.set (exists_of_map_eq_ok hread)
        · exact h.set (exists_of_map_eq_ok hread)

theorem isNamed_of_readArgument {argument : Text} (h : invocation.IsNamed)
    (hread : readArgument invocation argument = some (.ok (next, waiting))) : next.IsNamed := by
  unfold readArgument at hread
  split at hread
  · cases hread
  · exact isNamed_of_readLong h (Option.some.inj hread)
  · exact isNamed_of_readLetters h (Option.some.inj hread)
  · exact h.addFile (exists_of_map_eq_ok (Option.some.inj hread))

theorem isNamed_of_readFiles {paths : List Text} (h : invocation.IsNamed)
    (hread : readFiles invocation paths = .ok next) : next.IsNamed := by
  induction paths generalizing invocation with
  | nil =>
      cases hread
      exact h
  | cons path rest ih =>
      unfold readFiles at hread
      split at hread
      · cases hread
      · rename_i hadd
        exact ih (h.addFile hadd) hread

theorem isNamed_of_readArguments {arguments : List Text} (h : invocation.IsNamed)
    (hread : readArguments invocation waiting arguments = .ok next) : next.IsNamed := by
  induction arguments generalizing invocation waiting with
  | nil =>
      cases waiting with
      | none =>
          cases hread
          exact h
      | some setting => cases hread
  | cons argument rest ih =>
      unfold readArguments at hread
      split at hread
      · split at hread
        · cases hread
        · rename_i hwaiting
          unfold readWaiting at hwaiting
          split at hwaiting
          · cases hwaiting
          · exact ih (h.set hwaiting) hread
      · split at hread
        · exact isNamed_of_readFiles h hread
        · cases hread
        · rename_i hargument
          exact ih (isNamed_of_readArgument h hargument) hread

theorem isNamed_of_invocation {arguments : List Text}
    (h : CommandLine.invocation arguments = .ok invocation) : invocation.IsNamed :=
  isNamed_of_readArguments Invocation.isNamed_empty h

end

/-! ## Writing a command line -/

def Flag.argument : Flag → Text
  | .comments => "--comments".toList
  | .metadata => "--metadata".toList
  | .verbose => "--verbose".toList

def Setting.argument (value : Text) : Setting → Text
  | .config => "--config=".toList ++ value
  | .format => "--format=".toList ++ value

namespace Invocation

def flagArguments (invocation : Invocation) : List Text :=
  (if invocation.comments then [Flag.comments.argument] else [])
    ++ (if invocation.metadata then [Flag.metadata.argument] else [])
    ++ (if invocation.verbose then [Flag.verbose.argument] else [])

/-- A command line that asks for the invocation. -/
def arguments (invocation : Invocation) : List Text :=
  (invocation.config.toList.map fun path => Setting.config.argument path)
    ++ ((invocation.format.toList.map fun format => Setting.format.argument format.label)
      ++ (invocation.flagArguments ++ ['-', '-'] :: invocation.files))

end Invocation

section

variable {invocation next : Invocation}

theorem readArguments_flag {flag : Flag} (h : invocation.raise flag = .ok next)
    (rest : List Text) :
    readArguments invocation none (flag.argument :: rest) = readArguments next none rest := by
  have hread : readArgument invocation flag.argument
      = some ((invocation.raise flag).map (·, none)) := by
    cases flag <;> rfl
  rw [readArguments, hread, h]
  rfl

theorem readArguments_setting {setting : Setting} {value : Text}
    (h : invocation.set setting value = .ok next) (rest : List Text) :
    readArguments invocation none (setting.argument value :: rest)
      = readArguments next none rest := by
  have hread : readArgument invocation (setting.argument value)
      = some ((invocation.set setting value).map (·, none)) := by
    cases setting <;> rfl
  rw [readArguments, hread, h]
  rfl

theorem readFiles_of_forall_ne_nil {paths : List Text} (h : ∀ path ∈ paths, path ≠ []) :
    readFiles invocation paths
      = .ok { invocation with files := invocation.files ++ paths } := by
  induction paths generalizing invocation with
  | nil => rw [readFiles, List.append_nil]
  | cons path paths ih =>
      obtain ⟨hpath, hpaths⟩ := List.forall_mem_cons.mp h
      have hadd : invocation.addFile path
          = .ok { invocation with files := invocation.files ++ [path] } := by
        rw [Invocation.addFile, if_neg (by simpa using hpath)]
      rw [readFiles, hadd]
      simp only [ih hpaths, List.append_assoc, List.singleton_append]

end

section

variable {invocation next : Invocation} (rest : List Text)

theorem readArguments_config {config : Option Text} (hunset : invocation.config = none)
    (hfilled : ∀ path, config = some path → path ≠ []) :
    readArguments invocation none
        ((config.toList.map fun path => Setting.config.argument path) ++ rest)
      = readArguments { invocation with config := config } none rest := by
  cases config with
  | none =>
      have hsame : { invocation with config := none } = invocation := by rw [← hunset]
      rw [hsame]
      rfl
  | some path =>
      apply readArguments_setting
      have hpath : path ≠ [] := hfilled path rfl
      rw [Invocation.set, if_neg (by simp [hunset, hpath])]

theorem readArguments_format {format : Option OutputFormat} (hunset : invocation.format = none) :
    readArguments invocation none
        ((format.toList.map fun f => Setting.format.argument f.label) ++ rest)
      = readArguments { invocation with format := format } none rest := by
  cases format with
  | none =>
      have hsame : { invocation with format := none } = invocation := by rw [← hunset]
      rw [hsame]
      rfl
  | some format =>
      apply readArguments_setting
      simp only [Invocation.set, OutputFormat.ofLabel?_label]
      rw [if_neg (by simp [hunset])]

/-- A flag that is written only if it is to be raised. -/
theorem readArguments_flag_ite {flag : Flag} {raised : Bool}
    (htrue : raised = true → invocation.raise flag = .ok next)
    (hfalse : raised = false → invocation = next) :
    readArguments invocation none ((if raised then [flag.argument] else []) ++ rest)
      = readArguments next none rest := by
  cases raised with
  | true => exact readArguments_flag (htrue rfl) rest
  | false =>
      rw [← hfalse rfl]
      rfl

end

/-- Every invocation without empty names is asked for by its command line. -/
theorem invocation_arguments {invocation : Invocation} (h : invocation.IsNamed) :
    CommandLine.invocation invocation.arguments = .ok invocation := by
  obtain ⟨files, config, format, comments, metadata, verbose⟩ := invocation
  have hconfig := h.config_ne_nil
  have hfiles := h.file_ne_nil
  rw [CommandLine.invocation, Invocation.arguments, Invocation.flagArguments,
    readArguments_config _ rfl hconfig, readArguments_format _ rfl, Invocation.empty,
    List.append_assoc, List.append_assoc]
  calc readArguments ⟨[], config, format, false, false, false⟩ none _
    _ = readArguments ⟨[], config, format, comments, false, false⟩ none _ :=
        readArguments_flag_ite _ (by rintro rfl; rfl) (by rintro rfl; rfl)
    _ = readArguments ⟨[], config, format, comments, metadata, false⟩ none _ :=
        readArguments_flag_ite _ (by rintro rfl; rfl) (by rintro rfl; rfl)
    _ = readArguments ⟨[], config, format, comments, metadata, verbose⟩ none _ :=
        readArguments_flag_ite _ (by rintro rfl; rfl) (by rintro rfl; rfl)
    _ = readFiles ⟨[], config, format, comments, metadata, verbose⟩ files := rfl
    _ = .ok ⟨files, config, format, comments, metadata, verbose⟩ :=
        readFiles_of_forall_ne_nil hfiles

/-! ## The same for other files -/

/-- The arguments ask for the same as the invocation, but of these files. -/
def Invocation.OnFiles (invocation : Invocation) (paths arguments : List Text) : Prop :=
  CommandLine.invocation arguments = .ok { invocation with files := paths }

/-- Whatever is asked for can be asked for of any other files. -/
theorem exists_onFiles {arguments : List Text} {invocation : Invocation} {paths : List Text}
    (h : CommandLine.invocation arguments = .ok invocation) (hpaths : ∀ path ∈ paths, path ≠ []) :
    ∃ arguments', invocation.OnFiles paths arguments' :=
  ⟨_, invocation_arguments ⟨(isNamed_of_invocation h).config_ne_nil, hpaths⟩⟩

end CommandLine

end PseudocodeLexer
