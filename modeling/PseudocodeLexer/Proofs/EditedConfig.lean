import Mathlib.Logic.Function.Basic
import PseudocodeLexer.Proofs.Serialization

/-!
# Flags and edited configurations

What the arguments say about a configuration can be written into the configuration instead
(`override_eq_edited`), and what is written is read back. A run depends on its files only through
the configuration in force and the sources that are named (`Invocation.run_congr`). So a run with
flags has the outcome of the run without them whose configuration file says the same
(`run_edited_config`).
-/

namespace PseudocodeLexer

/-! ## Edited configurations -/

namespace ScanConfig

/-- The configuration with another format, if one is given, and with comments recognized, if that is
asked for. All else stays as it is. -/
def edited (config : ScanConfig) : Option OutputFormat → Bool → ScanConfig
  | none, false => config
  | none, true => { config with recognizeComments := true }
  | some format, false => { config with format := format }
  | some format, true => { config with format := format, recognizeComments := true }

theorem ofBytes_write (config : ScanConfig) : ofBytes config.write.utf8Encode = .ok config := by
  rw [ofBytes, Json.Symbol.ofBytes_utf8Encode]
  exact config.write_takesBack.decode .file

end ScanConfig

namespace CommandLine

open Text

namespace Invocation

/-- What the arguments say wins over the configuration as an edit of the configuration would. -/
theorem override_eq_edited (invocation : Invocation) (config : ScanConfig) :
    invocation.override config = config.edited invocation.format invocation.comments := by
  unfold override
  cases invocation.format with
  | none => cases invocation.comments <;> simp [ScanConfig.edited]
  | some format => cases invocation.comments <;> simp [ScanConfig.edited]

end Invocation

/-! ## Files -/

/-- The files with one more, or with another content under the path. -/
def FileSystem.withFile (files : FileSystem) (path : Text) (bytes : ByteArray) : FileSystem :=
  Function.update files path (.content bytes)

@[simp]
theorem FileSystem.withFile_self (files : FileSystem) (path : Text) (bytes : ByteArray) :
    files.withFile path bytes path = .content bytes :=
  Function.update_self path _ files

theorem FileSystem.withFile_of_ne (files : FileSystem) {path other : Text} (bytes : ByteArray)
    (h : other ≠ path) : files.withFile path bytes other = files other :=
  Function.update_of_ne h _ files

section

variable {files files' : FileSystem} {stdin : ByteArray}

/-- Of the files only those that are named are read. -/
theorem readAll_congr {paths : List Text} (h : ∀ path ∈ paths, files' path = files path) :
    readAll files' paths = readAll files paths := by
  induction paths with
  | nil => rfl
  | cons path paths ih =>
      obtain ⟨hpath, hpaths⟩ := List.forall_mem_cons.mp h
      rw [readAll, readAll, readFile, readFile, hpath, ih hpaths]

theorem readInputs_congr {paths : List Text} (h : ∀ path ∈ paths, files' path = files path) :
    readInputs files' stdin paths = readInputs files stdin paths := by
  cases paths with
  | nil => rfl
  | cons path paths => exact readAll_congr h

/-- The outcome of a run is settled by the configuration in force and by the sources. -/
theorem Invocation.run_congr {invocation invocation' : Invocation}
    (hmetadata : invocation'.metadata = invocation.metadata)
    (hconfig : loadConfig files' invocation' = loadConfig files invocation)
    (hsources : readInputs files' stdin invocation'.files
      = readInputs files stdin invocation.files) :
    invocation'.run files' stdin = invocation.run files stdin := by
  rw [Invocation.run, Invocation.run, printTokens, printTokens, hmetadata, hconfig, hsources]

end

/-! ## Flags -/

/-- The arguments name the same files and leave everything else to a configuration file. -/
def Invocation.ConfiguredBy (invocation : Invocation) (path : Text) (arguments : List Text) :
    Prop :=
  ∃ verbose, CommandLine.invocation arguments
    = .ok { files := invocation.files, config := some path, format := none, comments := false,
            metadata := false, verbose := verbose }

section

variable {arguments : List Text} {invocation : Invocation}

theorem exists_configuredBy {path : Text}
    (haccepted : CommandLine.invocation arguments = .ok invocation) (hpath : path ≠ []) :
    ∃ arguments', invocation.ConfiguredBy path arguments' := by
  have hfiles := (isNamed_of_invocation haccepted).file_ne_nil
  refine ⟨_, false, invocation_arguments ⟨?_, hfiles⟩⟩
  rintro path' ⟨⟩
  exact hpath

/-- Without flags the configuration in force is the one that the file holds. -/
theorem loadConfig_of_written {files : FileSystem} {path : Text} {config : ScanConfig}
    (hconfig : invocation.config = some path) (hformat : invocation.format = none)
    (hcomments : invocation.comments = false)
    (hfile : files path = .content config.write.utf8Encode) :
    loadConfig files invocation = .ok config := by
  refine Invocation.loadConfig_eq_ok_iff.mpr ⟨config, ?_, ?_⟩
  · rw [Invocation.Loads, hconfig]
    exact ⟨_, hfile, config.ofBytes_write⟩
  · rw [Invocation.override_eq_edited, hformat, hcomments]
    rfl

/-- **Flags say what an edited configuration says.** Where the configuration of a run loads, the
flags for the format and for comments can be replaced by another configuration file, which is none
of the sources and holds the loaded configuration as edited by the flags: there are arguments that
ask for that, and any that do lead to the same outcome, with its exit code, its output and its
fault. -/
theorem run_edited_config (haccepted : CommandLine.invocation arguments = .ok invocation)
    (hmetadata : invocation.metadata = false) {files : FileSystem} {loaded : ScanConfig}
    (hloaded : invocation.Loads files loaded) {path : Text} (hother : path ∉ invocation.files) :
    (path ≠ [] → ∃ arguments', invocation.ConfiguredBy path arguments') ∧
    ∀ arguments', invocation.ConfiguredBy path arguments' → ∀ stdin,
      run arguments' (files.withFile path
          (loaded.edited invocation.format invocation.comments).write.utf8Encode) stdin
        = run arguments files stdin := by
  refine ⟨exists_configuredBy haccepted, ?_⟩
  rintro arguments' ⟨verbose, haccepted'⟩ stdin
  rw [run_eq_of_invocation haccepted, run_eq_of_invocation haccepted']
  apply Invocation.run_congr
  · exact hmetadata.symm
  · have hflags : loadConfig files invocation
        = .ok (loaded.edited invocation.format invocation.comments) := by
      rw [← Invocation.override_eq_edited]
      exact Invocation.loadConfig_eq_ok_iff.mpr ⟨loaded, hloaded, rfl⟩
    rw [hflags]
    exact loadConfig_of_written rfl rfl rfl (files.withFile_self path _)
  · apply readInputs_congr
    intro source hsource
    apply files.withFile_of_ne
    rintro rfl
    exact hother hsource

/-- Scopes and comments are asked for by flags, and then by a file next to the source. -/
theorem run_edited_config_scopes :
    let files : FileSystem := fun path =>
      if path = ['a'] then .content "x // y".toList.utf8Encode else .missing
    run [['-', 'c', 'b'], ['a']]
        (files.withFile ['b'] (ScanConfig.write ⟨true, "pseudocode".toList, .scopes⟩).utf8Encode)
        ByteArray.empty
      = run ["--comments".toList, "--format=scopes".toList, ['a']] files ByteArray.empty := by
  intro files
  have haccepted : CommandLine.invocation ["--comments".toList, "--format=scopes".toList, ['a']]
      = .ok ⟨[['a']], none, some .scopes, true, false, false⟩ := rfl
  have hedited := @run_edited_config _ _ haccepted rfl files .default rfl ['b'] (by decide)
  exact hedited.2 _ ⟨false, rfl⟩ ByteArray.empty

end

end CommandLine

end PseudocodeLexer
