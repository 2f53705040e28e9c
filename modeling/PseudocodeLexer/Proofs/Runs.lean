import Mathlib.Data.List.Forall2
import PseudocodeLexer.CommandLine.Run

/-!
# Runs and their outcomes

What a run reads is described by relations on the files: an entry holds a text or is unreadable for
a reason, a configuration loads or does not, sources are supplied or one of them is the first that
is not. Each function that reads is characterised by an equivalence with these relations, for
success and for failure. A run is put together from them in the order configuration, sources,
printing, so it fails exactly if something of what it reads is faulty
(`Invocation.exists_printTokens_eq_error_iff`), and reports the first fault
(`Invocation.reports_iff`).
-/

namespace PseudocodeLexer.CommandLine

open Text

/-! ## Entries -/

theorem decodeUtf8?_eq_some_iff {bytes : ByteArray} {t : Text} :
    decodeUtf8? bytes = some t ↔ bytes = t.utf8Encode := by
  unfold decodeUtf8? String.fromUTF8?
  constructor
  · intro h
    obtain ⟨s, hs, rfl⟩ := Option.map_eq_some_iff.mp h
    split at hs
    · cases hs
      rw [← String.toByteArray_ofList, String.ofList_toList]
      rfl
    · cases hs
  · rintro rfl
    rw [dif_pos ByteArray.isValidUTF8_utf8Encode]
    have hstring :
        String.fromUTF8 t.utf8Encode ByteArray.isValidUTF8_utf8Encode = String.ofList t := rfl
    rw [hstring, Option.map_some, String.toList_ofList]

theorem decodeUtf8?_eq_none_iff {bytes : ByteArray} :
    decodeUtf8? bytes = none ↔ ¬ bytes.IsValidUTF8 := by
  unfold decodeUtf8? String.fromUTF8?
  rw [Option.map_eq_none_iff]
  split
  · rename_i hvalid
    simp [hvalid]
  · rename_i hinvalid
    simp [hinvalid]

namespace Entry

/-- The entry is a file with the encoding of the text. -/
def Holds (entry : Entry) (t : Text) : Prop :=
  entry = .content t.utf8Encode

/-- Why an entry holds no text. -/
inductive Unreadable : Entry → Text → Prop
  | missing : Unreadable .missing notFound
  | unavailable (reason : Text) : Unreadable (.unavailable reason) reason
  | directory : Unreadable .directory isDirectory
  | malformed (bytes : ByteArray) : ¬ bytes.IsValidUTF8 → Unreadable (.content bytes) notUtf8

/-- Why an entry gives no configuration: it cannot be opened, it cannot be read, or what it holds is
no configuration. -/
inductive Unconfigured (path : Text) : Entry → Fault → Prop
  | missing : Unconfigured path .missing
      (.config ("Failed to open ".toList ++ path ++ ": ".toList ++ notFound))
  | unavailable (reason : Text) : Unconfigured path (.unavailable reason)
      (.config ("Failed to open ".toList ++ path ++ ": ".toList ++ reason))
  | directory : Unconfigured path .directory (.json (.unreadable isDirectory))
  | malformed (bytes : ByteArray) (error : Json.Error) : ScanConfig.ofBytes bytes = .error error →
      Unconfigured path (.content bytes) (.json error)

variable {entry : Entry}

theorem text_eq_ok_iff {t : Text} : entry.text = .ok t ↔ entry.Holds t := by
  constructor
  · intro h
    cases entry with
    | content bytes =>
        simp only [Entry.text] at h
        split at h
        · rename_i hdecode
          cases h
          exact congrArg _ (decodeUtf8?_eq_some_iff.mp hdecode)
        · cases h
    | directory | missing | unavailable => cases h
  · rintro rfl
    simp only [Entry.text, decodeUtf8?_eq_some_iff.mpr rfl]

theorem text_eq_error_iff {reason : Text} :
    entry.text = .error reason ↔ entry.Unreadable reason := by
  constructor
  · intro h
    cases entry with
    | content bytes =>
        simp only [Entry.text] at h
        split at h
        · cases h
        · rename_i hdecode
          cases h
          exact .malformed bytes (decodeUtf8?_eq_none_iff.mp hdecode)
    | directory =>
        cases h
        exact .directory
    | missing =>
        cases h
        exact .missing
    | unavailable =>
        cases h
        exact .unavailable _
  · intro h
    cases h with
    | malformed bytes hinvalid => simp only [Entry.text, decodeUtf8?_eq_none_iff.mpr hinvalid]
    | missing | unavailable | directory => rfl

theorem holds_or_unreadable (entry : Entry) :
    (∃ t, entry.Holds t) ∨ ∃ reason, entry.Unreadable reason := by
  cases h : entry.text with
  | ok t => exact .inl ⟨t, text_eq_ok_iff.mp h⟩
  | error reason => exact .inr ⟨reason, text_eq_error_iff.mp h⟩

theorem config_eq_ok_iff {path : Text} {config : ScanConfig} :
    entry.config path = .ok config ↔
      ∃ bytes, entry = .content bytes ∧ ScanConfig.ofBytes bytes = .ok config := by
  constructor
  · intro h
    cases entry with
    | content bytes =>
        simp only [Entry.config] at h
        split at h
        · rename_i hbytes
          cases h
          exact ⟨bytes, rfl, hbytes⟩
        · cases h
    | directory | missing | unavailable => cases h
  · rintro ⟨bytes, rfl, hbytes⟩
    simp only [Entry.config, hbytes]

theorem config_eq_error_iff {path : Text} {fault : Fault} :
    entry.config path = .error fault ↔ entry.Unconfigured path fault := by
  constructor
  · intro h
    cases entry with
    | content bytes =>
        simp only [Entry.config] at h
        split at h
        · cases h
        · rename_i hbytes
          cases h
          exact .malformed bytes _ hbytes
    | directory =>
        cases h
        exact .directory
    | missing =>
        cases h
        exact .missing
    | unavailable =>
        cases h
        exact .unavailable _
  · intro h
    cases h with
    | malformed bytes error hbytes => simp only [Entry.config, hbytes]
    | missing | unavailable | directory => rfl

end Entry

/-! ## Configurations -/

namespace Invocation

variable {files : FileSystem} {invocation : Invocation}

/-- The configuration that is asked for, or the default if none is. -/
def Loads (files : FileSystem) (invocation : Invocation) (config : ScanConfig) : Prop :=
  match invocation.config with
  | none => config = .default
  | some path => ∃ bytes, files path = .content bytes ∧ ScanConfig.ofBytes bytes = .ok config

/-- Why the configuration that is asked for cannot be had. -/
def Misconfigured (files : FileSystem) (invocation : Invocation) (fault : Fault) : Prop :=
  ∃ path, invocation.config = some path ∧ (files path).Unconfigured path fault

theorem loadConfig_eq_ok_iff {config : ScanConfig} :
    loadConfig files invocation = .ok config ↔
      ∃ loaded, invocation.Loads files loaded ∧ config = invocation.override loaded := by
  unfold loadConfig Loads
  cases invocation.config with
  | none =>
      constructor
      · rintro ⟨⟩
        exact ⟨.default, rfl, rfl⟩
      · rintro ⟨_, rfl, rfl⟩
        rfl
  | some path =>
      constructor
      · intro h
        cases hentry : (files path).config path with
        | error fault =>
            simp only [hentry] at h
            cases h
        | ok loaded =>
            simp only [hentry] at h
            cases h
            exact ⟨loaded, Entry.config_eq_ok_iff.mp hentry, rfl⟩
      · rintro ⟨loaded, hloaded, rfl⟩
        have hentry : (files path).config path = .ok loaded := Entry.config_eq_ok_iff.mpr hloaded
        simp only [hentry]

theorem loadConfig_eq_error_iff {fault : Fault} :
    loadConfig files invocation = .error fault ↔ invocation.Misconfigured files fault := by
  unfold loadConfig Misconfigured
  cases invocation.config with
  | none => simp
  | some path =>
      simp only [Option.some.injEq, exists_eq_left', ← Entry.config_eq_error_iff]
      cases (files path).config path with
      | error fault => simp
      | ok loaded => simp

theorem loads_or_misconfigured (files : FileSystem) (invocation : Invocation) :
    (∃ loaded, invocation.Loads files loaded) ∨ ∃ fault, invocation.Misconfigured files fault := by
  cases h : loadConfig files invocation with
  | ok config =>
      obtain ⟨loaded, hloaded, -⟩ := loadConfig_eq_ok_iff.mp h
      exact .inl ⟨loaded, hloaded⟩
  | error fault => exact .inr ⟨fault, loadConfig_eq_error_iff.mp h⟩

end Invocation

/-! ## Sources -/

/-- The input is the text of the file at the path, under the path as its name. -/
structure Supplies (files : FileSystem) (path : Text) (input : Input) : Prop where
  name_eq : input.name = path
  holds : (files path).Holds input.content

/-- The inputs of a run, in the order in which their files are named. -/
inductive Sources (files : FileSystem) (stdin : ByteArray) : List Text → List Input → Prop
  | stdin (content : Text) : stdin = content.utf8Encode →
      Sources files stdin [] [⟨stdinName, content⟩]
  | files {paths : List Text} {inputs : List Input} : paths ≠ [] →
      List.Forall₂ (Supplies files) paths inputs → Sources files stdin paths inputs

/-- The first of the paths without a text, and the reason. -/
def FirstUnreadable (files : FileSystem) (paths : List Text) (path reason : Text) : Prop :=
  ∃ before after, paths = before ++ path :: after ∧
    (∀ earlier ∈ before, ∃ content, (files earlier).Holds content) ∧ (files path).Unreadable reason

section

variable {files : FileSystem} {stdin : ByteArray}

theorem readFile_eq_ok_iff {path : Text} {input : Input} :
    readFile files path = .ok input ↔ Supplies files path input := by
  unfold readFile
  constructor
  · intro h
    split at h
    · rename_i htext
      cases h
      exact ⟨rfl, Entry.text_eq_ok_iff.mp htext⟩
    · cases h
  · rintro ⟨rfl, hholds⟩
    rw [Entry.text_eq_ok_iff.mpr hholds]

theorem readFile_eq_error_iff {path : Text} {fault : Fault} :
    readFile files path = .error fault ↔
      ∃ reason, (files path).Unreadable reason ∧ fault = .read path reason := by
  unfold readFile
  simp only [← Entry.text_eq_error_iff]
  cases (files path).text with
  | ok content => simp
  | error reason => simp [eq_comm]

theorem readAll_eq_ok_iff {paths : List Text} {inputs : List Input} :
    readAll files paths = .ok inputs ↔ List.Forall₂ (Supplies files) paths inputs := by
  induction paths generalizing inputs with
  | nil => simp [readAll, eq_comm]
  | cons path paths ih =>
      unfold readAll
      constructor
      · intro h
        split at h
        · cases h
        · rename_i hfile
          split at h
          · cases h
          · rename_i hrest
            cases h
            exact .cons (readFile_eq_ok_iff.mp hfile) (ih.mp hrest)
      · rintro ⟨⟩
        rename_i hfile hrest
        rw [readFile_eq_ok_iff.mpr hfile, ih.mpr hrest]

theorem firstUnreadable_cons_iff {first path reason : Text} {paths : List Text} :
    FirstUnreadable files (first :: paths) path reason ↔
      (first = path ∧ (files path).Unreadable reason) ∨
        ((∃ content, (files first).Holds content) ∧ FirstUnreadable files paths path reason) := by
  constructor
  · rintro ⟨before, after, heq, hbefore, hpath⟩
    cases before with
    | nil =>
        obtain ⟨rfl, -⟩ := List.cons.inj heq
        exact .inl ⟨rfl, hpath⟩
    | cons first' before =>
        obtain ⟨rfl, hrest⟩ := List.cons.inj heq
        obtain ⟨hfirst, hbefore⟩ := List.forall_mem_cons.mp hbefore
        exact .inr ⟨hfirst, before, after, hrest, hbefore, hpath⟩
  · rintro (⟨rfl, hpath⟩ | ⟨hfirst, before, after, rfl, hbefore, hpath⟩)
    · exact ⟨[], paths, rfl, by simp, hpath⟩
    · exact ⟨first :: before, after, rfl, List.forall_mem_cons.mpr ⟨hfirst, hbefore⟩, hpath⟩

/-- Some file has no text if and only if there is a first one without. -/
theorem exists_firstUnreadable_iff {paths : List Text} :
    (∃ path reason, FirstUnreadable files paths path reason) ↔
      ∃ path ∈ paths, ∃ reason, (files path).Unreadable reason := by
  constructor
  · rintro ⟨path, reason, before, after, rfl, -, hpath⟩
    exact ⟨path, List.mem_append_right _ List.mem_cons_self, reason, hpath⟩
  · rintro ⟨path, hmem, reason, hpath⟩
    induction paths with
    | nil => cases hmem
    | cons first paths ih =>
        simp only [firstUnreadable_cons_iff]
        rcases (files first).holds_or_unreadable with hfirst | ⟨reason', hfirst⟩
        · rcases List.mem_cons.mp hmem with rfl | hmem
          · exact ⟨path, reason, .inl ⟨rfl, hpath⟩⟩
          · obtain ⟨path', reason', hlater⟩ := ih hmem
            exact ⟨path', reason', .inr ⟨hfirst, hlater⟩⟩
        · exact ⟨first, reason', .inl ⟨rfl, hfirst⟩⟩

/-- Of several files the first is read, and the others if that succeeds. -/
theorem readAll_cons_eq_error_iff {first : Text} {paths : List Text} {fault : Fault} :
    readAll files (first :: paths) = .error fault ↔
      readFile files first = .error fault ∨
        ((∃ input, readFile files first = .ok input) ∧ readAll files paths = .error fault) := by
  rw [readAll]
  cases readFile files first with
  | error fault' => simp
  | ok input => cases readAll files paths <;> simp

theorem readAll_eq_error_iff {paths : List Text} {fault : Fault} :
    readAll files paths = .error fault ↔
      ∃ path reason, FirstUnreadable files paths path reason ∧ fault = .read path reason := by
  induction paths with
  | nil => simp [readAll, FirstUnreadable]
  | cons first paths ih =>
      rw [readAll_cons_eq_error_iff, readFile_eq_error_iff, ih]
      simp only [firstUnreadable_cons_iff, readFile_eq_ok_iff]
      constructor
      · rintro (⟨reason, hfirst, rfl⟩ | ⟨⟨input, -, hholds⟩, path, reason, hpath, rfl⟩)
        · exact ⟨first, reason, .inl ⟨rfl, hfirst⟩, rfl⟩
        · exact ⟨path, reason, .inr ⟨⟨_, hholds⟩, hpath⟩, rfl⟩
      · rintro ⟨path, reason, ⟨rfl, hfirst⟩ | ⟨⟨content, hholds⟩, hpath⟩, rfl⟩
        · exact .inl ⟨reason, hfirst, rfl⟩
        · exact .inr ⟨⟨⟨first, content⟩, rfl, hholds⟩, path, reason, hpath, rfl⟩

theorem readStdin_eq_ok_iff {input : Input} :
    readStdin stdin = .ok input ↔
      ∃ content, stdin = content.utf8Encode ∧ input = ⟨stdinName, content⟩ := by
  unfold readStdin
  simp only [← decodeUtf8?_eq_some_iff]
  cases decodeUtf8? stdin with
  | none => simp
  | some content => simp [eq_comm]

theorem readStdin_eq_error_iff {fault : Fault} :
    readStdin stdin = .error fault ↔ ¬ stdin.IsValidUTF8 ∧ fault = .io notUtf8 := by
  unfold readStdin
  rw [← decodeUtf8?_eq_none_iff]
  cases decodeUtf8? stdin with
  | none => simp [eq_comm]
  | some content => simp

theorem readInputs_eq_ok_iff {paths : List Text} {inputs : List Input} :
    readInputs files stdin paths = .ok inputs ↔ Sources files stdin paths inputs := by
  cases paths with
  | nil =>
      simp only [readInputs]
      constructor
      · intro h
        cases hstdin : readStdin stdin with
        | error fault =>
            simp only [hstdin] at h
            cases h
        | ok input =>
            simp only [hstdin] at h
            cases h
            obtain ⟨content, hcontent, rfl⟩ := readStdin_eq_ok_iff.mp hstdin
            exact .stdin content hcontent
      · intro h
        cases h with
        | stdin content hcontent => simp only [readStdin_eq_ok_iff.mpr ⟨content, hcontent, rfl⟩]
        | files hne => exact absurd rfl hne
  | cons path paths =>
      show readAll files (path :: paths) = .ok inputs ↔ _
      rw [readAll_eq_ok_iff]
      constructor
      · exact .files (List.cons_ne_nil path paths)
      · rintro ⟨⟩
        assumption

theorem Sources.unique {paths : List Text} {inputs inputs' : List Input}
    (h : Sources files stdin paths inputs) (h' : Sources files stdin paths inputs') :
    inputs = inputs' := by
  have hread := readInputs_eq_ok_iff.mpr h
  rwa [readInputs_eq_ok_iff.mpr h', Except.ok.injEq, eq_comm] at hread

theorem readInputs_eq_error_iff {paths : List Text} {fault : Fault} :
    readInputs files stdin paths = .error fault ↔
      (∃ path reason, FirstUnreadable files paths path reason ∧ fault = .read path reason) ∨
        (paths = [] ∧ ¬ stdin.IsValidUTF8 ∧ fault = .io notUtf8) := by
  cases paths with
  | nil =>
      rw [← readStdin_eq_error_iff, readInputs]
      cases readStdin stdin <;> simp [FirstUnreadable]
  | cons path paths =>
      show readAll files (path :: paths) = .error fault ↔ _
      rw [readAll_eq_error_iff]
      simp

theorem exists_readInputs_eq_error_iff {paths : List Text} :
    (∃ fault, readInputs files stdin paths = .error fault) ↔
      (∃ path ∈ paths, ∃ reason, (files path).Unreadable reason) ∨
        (paths = [] ∧ ¬ stdin.IsValidUTF8) := by
  rw [← exists_firstUnreadable_iff]
  simp only [readInputs_eq_error_iff]
  constructor
  · rintro ⟨fault, ⟨path, reason, hpath, -⟩ | ⟨hnil, hstdin, -⟩⟩
    · exact .inl ⟨path, reason, hpath⟩
    · exact .inr ⟨hnil, hstdin⟩
  · rintro (⟨path, reason, hpath⟩ | ⟨hnil, hstdin⟩)
    · exact ⟨.read path reason, .inl ⟨path, reason, hpath, rfl⟩⟩
    · exact ⟨.io notUtf8, .inr ⟨hnil, hstdin, rfl⟩⟩

end

/-! ## Outcomes -/

namespace Invocation

variable {files : FileSystem} {stdin : ByteArray} {invocation : Invocation}

/-- What is reported first: what the configuration gives, else what the first file without a text
gives, else what standard input gives if no file is named. -/
inductive Reports (files : FileSystem) (stdin : ByteArray) (invocation : Invocation) : Text → Prop
  | config (fault : Fault) : invocation.Misconfigured files fault →
      Reports files stdin invocation fault.message
  | file (loaded : ScanConfig) (path reason : Text) : invocation.Loads files loaded →
      FirstUnreadable files invocation.files path reason →
      Reports files stdin invocation ("Failed to read ".toList ++ path ++ ": ".toList ++ reason)
  | stdin (loaded : ScanConfig) : invocation.Loads files loaded → invocation.files = [] →
      ¬ stdin.IsValidUTF8 → Reports files stdin invocation ("IO error: ".toList ++ notUtf8)

theorem printTokens_eq_ok_iff {stdout : Text} :
    printTokens files stdin invocation = .ok stdout ↔
      ∃ loaded inputs, invocation.Loads files loaded ∧
        Sources files stdin invocation.files inputs ∧
        stdout = printInputs (invocation.override loaded) inputs := by
  unfold printTokens
  constructor
  · intro h
    split at h
    · cases h
    · rename_i hconfig
      split at h
      · cases h
      · rename_i hinputs
        cases h
        obtain ⟨loaded, hloaded, rfl⟩ := loadConfig_eq_ok_iff.mp hconfig
        exact ⟨loaded, _, hloaded, readInputs_eq_ok_iff.mp hinputs, rfl⟩
  · rintro ⟨loaded, inputs, hloaded, hinputs, rfl⟩
    rw [loadConfig_eq_ok_iff.mpr ⟨loaded, hloaded, rfl⟩]
    simp only [readInputs_eq_ok_iff.mpr hinputs]

/-- The configuration is loaded before any source is read. -/
theorem printTokens_eq_error_iff {fault : Fault} :
    printTokens files stdin invocation = .error fault ↔
      invocation.Misconfigured files fault ∨
        ((∃ loaded, invocation.Loads files loaded) ∧
          readInputs files stdin invocation.files = .error fault) := by
  rw [← loadConfig_eq_error_iff, printTokens]
  cases hconfig : loadConfig files invocation with
  | error fault' =>
      have hloads : ¬ ∃ loaded, invocation.Loads files loaded := by
        rintro ⟨loaded, hloaded⟩
        have hok := loadConfig_eq_ok_iff.mpr ⟨loaded, hloaded, rfl⟩
        rw [hconfig] at hok
        cases hok
      simp only [hloads, false_and, or_false, Except.error.injEq]
  | ok config =>
      obtain ⟨loaded, hloaded, -⟩ := loadConfig_eq_ok_iff.mp hconfig
      have hloads : ∃ loaded, invocation.Loads files loaded := ⟨loaded, hloaded⟩
      simp only [hloads, true_and, reduceCtorEq, false_or]
      cases readInputs files stdin invocation.files <;> simp

theorem reports_iff {message : Text} :
    invocation.Reports files stdin message ↔
      ∃ fault, printTokens files stdin invocation = .error fault ∧ message = fault.message := by
  simp only [printTokens_eq_error_iff, readInputs_eq_error_iff]
  constructor
  · rintro (⟨fault, hconfig⟩ | ⟨loaded, path, reason, hloaded, hpath⟩ |
      ⟨loaded, hloaded, hnil, hstdin⟩)
    · exact ⟨fault, .inl hconfig, rfl⟩
    · exact ⟨.read path reason, .inr ⟨⟨loaded, hloaded⟩, .inl ⟨path, reason, hpath, rfl⟩⟩, rfl⟩
    · exact ⟨.io notUtf8, .inr ⟨⟨loaded, hloaded⟩, .inr ⟨hnil, hstdin, rfl⟩⟩, rfl⟩
  · rintro ⟨fault, hconfig | ⟨⟨loaded, hloaded⟩, ⟨path, reason, hpath, rfl⟩ | ⟨hnil, hstdin, rfl⟩⟩,
      rfl⟩
    · exact .config fault hconfig
    · exact .file loaded path reason hloaded hpath
    · exact .stdin loaded hloaded hnil hstdin

theorem exists_printTokens_eq_error_iff :
    (∃ fault, printTokens files stdin invocation = .error fault) ↔
      (∃ fault, invocation.Misconfigured files fault) ∨
        (∃ path ∈ invocation.files, ∃ reason, (files path).Unreadable reason) ∨
        (invocation.files = [] ∧ ¬ stdin.IsValidUTF8) := by
  rw [← exists_readInputs_eq_error_iff]
  simp only [printTokens_eq_error_iff]
  constructor
  · rintro ⟨fault, hconfig | ⟨-, hinputs⟩⟩
    · exact .inl ⟨fault, hconfig⟩
    · exact .inr ⟨fault, hinputs⟩
  · rintro (⟨fault, hconfig⟩ | ⟨fault, hinputs⟩)
    · exact ⟨fault, .inl hconfig⟩
    · -- If the configuration does not load either, its fault comes first.
      rcases loads_or_misconfigured files invocation with hloads | ⟨fault', hconfig⟩
      · exact ⟨fault, .inr ⟨hloads, hinputs⟩⟩
      · exact ⟨fault', .inl hconfig⟩

theorem run_of_metadata (h : invocation.metadata = true) :
    invocation.run files stdin = .success describeMetadata := by
  rw [Invocation.run, if_pos h]

/-- Without the metadata a run succeeds as printing does. -/
theorem run_cases (h : invocation.metadata = false) (files : FileSystem) (stdin : ByteArray) :
    (∃ stdout, printTokens files stdin invocation = .ok stdout ∧
      invocation.run files stdin = .success stdout) ∨
    (∃ fault, printTokens files stdin invocation = .error fault ∧
      invocation.run files stdin = .failure fault) := by
  rw [Invocation.run, if_neg (by simp [h])]
  cases printTokens files stdin invocation with
  | ok stdout => exact .inl ⟨stdout, rfl, rfl⟩
  | error fault => exact .inr ⟨fault, rfl, rfl⟩

theorem run_of_loaded {config : ScanConfig} {inputs : List Input}
    (hmetadata : invocation.metadata = false) (hconfig : loadConfig files invocation = .ok config)
    (hinputs : readInputs files stdin invocation.files = .ok inputs) :
    invocation.run files stdin = .success (printInputs config inputs) := by
  rw [Invocation.run, if_neg (by simp [hmetadata]), printTokens, hconfig]
  simp only [hinputs]

end Invocation

theorem run_eq_of_invocation {arguments : List Text} {invocation : Invocation}
    (haccepted : CommandLine.invocation arguments = .ok invocation) (files : FileSystem)
    (stdin : ByteArray) : run arguments files stdin = invocation.run files stdin := by
  rw [run, haccepted]

end PseudocodeLexer.CommandLine
