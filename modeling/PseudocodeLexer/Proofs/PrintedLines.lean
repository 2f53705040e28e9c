import PseudocodeLexer.Proofs.LineEnds
import PseudocodeLexer.Proofs.Runs

/-!
# Printed lines

A run that scans its inputs (`Scans`) succeeds and prints lines, each of which it ends by a line
feed (`Scans.run_eq`). Where no line has a break of its own, cutting standard output into lines
gives back exactly the lines that were printed (`Scans.lines_stdout`).
-/

namespace PseudocodeLexer

open Text

namespace CommandLine

/-! ## What is printed -/

/-- The lines for an input: perhaps its name, and one line for each of its tokens. -/
def printedLines (config : ScanConfig) (headed : Bool) (input : Input) : List Text :=
  (if headed then [header input.name] else [])
    ++ (tokenize (Rule.table config.recognizeComments) input.content).map
        (printSpan config input.name)

/-- The lines for the inputs of a run, which are told apart by headers if there are several and
their lines do not name them. -/
def allPrintedLines (config : ScanConfig) (inputs : List Input) : List Text :=
  inputs.flatMap (printedLines config (1 < inputs.length && config.format ≠ .json))

theorem printInput_eq (config : ScanConfig) (headed : Bool) (input : Input) :
    printInput config headed input = (printedLines config headed input).flatMap terminated := by
  rw [printedLines, List.flatMap_append, List.flatMap_map]
  cases headed <;> simp [printInput]

theorem printInputs_eq (config : ScanConfig) (inputs : List Input) :
    printInputs config inputs = (allPrintedLines config inputs).flatMap terminated := by
  rw [allPrintedLines, List.flatMap_assoc]
  simp only [← printInput_eq]
  rfl

/-! ## Lines put together and cut again -/

theorem lines_flatMap_terminated {printed : List Text}
    (h : ∀ line ∈ printed, '\n' ∉ line ∧ '\r' ∉ line) :
    lines (printed.flatMap terminated) = printed := by
  induction printed with
  | nil => rfl
  | cons line printed ih =>
      obtain ⟨⟨hlineFeed, hreturn⟩, hprinted⟩ := List.forall_mem_cons.mp h
      have hlast : line.getLast? ≠ some '\r' := fun hlast => hreturn (List.mem_of_getLast? hlast)
      have happend : (line :: printed).flatMap terminated
          = line ++ '\n' :: printed.flatMap terminated := by
        simp [terminated]
      rw [happend, lines_line_append hlineFeed, dropReturn_of_getLast?_ne hlast, ih hprinted]

/-! ## Runs that scan -/

/-- The arguments ask for the tokens of the inputs, which can all be read, under the effective
configuration. -/
def Scans (arguments : List Text) (files : FileSystem) (stdin : ByteArray) (config : ScanConfig)
    (inputs : List Input) : Prop :=
  ∃ invocation, CommandLine.invocation arguments = .ok invocation ∧
    invocation.metadata = false ∧ loadConfig files invocation = .ok config ∧
    Sources files stdin invocation.files inputs

namespace Scans

variable {arguments : List Text} {files : FileSystem} {stdin : ByteArray} {config : ScanConfig}
  {inputs : List Input}

theorem run_eq (h : Scans arguments files stdin config inputs) :
    run arguments files stdin = .success ((allPrintedLines config inputs).flatMap terminated) := by
  obtain ⟨invocation, haccepted, hmetadata, hconfig, hinputs⟩ := h
  rw [run_eq_of_invocation haccepted,
    Invocation.run_of_loaded hmetadata hconfig (readInputs_eq_ok_iff.mpr hinputs), printInputs_eq]

/-- The lines of standard output are those that were printed. -/
theorem lines_stdout (h : Scans arguments files stdin config inputs)
    (hunbroken : ∀ line ∈ allPrintedLines config inputs, '\n' ∉ line ∧ '\r' ∉ line) :
    lines (run arguments files stdin).stdout = allPrintedLines config inputs := by
  rw [h.run_eq]
  exact lines_flatMap_terminated hunbroken

end Scans

end CommandLine

end PseudocodeLexer
