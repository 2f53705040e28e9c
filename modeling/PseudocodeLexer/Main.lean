import PseudocodeLexer.CommandLine.Run

/-!
# The program

Reads the files that the arguments name, and standard input if they name none, and hands them to
`CommandLine.run`. Only here does the program meet the world outside.
-/

namespace PseudocodeLexer.CommandLine

/-- What the system holds under a path. -/
def readEntry (path : Text) : IO Entry := do
  try
    return .content (← IO.FS.readBinFile (String.ofList path))
  catch error =>
    match error with
    | .noFileOrDirectory .. => return .missing
    | .inappropriateType .. => return .directory
    | error => return .unavailable (toString error).toList

def readEntries : List Text → IO (List (Text × Entry))
  | [] => return []
  | path :: rest => do
      let entry ← readEntry path
      return (path, entry) :: (← readEntries rest)

def writeOutcome (outcome : Outcome) : IO UInt32 := do
  (← IO.getStdout).putStr (String.ofList outcome.stdout)
  if let some report := outcome.report? then
    (← IO.getStderr).putStrLn (String.ofList report)
  else if outcome.code ≠ 0 then
    (← IO.getStderr).putStrLn (String.ofList refusalText)
  return outcome.code.toUInt32

/-- Runs the program; standard input is read only if the run looks at it. -/
def start (arguments : List Text) : IO UInt32 := do
  match invocation arguments with
  | .error _ => writeOutcome (run arguments (fun _ => .missing) .empty)
  | .ok invocation =>
      let entries ← readEntries invocation.paths
      let stdin ← if invocation.readsStdin then (← IO.getStdin).readBinToEnd else pure .empty
      writeOutcome (run arguments (fun path => (entries.lookup path).getD .missing) stdin)

end PseudocodeLexer.CommandLine

def main (args : List String) : IO UInt32 :=
  PseudocodeLexer.CommandLine.start (args.map String.toList)
