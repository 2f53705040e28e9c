import PseudocodeLexer.Json.Failure

/-!
# Faults of a run

Why a run of the program cannot go on. A fault with a cause outside the program carries its text.
-/

namespace PseudocodeLexer

inductive Fault where
  /-- Standard input or output failed. -/
  | io (reason : Text)
  /-- A source file could not be read. -/
  | read (path reason : Text)
  | json (error : Json.Error)
  | config (reason : Text)
  deriving DecidableEq

namespace Fault

def message : Fault → Text
  | .io reason => "IO error: ".toList ++ reason
  | .read path reason => "Failed to read ".toList ++ path ++ ": ".toList ++ reason
  | .json error => "JSON error: ".toList ++ error.message
  | .config reason => "Config error: ".toList ++ reason

/-- The cause behind a fault, in its own words. -/
def source? : Fault → Option Text
  | .io reason => some reason
  | .read _ reason => some reason
  | .json error => some error.message
  | .config _ => none

end Fault

end PseudocodeLexer
