import PseudocodeLexer.CommandLine.Arguments
import PseudocodeLexer.Fault
import PseudocodeLexer.Metadata
import PseudocodeLexer.Token.Span

/-!
# A run of the program

A run depends on its arguments, on the files that they name and on standard input, and ends with an
exit code, the text on standard output and perhaps a fault. All sources are read before anything is
printed, so a run that fails prints nothing; the first fault in the order of reading is the one
reported, the configuration before the sources.
-/

namespace PseudocodeLexer.CommandLine

/-! ## Files -/

/-- What is found under a path. -/
inductive Entry where
  | content (bytes : ByteArray)
  | directory
  | missing
  /-- It cannot be opened, for the given reason. -/
  | unavailable (reason : Text)

abbrev FileSystem := Text → Entry

def notFound : Text :=
  "No such file or directory (os error 2)".toList

def isDirectory : Text :=
  "Is a directory (os error 21)".toList

def notUtf8 : Text :=
  "stream did not contain valid UTF-8".toList

def decodeUtf8? (bytes : ByteArray) : Option Text :=
  (String.fromUTF8? bytes).map String.toList

/-- A text to be scanned, and the name under which it is shown. -/
structure Input where
  name : Text
  content : Text

/-- The text of a source file, or why it cannot be read. -/
def Entry.text : Entry → Except Text Text
  | .content bytes =>
      match decodeUtf8? bytes with
      | some t => .ok t
      | none => .error notUtf8
  | .directory => .error isDirectory
  | .missing => .error notFound
  | .unavailable reason => .error reason

/-- A directory can be opened but not read. -/
def Entry.config (path : Text) : Entry → Except Fault ScanConfig
  | .content bytes =>
      match ScanConfig.ofBytes bytes with
      | .ok config => .ok config
      | .error error => .error (.json error)
  | .directory => .error (.json (.unreadable isDirectory))
  | .missing => .error (cannotOpen path notFound)
  | .unavailable reason => .error (cannotOpen path reason)
where
  cannotOpen (path reason : Text) : Fault :=
    .config ("Failed to open ".toList ++ path ++ ": ".toList ++ reason)

def stdinName : Text :=
  "<stdin>".toList

def readStdin (stdin : ByteArray) : Except Fault Input :=
  match decodeUtf8? stdin with
  | some t => .ok ⟨stdinName, t⟩
  | none => .error (.io notUtf8)

def readFile (files : FileSystem) (path : Text) : Except Fault Input :=
  match (files path).text with
  | .ok t => .ok ⟨path, t⟩
  | .error reason => .error (.read path reason)

def readAll (files : FileSystem) : List Text → Except Fault (List Input)
  | [] => .ok []
  | path :: rest =>
      match readFile files path with
      | .error fault => .error fault
      | .ok input =>
          match readAll files rest with
          | .error fault => .error fault
          | .ok inputs => .ok (input :: inputs)

/-- The sources of a run: the named files, or standard input when there are none. -/
def readInputs (files : FileSystem) (stdin : ByteArray) (paths : List Text) :
    Except Fault (List Input) :=
  match paths with
  | [] =>
      match readStdin stdin with
      | .error fault => .error fault
      | .ok input => .ok [input]
  | paths => readAll files paths

/-! ## Configuration -/

/-- What the arguments say wins over the configuration. -/
def Invocation.override (invocation : Invocation) (config : ScanConfig) : ScanConfig where
  recognizeComments := config.recognizeComments || invocation.comments
  scopeSuffix := config.scopeSuffix
  format := invocation.format.getD config.format

def loadConfig (files : FileSystem) (invocation : Invocation) : Except Fault ScanConfig :=
  match invocation.config with
  | none => .ok (invocation.override .default)
  | some path =>
      match (files path).config path with
      | .error fault => .error fault
      | .ok config => .ok (invocation.override config)

/-! ## Printing -/

/-- The members of a span's record, in the alphabetical order of their keys. -/
def spanMembers (suffix file : Text) (span : Span) : List (Text × Text) :=
  [("class".toList, Json.writeString span.token.tokenClass.label),
   ("column".toList, Text.decimal span.column),
   ("end".toList, Text.decimal span.stop),
   ("file".toList, Json.writeString file),
   ("lexeme".toList, Json.writeString span.token.lexeme),
   ("line".toList, Text.decimal span.line),
   ("scope".toList, Json.writeString (span.token.scope suffix)),
   ("start".toList, Text.decimal span.start)]

def writeSpan (suffix file : Text) (span : Span) : Text :=
  Json.writeObject .compact 0 (spanMembers suffix file span)

def printSpan (config : ScanConfig) (file : Text) (span : Span) : Text :=
  match config.format with
  | .tsv => span.display
  | .json => writeSpan config.scopeSuffix file span
  | .scopes => span.token.scope config.scopeSuffix

def terminated (line : Text) : Text :=
  line ++ ['\n']

def header (name : Text) : Text :=
  "==> ".toList ++ name ++ " <==".toList

def printInput (config : ScanConfig) (headed : Bool) (input : Input) : Text :=
  let spans := tokenize (Rule.table config.recognizeComments) input.content
  (if headed then terminated (header input.name) else [])
    ++ spans.flatMap fun span => terminated (printSpan config input.name span)

/-- Several inputs are told apart by headers, but in the format that names the file anyway. -/
def printInputs (config : ScanConfig) (inputs : List Input) : Text :=
  let headed := 1 < inputs.length && config.format ≠ .json
  inputs.flatMap (printInput config headed)

/-! ## Outcomes -/

structure Outcome where
  code : Nat
  stdout : Text
  fault : Option Fault
  deriving DecidableEq

namespace Outcome

def success (stdout : Text) : Outcome :=
  ⟨0, stdout, none⟩

def failure (fault : Fault) : Outcome :=
  ⟨1, [], some fault⟩

/-- The arguments make no sense; nothing was run. -/
def refused : Outcome :=
  ⟨2, [], none⟩

/-- What is reported on standard error. -/
def report? (outcome : Outcome) : Option Text :=
  outcome.fault.map fun fault => "Error: ".toList ++ fault.message

/-- The report up to the end of its first line. -/
def errorLine? (outcome : Outcome) : Option Text :=
  outcome.report?.map Text.firstLine

end Outcome

def describeMetadata : Text :=
  terminated (LanguageMetadata.pseudocode.write .indented)

/-- Prints the tokens of all inputs, or else gives the first fault. -/
def printTokens (files : FileSystem) (stdin : ByteArray) (invocation : Invocation) :
    Except Fault Text :=
  match loadConfig files invocation with
  | .error fault => .error fault
  | .ok config =>
      match readInputs files stdin invocation.files with
      | .error fault => .error fault
      | .ok inputs => .ok (printInputs config inputs)

def Invocation.run (files : FileSystem) (stdin : ByteArray) (invocation : Invocation) : Outcome :=
  if invocation.metadata then .success describeMetadata
  else match printTokens files stdin invocation with
    | .error fault => .failure fault
    | .ok stdout => .success stdout

def versionText : Text :=
  terminated "pseudolex 0.1.0".toList

def helpText : Text :=
  ["Usage: pseudolex [OPTIONS] [FILES]...",
   "",
   "Arguments:",
   "  [FILES]...             Files to scan; standard input when there are none",
   "",
   "Options:",
   "  -c, --config <CONFIG>  Configuration file",
   "  -f, --format <FORMAT>  Output format: tsv, json or scopes",
   "      --comments         Recognize comments",
   "      --metadata         Print the language metadata and exit",
   "  -v, --verbose          Report progress",
   "  -h, --help             Print help",
   "  -V, --version          Print version"].flatMap fun line => terminated line.toList

/-- What is said on standard error when the arguments are refused. -/
def refusalText : Text :=
  "error: invalid arguments; try '--help'".toList

/-- The program as a function of its arguments, its files and its standard input. -/
def run (arguments : List Text) (files : FileSystem) (stdin : ByteArray) : Outcome :=
  match invocation arguments with
  | .error .refused => .refused
  | .error .version => .success versionText
  | .error .help => .success helpText
  | .ok invocation => invocation.run files stdin

end PseudocodeLexer.CommandLine
