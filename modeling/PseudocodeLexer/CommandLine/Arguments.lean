import PseudocodeLexer.Config

/-!
# Command line arguments

Arguments are read from left to right. An option may be given once, and only under its full name or
its letter; letters may be run together, and the last of them may be followed by its value. A value
that stands as an argument of its own does not begin with a minus sign, unless it is just that.
Behind a double minus everything is a file name. Asking for the version or for help ends the
reading at once, but a fault before it comes first.
-/

namespace PseudocodeLexer.CommandLine

/-- What the arguments ask for. -/
structure Invocation where
  files : List Text
  config : Option Text
  format : Option OutputFormat
  comments : Bool
  metadata : Bool
  verbose : Bool
  deriving DecidableEq

/-- Why reading the arguments does not end in a run. -/
inductive Stop where
  | refused
  | version
  | help
  deriving DecidableEq

inductive Flag where
  | comments
  | metadata
  | verbose
  deriving DecidableEq

inductive Setting where
  | config
  | format
  deriving DecidableEq

inductive Switch where
  | flag (flag : Flag)
  | setting (setting : Setting)
  | stop (stop : Stop)
  deriving DecidableEq

def longNames : List (Text × Switch) :=
  [("config".toList, .setting .config), ("format".toList, .setting .format),
   ("comments".toList, .flag .comments), ("metadata".toList, .flag .metadata),
   ("verbose".toList, .flag .verbose), ("version".toList, .stop .version),
   ("help".toList, .stop .help)]

def letters : List (Char × Switch) :=
  [('c', .setting .config), ('f', .setting .format), ('v', .flag .verbose),
   ('V', .stop .version), ('h', .stop .help)]

namespace Invocation

def empty : Invocation :=
  ⟨[], none, none, false, false, false⟩

def raise (invocation : Invocation) : Flag → Except Stop Invocation
  | .comments =>
      if invocation.comments then .error .refused else .ok { invocation with comments := true }
  | .metadata =>
      if invocation.metadata then .error .refused else .ok { invocation with metadata := true }
  | .verbose =>
      if invocation.verbose then .error .refused else .ok { invocation with verbose := true }

def set (invocation : Invocation) (setting : Setting) (value : Text) : Except Stop Invocation :=
  match setting with
  | .config =>
      if invocation.config.isSome || value.isEmpty then .error .refused
      else .ok { invocation with config := some value }
  | .format =>
      match OutputFormat.ofLabel? value with
      | none => .error .refused
      | some format =>
          if invocation.format.isSome then .error .refused
          else .ok { invocation with format := some format }

def addFile (invocation : Invocation) (path : Text) : Except Stop Invocation :=
  if path.isEmpty then .error .refused
  else .ok { invocation with files := invocation.files ++ [path] }

end Invocation

/-- The paths under which a run may look. -/
def Invocation.paths (invocation : Invocation) : List Text :=
  invocation.config.toList ++ invocation.files

/-- Standard input is read only when no file is named. -/
def Invocation.readsStdin (invocation : Invocation) : Bool :=
  invocation.files.isEmpty && !invocation.metadata

/-- A setting that waits for the next argument as its value. -/
abbrev Waiting := Option Setting

/-- Reads an argument that begins with two minus signs, behind them. -/
def readLong (invocation : Invocation) (body : Text) : Except Stop (Invocation × Waiting) :=
  let name := body.takeWhile (· ≠ '=')
  match longNames.lookup name, body.dropWhile (· ≠ '=') with
  | some (.flag flag), [] => (invocation.raise flag).map (·, none)
  | some (.setting setting), [] => .ok (invocation, some setting)
  | some (.setting setting), _ :: value => (invocation.set setting value).map (·, none)
  | some (.stop stop), [] => .error stop
  | _, _ => .error .refused

/-- Reads letters that were run together behind one minus sign. -/
def readLetters (invocation : Invocation) : Text → Except Stop (Invocation × Waiting)
  | [] => .ok (invocation, none)
  | c :: rest =>
      match letters.lookup c with
      | none => .error .refused
      | some (.stop stop) => .error stop
      | some (.flag flag) =>
          match invocation.raise flag with
          | .error stop => .error stop
          | .ok invocation => readLetters invocation rest
      | some (.setting setting) =>
          match rest with
          | [] => .ok (invocation, some setting)
          | '=' :: value => (invocation.set setting value).map (·, none)
          | value => (invocation.set setting value).map (·, none)

/-- Whether an argument cannot be the value of a setting before it. -/
def looksLikeOption : Text → Bool
  | '-' :: _ :: _ => true
  | _ => false

def readWaiting (invocation : Invocation) (setting : Setting) (argument : Text) :
    Except Stop Invocation :=
  if looksLikeOption argument then .error .refused else invocation.set setting argument

def readFiles (invocation : Invocation) : List Text → Except Stop Invocation
  | [] => .ok invocation
  | path :: rest =>
      match invocation.addFile path with
      | .error stop => .error stop
      | .ok invocation => readFiles invocation rest

/-- Reads one argument; none stands for the double minus. -/
def readArgument (invocation : Invocation) (argument : Text) :
    Option (Except Stop (Invocation × Waiting)) :=
  match argument with
  | ['-', '-'] => none
  | '-' :: '-' :: body => some (readLong invocation body)
  | '-' :: c :: rest => some (readLetters invocation (c :: rest))
  | path => some ((invocation.addFile path).map (·, none))

def readArguments (invocation : Invocation) (waiting : Waiting) :
    List Text → Except Stop Invocation
  | [] =>
      match waiting with
      | none => .ok invocation
      | some _ => .error .refused
  | argument :: rest =>
      match waiting with
      | some setting =>
          match readWaiting invocation setting argument with
          | .error stop => .error stop
          | .ok invocation => readArguments invocation none rest
      | none =>
          match readArgument invocation argument with
          | none => readFiles invocation rest
          | some (.error stop) => .error stop
          | some (.ok (invocation, waiting)) => readArguments invocation waiting rest

def invocation (arguments : List Text) : Except Stop Invocation :=
  readArguments .empty none arguments

end PseudocodeLexer.CommandLine
