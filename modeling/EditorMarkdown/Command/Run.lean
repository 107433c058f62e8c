import EditorMarkdown.Command.Arguments
import EditorMarkdown.Command.Convert

/-!
The command: what it does for its arguments, what it prints, and how it ends.
-/

namespace EditorMarkdown.Command

structure Outcome where
  code : UInt8
  output : List String
  errors : List String
  deriving DecidableEq, Repr, Inhabited

namespace Outcome

def done (output : List String) : Outcome := ⟨0, output, []⟩

def failed (failure : Failure) : Outcome := ⟨1, [], failure.report⟩

end Outcome

def versionLine : String := "mdoc 0.1.0"

def helpLines : List String :=
  ["Convert markdown to editor document JSON and back",
    "",
    "Usage: mdoc [OPTIONS] [INPUT]",
    "",
    "Arguments:",
    "  [INPUT]  Input file (.md, .markdown or .json) or directory",
    "",
    "Options:",
    "  -o, --output <OUTPUT>    Output file or directory",
    "  -j, --jobs <JOBS>        Number of parallel jobs (defaults to number of CPUs)",
    "  -r, --recursive          Process directories recursively",
    "      --config <CONFIG>    Configuration file (defaults to _mdoc.toml next to the input)",
    "      --no-front-matter    Drop YAML front matter instead of carrying it through",
    "      --pretty             Pretty-print document JSON",
    "      --init               Write a sample configuration file and exit",
    "      --schema             Print the configuration JSON schema and exit",
    "  -v, --verbose            Verbose output",
    "  -q, --quiet              Quiet mode - only show errors",
    "  -h, --help               Print help",
    "  -V, --version            Print version",
    "",
    "Examples:",
    "  mdoc notes.md                     # Convert to notes.json",
    "  mdoc notes.json                   # Convert back to notes.md",
    "  mdoc notes.md -o doc.json         # Convert to specific output file",
    "  mdoc docs/ -o out/ -r             # Convert a directory tree",
    "  mdoc docs/ -o out/ -j4            # Use 4 parallel jobs",
    "  mdoc --init                       # Write a sample _mdoc.toml"]

def Refusal.outcome : Refusal → Outcome
  | .help => .done helpLines
  | .version => .done [versionLine]
  | .misused =>
      ⟨2, [], ["error: invalid arguments", "", "Usage: mdoc [OPTIONS] [INPUT]", "",
        "For more information, try '--help'."]⟩

variable {m : Type → Type} [Monad m] [Disk m]

def readConfiguration (path : Path) : m (Except Failure Configuration) := do
  match ← Disk.readText path with
  | .error error => return .error (.configurationUnread path error)
  | .ok text =>
      match Configuration.ofText? text with
      | none => return .error (.configurationInvalid path)
      | some configuration => return .ok configuration

/-- The folder whose configuration holds for an input: the input itself, or the folder it is in. -/
def configurationFolder (input : Path) (inputIsFolder : Bool) : Path :=
  if inputIsFolder then input
  else
    match input.parent? with
    | none => ⟨"."⟩
    | some parent => if parent.text.isEmpty then ⟨"."⟩ else parent

/-- The configuration that holds for an input: the file that is asked for, or the one in the folder
of the input, or none. -/
def findConfiguration (arguments : Arguments) (input : Path) :
    m (Except Failure Configuration) := do
  match arguments.configuration? with
  | some path => readConfiguration path
  | none =>
      let folder := configurationFolder input (← Disk.isFolder input)
      let path := folder.join ⟨Configuration.fileName⟩
      if ← Disk.isFile path then readConfiguration path else return .ok .empty

def writeSample (folder : Path) (quiet : Bool) : m Outcome := do
  let path := folder.join ⟨Configuration.fileName⟩
  if (← Disk.isFile path) || (← Disk.isFolder path) then
    return .failed (.configurationTaken path)
  else
    match ← Disk.writeText path Configuration.sample with
    | .error error => return .failed (.unwritten path error)
    | .ok () => return .done (if quiet then [] else [path.text])

def Tally.outcome (tally : Tally) (quiet : Bool) : Outcome :=
  let failures := tally.failed.map fun (path, failure) =>
    "Error converting " ++ path.text ++ ": " ++ failure.line
  let written := if quiet then [] else tally.written.map Path.text
  let summary :=
    if quiet then []
    else
      ["Converted " ++ toString tally.written.length ++ " files, " ++
        toString tally.failed.length ++ " failed"]
  if tally.failed.isEmpty then ⟨0, written, failures ++ summary⟩
  else ⟨1, written, failures ++ summary ++ (Failure.someFailed tally.failed.length).report⟩

def convertInput (arguments : Arguments) (settings : Settings) (input : Path) : m Outcome := do
  if ← Disk.isFile input then
    match ← convertFile settings input arguments.output? with
    | .error failure => return .failed failure
    | .ok output => return .done (if settings.quiet then [] else [output.text])
  else if ← Disk.isFolder input then
    match ← convertFolder settings (arguments.has .recursive) input arguments.output? with
    | none =>
        let line := "No markdown or JSON files found in " ++ input.text
        return ⟨0, [], if settings.quiet then [] else [line]⟩
    | some tally => return tally.outcome settings.quiet
  else return .failed (.noInput input)

def execute (arguments : Arguments) : m Outcome := do
  let quiet := arguments.has .quiet
  if arguments.has .schema then return .done [Configuration.schema.toPrettyText]
  else if arguments.has .sample then writeSample (arguments.input.getD ⟨"."⟩) quiet
  else
    match arguments.input with
    | none => return Refusal.misused.outcome
    | some input =>
        match ← findConfiguration arguments input with
        | .error failure => return .failed failure
        | .ok configuration =>
            convertInput arguments (arguments.resolve configuration) input

def run (words : List String) : m Outcome :=
  match Arguments.ofWords words with
  | .error refusal => return refusal.outcome
  | .ok arguments => execute arguments

end EditorMarkdown.Command
