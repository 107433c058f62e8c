import EditorMarkdown.Article.Json
import EditorMarkdown.Command.Failure
import EditorMarkdown.Command.Settings
import EditorMarkdown.Conversion.Standard
import EditorMarkdown.Json.Codec

/-!
Converting files: one file, or those in a folder.
-/

namespace EditorMarkdown.Command

open Conversion (Registry)

inductive Direction where
  | toJson
  | toMarkdown
  deriving DecidableEq, Repr

def Direction.ofPath? (path : Path) : Option Direction :=
  match path.extension?.map String.toLower with
  | some "md" | some "markdown" => some .toJson
  | some "json" => some .toMarkdown
  | _ => none

def Direction.extension : Direction → String
  | .toJson => "json"
  | .toMarkdown => "md"

def Settings.kept (settings : Settings) (article : Article) : Article :=
  if settings.frontMatter then article else { article with frontMatter := "" }

def Settings.frontMatterOf (settings : Settings) (article : Article) : Option String :=
  if settings.frontMatter then some article.frontMatter else none

def jsonOfMarkdownBy (codec : Json.Codec) (settings : Settings) (text : String) :
    Except Failure String :=
  match Article.ofText .standard settings.fixups text with
  | .error unknown => .error (.unknownType unknown)
  | .ok article => .ok (codec.write settings.pretty (settings.kept article).toJson ++ "\n")

def markdownOfJsonBy (codec : Json.Codec) (settings : Settings) (text : String) :
    Except Failure String :=
  match (codec.read? text).bind Article.ofJson? with
  | none => .error .notDocument
  | some article => .ok (article.document.toText .standard (settings.frontMatterOf article))

def jsonOfMarkdown (settings : Settings) (text : String) : Except Failure String :=
  jsonOfMarkdownBy .standard settings text

def markdownOfJson (settings : Settings) (text : String) : Except Failure String :=
  markdownOfJsonBy .standard settings text

def convertText (settings : Settings) (direction : Direction) (text : String) :
    Except Failure String :=
  match direction with
  | .toJson => jsonOfMarkdown settings text
  | .toMarkdown => markdownOfJson settings text

variable {m : Type → Type} [Monad m] [Disk m]

/-- Writes a text to a path in a folder that is made if it is missing. -/
def writeOutput (output : Path) (text : String) : m (Except Failure Unit) := do
  let parent := output.parent?.getD ⟨""⟩
  match ← Disk.makeFolder parent with
  | .error error => return .error (.noFolder parent error)
  | .ok () =>
      match ← Disk.writeText output text with
      | .error error => return .error (.unwritten output error)
      | .ok () => return .ok ()

def convertTo (settings : Settings) (direction : Direction) (input output : Path) :
    m (Except Failure Unit) := do
  match ← Disk.readText input with
  | .error error => return .error (.unread input error)
  | .ok text =>
      match convertText settings direction text with
      | .error failure => return .error failure
      | .ok converted => writeOutput output converted

def convertFile (settings : Settings) (input : Path) (output? : Option Path) :
    m (Except Failure Path) := do
  match Direction.ofPath? input with
  | none => return .error (.unsupported input)
  | some direction =>
      let output := output?.getD (input.withExtension direction.extension)
      match ← convertTo settings direction input output with
      | .error failure => return .error failure
      | .ok () => return .ok output

/-- A file of a run over a folder: where it is, where it goes, and which way. -/
structure Job where
  input : Path
  output : Path
  direction : Direction
  deriving DecidableEq, Repr

def insertNames (names : List String) : List (List String) → List (List String)
  | [] => [names]
  | other :: rest =>
      if other < names then other :: insertNames names rest else names :: other :: rest

def sortNames (files : List (List String)) : List (List String) := files.foldr insertNames []

/-- The jobs for the files of a folder, in the order of their names. -/
def jobsFor (input output : Path) (files : List (List String)) : List Job :=
  (sortNames files).filterMap fun names =>
    let file := input.join (.ofNames names)
    (Direction.ofPath? file).map fun direction =>
      let converted := (output.join (.ofNames names)).withExtension direction.extension
      ⟨file, converted, direction⟩

/-- The jobs that do not write over the input of another. -/
def safeJobs (jobs : List Job) : List Job :=
  jobs.filter fun job => !jobs.any fun other => other.input.same job.output

structure Tally where
  written : List Path
  failed : List (Path × Failure)
  deriving DecidableEq, Repr, Inhabited

def runJobs (settings : Settings) : List Job → m Tally
  | [] => return ⟨[], []⟩
  | job :: rest => do
      let result ← convertTo settings job.direction job.input job.output
      let tally ← runJobs settings rest
      match result with
      | .ok () => return { tally with written := job.output :: tally.written }
      | .error failure => return { tally with failed := (job.input, failure) :: tally.failed }

def convertFolder (settings : Settings) (recursive : Bool) (input : Path)
    (output? : Option Path) : m (Option Tally) := do
  let files ← Disk.filesIn recursive input
  let jobs := jobsFor input (output?.getD input) files
  if jobs.isEmpty then return none else return some (← runJobs settings (safeJobs jobs))

end EditorMarkdown.Command
