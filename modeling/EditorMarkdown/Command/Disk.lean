import EditorMarkdown.Command.Path

/-!
What the command needs of a disk: looking at paths, listing folders, reading and writing texts.
-/

namespace EditorMarkdown.Command

inductive DiskError where
  | notFound
  | taken
  | notFolder
  | isFolder
  | notText
  | other (message : String)
  deriving DecidableEq, Repr

def DiskError.message : DiskError → String
  | .notFound => "No such file or directory (os error 2)"
  | .taken => "File exists (os error 17)"
  | .notFolder => "Not a directory (os error 20)"
  | .isFolder => "Is a directory (os error 21)"
  | .notText => "stream did not contain valid UTF-8"
  | .other message => message

class Disk (m : Type → Type) where
  isFile : Path → m Bool
  isFolder : Path → m Bool
  /-- The files in a folder, and with `recursive` those in the folders inside it, each by the names
  that lead to it. -/
  filesIn : (recursive : Bool) → Path → m (List (List String))
  readText : Path → m (Except DiskError String)
  writeText : Path → String → m (Except DiskError Unit)
  makeFolder : Path → m (Except DiskError Unit)

end EditorMarkdown.Command
