import EditorMarkdown.Command.Run

/-!
The program: the command on the disk of the system.
-/

namespace EditorMarkdown.Command

private def located (path : Path) := do
  return (← IO.currentDir) / path.text

private def diskError : IO.Error → DiskError
  | .noFileOrDirectory _ _ _ => .notFound
  | .alreadyExists _ _ _ => .taken
  | error => .other (toString error)

private def attempt (action : IO α) : IO (Except DiskError α) := do
  try
    return .ok (← action)
  catch error =>
    return .error (diskError error)

/-- The files in a folder, each by the names that lead to it from there. -/
private partial def list (recursive : Bool) (folder : Path) (names : List String) :
    IO (List (List String)) := do
  let mut found := []
  for entry in ← (← located folder).readDir do
    let path := folder.join ⟨entry.fileName⟩
    let names := names ++ [entry.fileName]
    let file ← located path
    if ← file.isDir then
      if recursive then found := found ++ (← list recursive path names)
    else if ← file.pathExists then found := found ++ [names]
  return found

instance : Disk IO where
  isFile path := do
    let file ← located path
    return (← file.pathExists) && !(← file.isDir)
  isFolder path := do return ← (← located path).isDir
  filesIn recursive path := list recursive path []
  readText path := do
    match ← attempt (do IO.FS.readBinFile (← located path)) with
    | .error error => return .error error
    | .ok bytes =>
        match String.fromUTF8? bytes with
        | some text => return .ok text
        | none => return .error .notText
  writeText path text := attempt (do IO.FS.writeFile (← located path) text)
  makeFolder path :=
    if path.text.isEmpty then return .ok ()
    else attempt (do IO.FS.createDirAll (← located path))

end EditorMarkdown.Command

def main (words : List String) : IO UInt32 := do
  let outcome : EditorMarkdown.Command.Outcome ← EditorMarkdown.Command.run words
  for line in outcome.output do
    IO.println line
  for line in outcome.errors do
    IO.eprintln line
  return outcome.code.toUInt32
