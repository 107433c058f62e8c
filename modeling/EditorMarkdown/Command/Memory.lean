import EditorMarkdown.Command.Disk

/-!
A disk held in memory. A position is the list of the names that lead to it from the top.
-/

namespace EditorMarkdown.Command

abbrev Position := List String

inductive Item where
  | folder
  | file (bytes : ByteArray)

/-- The positions that are taken, and the folder that relative paths start from. -/
structure Memory where
  items : List (Position × Item)
  folder : Position

namespace Memory

def empty (folder : Position) : Memory where
  items := (List.range (folder.length + 1)).map fun count => (folder.take count, .folder)
  folder := folder

def item? (position : Position) (memory : Memory) : Option Item :=
  (memory.items.find? fun entry => entry.1 = position).map (·.2)

def put (position : Position) (item : Item) (memory : Memory) : Memory :=
  { memory with
    items := (position, item) :: memory.items.filter fun entry => entry.1 ≠ position }

def step (position : Position) (piece : List Char) (memory : Memory) :
    Except DiskError Position :=
  match memory.item? position with
  | none => .error .notFound
  | some (.file _) => .error .notFolder
  | some .folder =>
      match Path.innerComponent? piece with
      | some (.name name) => .ok (position ++ [name])
      | some .up => .ok position.dropLast
      | _ => .ok position

def walk (memory : Memory) : Position → List (List Char) → Except DiskError Position
  | position, [] => .ok position
  | position, piece :: rest =>
      match memory.step position piece with
      | .error error => .error error
      | .ok next => walk memory next rest

def start (path : Path) (memory : Memory) : Position :=
  if path.isAbsolute then [] else memory.folder

/-- The position of a path; there may be nothing at it. -/
def locate (path : Path) (memory : Memory) : Except DiskError Position :=
  if path.text.isEmpty then .error .notFound
  else memory.walk (memory.start path) path.pieces

def at? (path : Path) (memory : Memory) : Option Item :=
  match memory.locate path with
  | .ok position => memory.item? position
  | .error _ => none

def isFile (path : Path) (memory : Memory) : Bool :=
  match memory.at? path with
  | some (.file _) => true
  | _ => false

def isFolder (path : Path) (memory : Memory) : Bool :=
  match memory.at? path with
  | some .folder => true
  | _ => false

/-- The names after `position` if a longer position starts with it. -/
def namesAfter? : Position → Position → Option Position
  | [], [] => none
  | [], names => some names
  | _ :: _, [] => none
  | first :: rest, second :: others => if first = second then namesAfter? rest others else none

def filesIn (recursive : Bool) (path : Path) (memory : Memory) : List (List String) :=
  match memory.locate path with
  | .error _ => []
  | .ok position =>
      memory.items.filterMap fun entry =>
        match entry.2 with
        | .folder => none
        | .file _ =>
            (namesAfter? position entry.1).filter fun names => recursive || names.length = 1

def readText (path : Path) (memory : Memory) : Except DiskError String :=
  match memory.locate path with
  | .error error => .error error
  | .ok position =>
      match memory.item? position with
      | none => .error .notFound
      | some .folder => .error .isFolder
      | some (.file bytes) =>
          match String.fromUTF8? bytes with
          | some text => .ok text
          | none => .error .notText

def writeText (path : Path) (text : String) (memory : Memory) : Except DiskError Memory :=
  match memory.locate path with
  | .error error => .error error
  | .ok position =>
      match memory.item? position with
      | some .folder => .error .isFolder
      | _ => .ok (memory.put position (.file text.toUTF8))

/-- Follows a path from a position and makes the folders that are missing; `made` tells whether one
was. As long as none was, a file on the way is only no folder. From then on folders are made one by
one, and a file is in the place of one; those that were made by then stay. -/
def makeFrom (memory : Memory) (made : Bool) :
    Position → List (List Char) → Except DiskError Unit × Memory
  | _, [] => (.ok (), memory)
  | position, piece :: rest =>
      match memory.step position piece with
      | .error error => (.error error, memory)
      | .ok next =>
          match memory.item? next with
          | none => makeFrom (memory.put next .folder) true next rest
          | some .folder => makeFrom memory made next rest
          | some (.file _) => (.error (if made || rest.isEmpty then .taken else .notFolder), memory)

def makeFolder (path : Path) (memory : Memory) : Except DiskError Unit × Memory :=
  if path.text.isEmpty then (.ok (), memory)
  else memory.makeFrom false (memory.start path) path.pieces

end Memory

instance : Disk (StateM Memory) where
  isFile path := fun memory => (memory.isFile path, memory)
  isFolder path := fun memory => (memory.isFolder path, memory)
  filesIn recursive path := fun memory => (memory.filesIn recursive path, memory)
  readText path := fun memory => (memory.readText path, memory)
  writeText path text := fun memory =>
    match memory.writeText path text with
    | .ok written => (.ok (), written)
    | .error error => (.error error, memory)
  makeFolder path := Memory.makeFolder path

end EditorMarkdown.Command
