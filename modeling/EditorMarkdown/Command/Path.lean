/-!
Paths of files and folders. A path keeps its spelling; its components are what it is compared by.
-/

namespace EditorMarkdown.Command

structure Path where
  text : String
  deriving DecidableEq, Repr, Inhabited

inductive Component where
  | top
  | here
  | up
  | name (name : String)
  deriving DecidableEq, Repr, Inhabited

namespace Path

/-- The pieces of a text between its slashes; there is always at least one. -/
def splitSlashes : List Char → List (List Char)
  | [] => [[]]
  | c :: rest =>
      if c = '/' then [] :: splitSlashes rest
      else
        match splitSlashes rest with
        | [] => [[c]]
        | piece :: pieces => (c :: piece) :: pieces

def joinSlashes : List (List Char) → List Char
  | [] => []
  | [piece] => piece
  | piece :: next :: pieces => piece ++ '/' :: joinSlashes (next :: pieces)

def pieces (path : Path) : List (List Char) := splitSlashes path.text.toList

def isAbsolute (path : Path) : Bool := path.text.toList.head? = some '/'

/-- The component that a piece inside a path stands for; empty pieces and dots stand for none. -/
def innerComponent? (piece : List Char) : Option Component :=
  if piece.isEmpty || piece = ['.'] then none
  else if piece = ['.', '.'] then some .up
  else some (.name (String.ofList piece))

def firstComponent? (absolute : Bool) (piece : List Char) : Option Component :=
  if absolute then some .top
  else if piece = ['.'] then some .here
  else innerComponent? piece

/-- The components of a path. A dot counts only at the start. -/
def components (path : Path) : List Component :=
  match path.pieces with
  | [] => []
  | first :: rest =>
      (firstComponent? path.isAbsolute first).toList ++ rest.filterMap innerComponent?

def same (first second : Path) : Bool := first.components = second.components

def name? (path : Path) : Option String :=
  match path.components.getLast? with
  | some (.name name) => some name
  | _ => none

/-- What stands before and after the last dot of a name, the dot of a hidden name not counting. -/
def splitName? (name : List Char) : Option (List Char × List Char) :=
  let after := (name.reverse.takeWhile (· ≠ '.')).reverse
  let before := name.take (name.length - after.length - 1)
  if after.length = name.length || before.isEmpty then none else some (before, after)

def extension? (path : Path) : Option String :=
  (path.name?.bind fun name => splitName? name.toList).map fun (_, after) => String.ofList after

def join (path relative : Path) : Path :=
  if relative.isAbsolute || path.text.isEmpty then relative
  else if path.text.toList.getLast? = some '/' then ⟨path.text ++ relative.text⟩
  else ⟨path.text ++ "/" ++ relative.text⟩

def ofNames (names : List String) : Path :=
  ⟨String.ofList (joinSlashes (names.map String.toList))⟩

def trimPieces (pieces : List (List Char)) : List (List Char) :=
  (pieces.reverse.dropWhile fun piece => (innerComponent? piece).isNone).reverse

def replaceName (word : List Char) (path : Path) : List Char :=
  match path.pieces with
  | [] => word
  | first :: rest =>
      match trimPieces rest with
      | [] => word
      | inner => joinSlashes (first :: (inner.dropLast ++ [word]))

/-- A path that ends in a name with an extension in place of the last one of that name. -/
def setExtension (extension : String) (path : Path) : Path :=
  match path.name? with
  | none => path
  | some name =>
      let stem := ((splitName? name.toList).map (·.1)).getD name.toList
      ⟨String.ofList (path.replaceName stem ++ '.' :: extension.toList)⟩

/-- A path with another extension. The old extension is cut off first, so a path is left alone if
what remains of it does not end in a name any more. -/
def withExtension (extension : String) (path : Path) : Path :=
  match path.extension? with
  | none => path.setExtension extension
  | some old =>
      let text := path.text.toList
      let kept : Path := ⟨String.ofList (text.take (text.length - old.length))⟩
      kept.setExtension extension

/-- The path without its last component. A path at the top, and one without components, has no
parent. -/
def parent? (path : Path) : Option Path :=
  match path.pieces with
  | [] => none
  | first :: rest =>
      match trimPieces rest with
      | [] =>
          match firstComponent? path.isAbsolute first with
          | none | some .top => none
          | some _ => some ⟨""⟩
      | inner =>
          match trimPieces inner.dropLast with
          | [] => some (if path.isAbsolute then ⟨"/"⟩ else ⟨String.ofList first⟩)
          | kept => some ⟨String.ofList (joinSlashes (first :: kept))⟩

end Path

end EditorMarkdown.Command
