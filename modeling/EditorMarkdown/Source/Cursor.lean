import EditorMarkdown.Source.Spot

/-!
Places in a line with the columns of its blanks. Tabs reach to the next multiple of four columns,
and a tab may be used up in parts.
-/

namespace EditorMarkdown.Source

/-- A place in a line, how many characters lie between it and the tab stop before it, and how many
columns of a tab that was passed are still unused. -/
structure Cursor where
  spot : Spot
  column : Nat
  unused : Nat
  deriving Repr, Inhabited

namespace Cursor

def start (spot : Spot) : Cursor := ⟨spot, 0, 0⟩

def rest (cursor : Cursor) : List Char := cursor.spot.rest

private def takeFrom : List Char → Nat → Nat → Nat → Nat → Nat × Cursor
  | ' ' :: rest, offset, column, unused, want + 1 =>
      takeFrom rest (offset + 1) (column + 1) unused want
  | '\t' :: rest, offset, column, _, want + 1 =>
      let width := 4 - column % 4
      let taken := min width (want + 1)
      takeFrom rest (offset + 1) 0 (width - taken) (want + 1 - taken)
  | rest, offset, column, unused, want => (want, ⟨⟨offset, rest⟩, column, unused⟩)

/-- Takes up to `want` columns of blanks; also tells how many were missing. -/
def take (want : Nat) (cursor : Cursor) : Nat × Cursor :=
  let taken := min cursor.unused want
  takeFrom cursor.rest cursor.spot.offset cursor.column (cursor.unused - taken) (want - taken)

def upTo (most : Nat) (cursor : Cursor) : Nat × Cursor :=
  let (missing, next) := cursor.take most
  (most - missing, next)

def take? (want : Nat) (cursor : Cursor) : Option Cursor :=
  match cursor.take want with
  | (0, next) => some next
  | (_ + 1, _) => none

def drop (count : Nat) (cursor : Cursor) : Cursor :=
  { cursor with spot := cursor.spot.forward count, column := cursor.column + count }

def char? (c : Char) (cursor : Cursor) : Option Cursor :=
  if cursor.rest.head? = some c then some (cursor.drop 1) else none

def skipBlanks (cursor : Cursor) : Spot :=
  cursor.spot.forward (cursor.rest.takeWhile Text.isBlank).length

def atEnd (cursor : Cursor) : Bool := Source.atEnd cursor.rest

/-- The literal line that begins at a place, with the unused columns of a tab as spaces. -/
def literalLine (cursor : Cursor) : List Char × Spot := cursor.spot.literalLine cursor.unused

end Cursor

end EditorMarkdown.Source
