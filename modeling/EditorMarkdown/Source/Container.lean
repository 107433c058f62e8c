import EditorMarkdown.Source.Cursor

/-!
The containers of blocks, and the marks with which a line goes on with them.
-/

namespace EditorMarkdown.Source

/-- A block that holds blocks. An item is indented by the columns its marker takes. -/
inductive Container where
  | quote
  | list (tight : Bool) (marker : Char) (number : Nat)
  | item (indent : Nat)
  deriving DecidableEq, Repr, Inhabited

/-- The place after a quote marker and the column of blanks it takes. -/
def quoteMarker? (cursor : Cursor) : Option Cursor :=
  ((cursor.upTo 3).2.char? '>').map fun next => (next.take 1).2

namespace Container

/-- How many of some containers, outermost first, a line continues, and the place after their
marks. A list is continued by anything; its items are what ends. -/
def pass : List Container → Cursor → Nat × Cursor
  | [], cursor => (0, cursor)
  | .quote :: rest, cursor =>
      match quoteMarker? cursor with
      | some next => ((pass rest next).1 + 1, (pass rest next).2)
      | none => (0, cursor)
  | .list _ _ _ :: rest, cursor => ((pass rest cursor).1 + 1, (pass rest cursor).2)
  | .item indent :: rest, cursor =>
      let (missing, next) := cursor.take indent
      if missing = 0 || next.atEnd then ((pass rest next).1 + 1, (pass rest next).2)
      else (0, cursor)

def skipMarks (containers : List Container) (spot : Spot) : Spot :=
  (pass containers (.start spot)).2.spot

end Container

/-! The text within containers. -/

/-- A text with the offset after each of its characters. -/
abbrev View := List (Char × Nat)

def View.text (view : View) : List Char := view.map Prod.fst

/-- The offset after the first `count` characters of a view that begins at `start`. -/
def View.stop (start count : Nat) (view : View) : Nat :=
  ((view.take count).getLast?.map Prod.snd).getD start

private def viewFrom (containers : List Container) : Nat → Spot → View
  | 0, _ => []
  | fuel + 1, spot =>
      match spot.rest with
      | [] => []
      | c :: rest =>
          let next := spot.forward 1
          let inner :=
            if c = '\n' || (c = '\r' && rest.head? ≠ some '\n') then
              Container.skipMarks containers next
            else next
          (c, next.offset) :: viewFrom containers fuel inner

/-- The text at a place without the marks that its lines begin with. -/
def Spot.inside (containers : List Container) (spot : Spot) : View :=
  viewFrom containers spot.rest.length spot

end EditorMarkdown.Source
