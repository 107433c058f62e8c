import EditorMarkdown.Source.Block

/-!
Blocks that hold inline content: paragraphs with the definitions before them, headings and tables.
One unit of fuel for each character that is left of the text is enough for each reader.
-/

namespace EditorMarkdown.Source

open Markdown (Align)

namespace State

/-- The alignments of the table whose header row begins at a place, and the place after its
delimiter row. -/
private def tableHead? (state : State) (spot : Spot) : Option (List (Option Align) × Spot) :=
  match headerColumns? spot.rest with
  | none => none
  | some columns =>
      let line := (lineOf spot.rest).length
      let next := spot.forward (line + (lineEnd? (spot.rest.drop line)).getD 0)
      (state.passAll? next).bind fun inner =>
        match delimiterRow? inner.rest with
        | some (align, length) =>
            if align.length = columns then some (align, inner.spot.forward length) else none
        | none => none

private def rowCells : Nat → Spot → List Content × Spot
  | 0, spot => ([], spot)
  | fuel + 1, spot =>
      let inner := if spot.rest.head? = some '|' then spot.forward 1 else spot
      let start := inner.forward (inner.rest.takeWhile Text.isLineBlank).length
      match lineEnd? start.rest with
      | some length => ([], start.forward length)
      | none =>
          let line := Line.read true 0 start
          let (cells, last) := rowCells fuel line.next
          (⟨start.within line.next.offset, line.last⟩ :: cells, last)

/-- Cells to the number of columns: missing ones are empty and further ones are dropped. -/
private def fitCells (columns : Nat) (cells : List Content) : List Content :=
  cells.take columns ++ List.replicate (columns - cells.length) .empty

/-- The rows of a table, each a line that starts no other block, and the place after them. -/
private def tableRows (state : State) (columns : Nat) : Nat → Spot → List (List Content) × Spot
  | 0, spot => ([], spot)
  | fuel + 1, spot =>
      match state.passAll? spot with
      | none => ([], spot)
      | some inner =>
          let start := inner.skipBlanks
          let (cells, next) := rowCells ((lineOf start.rest).length + 1) start
          if interruptsParagraph false start.rest || cells.isEmpty then ([], spot)
          else
            let (rows, last) := tableRows state columns fuel next
            (fitCells columns cells :: rows, last)

private def interruptsAsTable (state : State) (spot : Spot) : Bool :=
  spot.rest.head? = some '|' && (state.tableHead? spot).isSome

/-- The parts of a paragraph that begins after some blanks, the depth of the heading that its last
line makes it, and the place after it. -/
private def paragraphParts (state : State) : Nat → Nat → Spot → List Part × Option Nat × Spot
  | 0, _, spot => ([], none, spot)
  | fuel + 1, blanks, spot =>
      let line := Line.read false blanks spot
      let (same, cursor) := state.pass line.next
      let next := (cursor.upTo 4).2
      let shallow := (cursor.take? 4).isNone
      match if shallow && same then underline? next.rest else none with
      | some (depth, length) => (line.last, some depth, next.spot.forward length)
      | none =>
          let inner := next.skipBlanks
          let ends :=
            atEnd inner.rest ||
              shallow && (interruptsParagraph same next.rest || state.interruptsAsTable next.spot)
          if ends then (line.last, none, line.next)
          else
            let blanks := line.next.blanksBefore inner.offset
            let (parts, last) := paragraphParts state fuel blanks inner
            (line.inner ++ parts, last)

def readText (state : State) (fuel : Nat) (task : Option Bool) (blanks : Nat) (spot : Spot) :
    State × Spot :=
  match if endsEscaped spot.rest then none else state.tableHead? spot with
  | some (align, body) =>
      let columns := align.length
      let (head, _) := rowCells ((lineOf spot.rest).length + 1) spot
      let (rows, next) := state.tableRows columns fuel body
      (state.add (.table align (fitCells columns head) rows), next)
  | none =>
      let state :=
        match task with
        | some checked => state.add (.task checked)
        | none => state
      let (parts, depth, next) := state.paragraphParts fuel blanks spot
      let content : Content := ⟨spot.within next.offset, parts⟩
      match depth with
      | some depth => (state.add (.heading depth content), next)
      | none => (state.add (.paragraph content), next)

/-- The place where the content of a further line of a definition begins. There is none if a
paragraph could not go on with the line. -/
def enterLine? (state : State) (line : Spot) : Option Spot :=
  let (same, cursor) := state.pass line
  let next := (cursor.upTo 4).2
  let interrupted :=
    (cursor.take? 4).isNone &&
      (interruptsParagraph same next.rest || (same && (underline? next.rest).isSome))
  if interrupted then none else some next.spot

def readDefinitions : Nat → State → Nat → Spot → State × Spot
  | 0, state, _, spot => (state, spot)
  | fuel + 1, state, blanks, spot =>
      match definition? state.enterLine? spot with
      | none => state.readText fuel none blanks spot
      | some (definition, next) =>
          let state := { state with definitions := definition :: state.definitions }
          let line := next.skipBlankLine
          let (same, cursor) := state.pass line
          let next := (cursor.upTo 4).2
          let inner := next.skipBlanks
          if atEnd inner.rest || ((cursor.take? 4).isNone && interruptsParagraph same next.rest)
          then (state, line)
          else readDefinitions fuel state (line.blanksBefore inner.offset) inner

/-- The content of a heading whose text begins at a place, and the place after it. A closing run of
number signs belongs to the text only if no space stands before it; otherwise, and if nothing else
is there, it is left out. -/
def headingContent (spot : Spot) : Content × Spot :=
  let line := Line.read false 0 spot
  let source := spot.within line.next.offset
  let text := Text.trimEndWhile (fun c => c = ' ' || c = '\n' || c = '\r') source.rest
  let body := Text.trimEndWhile (· = '#') text
  let stop :=
    if body.getLast? = some ' ' then (Text.trimEndWhile (· = ' ') body).length else text.length
  let parts :=
    match line.last.reverse with
    | [] => []
    | part :: before => ({ part with stop := spot.offset + stop } :: before).reverse
  (⟨source, if body.isEmpty then [] else parts⟩, line.next)

end State

end EditorMarkdown.Source
