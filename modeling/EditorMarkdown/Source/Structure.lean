import EditorMarkdown.Source.Literal
import EditorMarkdown.Source.Paragraph

/-!
The block structure of a source text. A line first passes the containers it continues, then it may
open new ones, and what is left of it starts a leaf, which takes in the lines that belong to it.
-/

namespace EditorMarkdown.Source

namespace State

/-! Opening containers. -/

/-- What is left of a line once it has opened its containers: nothing, the start of a task item, or
content. -/
inductive Rest where
  | done (state : State) (next : Spot)
  | task (checked : Bool) (state : State) (next : Spot)
  | content (state : State) (cursor : Cursor)

/-- The item that a line opens: its marker, the columns that its content is indented by, and the
place of the content. -/
private def itemStart? (indent : Nat) (cursor : Cursor) : Option (Marker × Nat × Cursor) :=
  match marker? cursor.rest with
  | none => none
  | some marker =>
      if marker.isBullet && isRule cursor.rest then none
      else
        let (missing, next) := (cursor.drop marker.length).take 1
        if missing = 0 || next.atEnd then
          let indent := indent + marker.length + 1
          if isBlankLine next.rest then some (marker, indent, next)
          else
            let (more, content) := next.upTo 4
            if more < 4 then some (marker, indent + more, content) else some (marker, indent, next)
        else none

private def openContainers : Nat → State → Cursor → Rest
  | 0, state, cursor => .content state cursor
  | fuel + 1, state, cursor =>
      let (indent, next) := cursor.upTo 4
      if 4 ≤ indent then .content state cursor
      else
        match itemStart? indent next with
        | some (marker, indent, content) =>
            let state := (state.continueList marker).push (.item indent)
            if isBlankLine content.rest then
              .done { state with bare := true } content.spot.skipBlankLine
            else
              match taskMarker? content with
              | some (checked, after) =>
                  if isBlankLine after.rest then
                    .done { state.add (.task checked) with bare := true } after.spot.skipBlankLine
                  else .task checked state after.skipBlanks
              | none => openContainers fuel state content
        | none =>
            match quoteMarker? next with
            | some content => openContainers fuel (state.finishList.push .quote) content
            | none => .content state cursor

/-! Blocks. -/

private def htmlStart? (text : List Char) : Option HtmlEnd :=
  match text with
  | '<' :: rest =>
      match literalHtmlEnd? rest with
      | some close => some close
      | none => if opensBlockElement rest || isLoneTag rest then some .beforeBlank else none
  | _ => none

private def readFenced (state : State) (fuel : Nat) (fence : Fence) (indent : Nat) (spot : Spot) :
    State × Spot :=
  let length := lineLength spot.rest
  let info := Text.trimWhile Text.isAsciiBlank ((spot.rest.take length).drop fence.length)
  let state := state.finishList
  let (lines, next) := state.fencedLines fence indent fuel (spot.forward length)
  (state.add (.code (some (Text.unescape false info)) lines), next.skipBlankLine)

private def readLeaf (state : State) (fuel : Nat) (cursor : Cursor) : State × Spot :=
  let (indent, next) := cursor.upTo 4
  let spot := next.spot
  let state := state.finishList
  if indent = 4 then
    let (lines, blank, last) := state.indentedLines fuel false next
    let code := (lines.reverse.dropWhile isBlankLine).reverse
    ({ state.add (.code none code) with blank := blank }, last)
  else if indent = 0 && opensMetadata spot.rest then
    let (lines, last) := state.metadataLines fuel (spot.forward (lineLength spot.rest))
    (state.add (.metadata lines), last.skipBlankLine)
  else
    match htmlStart? spot.rest with
    | some close =>
        let (lines, last) := state.htmlLines close fuel (max cursor.unused indent) spot
        (state.add (.html lines), last)
    | none =>
        if isRule spot.rest then
          let line := (lineOf spot.rest).length
          (state.add .rule, (spot.forward line).skipBlankLine)
        else
          match headingDepth? spot.rest, fence? spot.rest with
          | some depth, _ =>
              let inner := spot.forward depth
              let start := inner.forward (inner.rest.takeWhile Text.isLineBlank).length
              let (content, last) := headingContent start
              (state.add (.heading depth content), last)
          | none, some fence => state.readFenced fuel fence indent spot
          | none, none => readDefinitions fuel state 0 spot

def read (state : State) (fuel : Nat) (spot : Spot) : State × Spot :=
  let containers := state.containers
  let (count, cursor) := Container.pass containers (.start spot)
  let state := state.popMany (containers.length - count)
  match openContainers fuel state cursor with
  | .done state next => (state, next)
  | .task checked state next => state.finishList.readText fuel (some checked) 0 next
  | .content state cursor =>
      if isBlankLine cursor.rest then (state.addBlank, cursor.spot.skipBlankLine)
      else state.readLeaf fuel cursor

/-- Reads blocks to the end of the text, with fuel for each character that is left and one more. -/
def run : Nat → State → Spot → State
  | 0, state, _ => state
  | fuel + 1, state, spot =>
      if spot.rest.isEmpty then state
      else
        let (state, next) := state.read (fuel + 1) spot
        run fuel state next

end State

/-- The blocks of a text and the definitions in it, in order. -/
def blocks (text : List Char) : List Block × List Definition :=
  let state := State.empty.run (text.length + 1) (.start text)
  ((state.popMany state.spine.length).blocks.reverse, state.definitions.reverse)

end EditorMarkdown.Source
