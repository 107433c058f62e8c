import EditorMarkdown.Source.Block

/-!
Blocks whose lines are taken literally. Each reader gives the lines of its block with the place
after it. One unit of fuel for each character that is left of the text is enough.
-/

namespace EditorMarkdown.Source

namespace State

def indentedLines (state : State) :
    Nat → Bool → Cursor → List (List Char) × Bool × Spot
  | 0, blank, cursor => ([], blank, cursor.spot)
  | fuel + 1, blank, cursor =>
      let (line, next) := cursor.literalLine
      let inner :=
        (state.passAll? next).bind fun passed =>
          let (missing, inner) := passed.take 4
          if (missing = 0 || inner.atEnd) && !inner.rest.isEmpty then some inner else none
      match inner with
      | none => ([line], blank, next)
      | some inner =>
          let (lines, last) := indentedLines state fuel (isBlankLine inner.rest) inner
          (line :: lines, last)

def fencedLines (state : State) (fence : Fence) (indent : Nat) :
    Nat → Spot → List (List Char) × Spot
  | 0, spot => ([], spot)
  | fuel + 1, spot =>
      match state.passAll? spot with
      | none => ([], spot)
      | some passed =>
          let inner := (passed.take indent).2
          let close := (inner.upTo (4 - indent)).2
          let closing :=
            if (inner.take? (4 - indent)).isSome then none else fence.closedBy? close.rest
          match closing with
          | some length => ([], close.spot.forward length)
          | none =>
              let (line, next) := inner.literalLine
              let (lines, last) := fencedLines state fence indent fuel next
              (line :: lines, last)

def metadataLines (state : State) : Nat → Spot → List (List Char) × Spot
  | 0, spot => ([], spot)
  | fuel + 1, spot =>
      match state.passAll? spot with
      | none => ([], spot)
      | some passed =>
          if closesMetadata spot.rest then
            ([], spot.forward (3 + runLength ' ' (spot.rest.drop 3)))
          else
            let (line, next) := passed.literalLine
            let (lines, last) := metadataLines state fuel next
            (line :: lines, last)

def htmlLines (state : State) (close : HtmlEnd) :
    Nat → Nat → Spot → List (List Char) × Spot
  | 0, _, spot => ([], spot)
  | fuel + 1, blanks, spot =>
      let (line, next) := spot.literalLine blanks
      match state.passAll? next with
      | none => ([line], next)
      | some inner =>
          let closed :=
            match close with
            | .within text => Text.containsPart text.toList line
            | .beforeBlank => inner.atEnd
          if closed then ([line], next)
          else if inner.rest.isEmpty || (close = .beforeBlank && isBlankLine inner.rest) then
            ([line], inner.spot)
          else
            let (lines, last) := htmlLines state close fuel inner.unused inner.spot
            (line :: lines, last)

end State

end EditorMarkdown.Source
