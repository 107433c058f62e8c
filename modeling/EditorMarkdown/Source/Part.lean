import EditorMarkdown.Source.Emphasis
import EditorMarkdown.Source.Spot
import EditorMarkdown.Text.Reference

/-!
Inline content cut into parts, one line at a time. A part is a stretch of the source with a sign of
what may become of it: text, a character reference, a break between lines, or a character that may
belong to a code span, an emphasis, a link or a tag. What it becomes is settled once the whole block
is known.
-/

namespace EditorMarkdown.Source

/-- What a part may become. A hard break is escaped if a backslash makes it; escaped backticks
follow a backslash, so that the first of them is text; a closing bracket is fresh until a reference
it ends has failed. -/
inductive Sign where
  | text
  | value (characters : List Char)
  | softBreak
  | hardBreak (escaped : Bool)
  | run (run : Run)
  | ticks (count : Nat) (escaped : Bool)
  | angle
  | openBracket (image : Bool)
  | closeBracket (fresh : Bool)
  deriving DecidableEq, Repr, Inhabited

/-- A stretch of the source, by the offsets of its ends. -/
structure Part where
  start : Nat
  stop : Nat
  sign : Sign
  deriving DecidableEq, Repr, Inhabited

structure Content where
  source : Spot
  parts : List Part
  deriving Repr, Inhabited

def Content.empty : Content := ⟨.start [], []⟩

def Part.textBetween (start stop : Nat) : List Part :=
  if start < stop then [⟨start, stop, .text⟩] else []

def Part.after (stop : Nat) (parts : List Part) : List Part :=
  match parts.dropWhile fun part => part.stop ≤ stop with
  | [] => []
  | part :: rest => { part with start := max part.start stop } :: rest

/-! Lines. -/

/-- How a line of inline content ends: at a place where nothing follows in its block, or with a
break that counts if the block goes on. A backslash that makes the break is text if not. -/
inductive LineBreak where
  | none
  | soft (start : Nat)
  | hard (start : Nat)
  | backslash (start : Nat)
  deriving DecidableEq, Repr, Inhabited

/-- The parts of a line, the break at its end, and the place after it. -/
structure Line where
  parts : List Part
  lineBreak : LineBreak
  next : Spot
  deriving Repr, Inhabited

def Line.inner (line : Line) : List Part :=
  match line.lineBreak with
  | .none => line.parts
  | .soft start => line.parts ++ [⟨start, line.next.offset, .softBreak⟩]
  | .hard start => line.parts ++ [⟨start, line.next.offset, .hardBreak false⟩]
  | .backslash start => line.parts ++ [⟨start, line.next.offset, .hardBreak true⟩]

def Line.last (line : Line) : List Part :=
  match line.lineBreak with
  | .backslash start => line.parts ++ [⟨start, start + 1, .text⟩]
  | _ => line.parts

private structure Mark where
  sign : Sign
  length : Nat

private def isDelimiter (c : Char) : Bool := c = '*' || c = '_' || c = '~'

/-- How often the character `c` is repeated, given what follows its first occurrence. -/
private def repeats (c : Char) (rest : List Char) : Nat := (rest.takeWhile (· = c)).length + 1

private def runMark? (inCell : Bool) (before : Option Char) (c : Char) (rest : List Char) :
    Option Mark :=
  let length := repeats c rest
  let next :=
    match (rest.drop (length - 1)).head? with
    | some d => if inCell && d = '|' then none else some d
    | none => none
  let opens := canOpen c length before next
  let closes := canClose c length before next
  if (opens || closes) && (c ≠ '~' || length ≤ 2) then
    some ⟨.run ⟨c, length, opens, closes, []⟩, length⟩
  else none

private def mark? (inCell : Bool) (before : Option Char) (c : Char) (rest : List Char) :
    Option Mark :=
  if isDelimiter c then runMark? inCell before c rest
  else if c = '\x60' then some ⟨.ticks (repeats c rest) false, repeats c rest⟩
  else if c = '<' then if rest.head? = some '\\' then none else some ⟨.angle, 1⟩
  else if c = '!' then if rest.head? = some '[' then some ⟨.openBracket true, 2⟩ else none
  else if c = '[' then some ⟨.openBracket false, 1⟩
  else if c = ']' then some ⟨.closeBracket true, 1⟩
  else if c = '&' then
    (Text.readReference rest).map fun (characters, length) => ⟨.value characters, length + 1⟩
  else none

/-- What the reader of a line does at a character: it ends the line, or it adds parts and goes on.
Then `begun` is the start of the text that is not yet a part, `blanks` counts the blanks just
passed, and `wait` the characters after this one that it has dealt with. -/
private inductive Step where
  | ends (parts : List Part) (lineBreak : LineBreak) (next : Spot)
  | goesOn (parts : List Part) (begun blanks wait : Nat)

private def backslashStep (inCell : Bool) (offset begun : Nat) (rest : List Char) : Step :=
  let text := Part.textBetween begun offset
  match rest with
  | [] => .goesOn [] begun 0 0
  | d :: more =>
      match lineEnd? rest with
      | some length =>
          if inCell || (rest.drop length).isEmpty then .goesOn [] begun 0 0
          else .ends text (.backslash offset) ⟨offset + 1 + length, rest.drop length⟩
      | none =>
          if d = '\x60' then
            let count := (rest.takeWhile (· = d)).length
            let stop := offset + 1 + count
            .goesOn (text ++ [⟨offset + 1, stop, .ticks count true⟩]) stop 0 count
          else if inCell && d = '\\' && more.head? = some '|' then .goesOn text (offset + 2) 0 2
          else if Text.isAsciiPunctuation d then .goesOn text (offset + 1) 0 1
          else .goesOn [] begun 0 0

private def step (inCell : Bool) (offset begun blanks : Nat) (before : Option Char) (c : Char)
    (rest : List Char) : Step :=
  let trimmed := Part.textBetween begun (offset - blanks)
  match lineEnd? (c :: rest) with
  | some length =>
      let next : Spot := ⟨offset + length, (c :: rest).drop length⟩
      if inCell then .ends trimmed .none ⟨offset, c :: rest⟩
      else if 2 ≤ blanks then .ends trimmed (.hard (offset - blanks)) next
      else .ends trimmed (.soft (offset - blanks)) next
  | none =>
      if Text.isLineBlank c then .goesOn [] begun (blanks + 1) 0
      else if c = '\\' then backslashStep inCell offset begun rest
      else if inCell && c = '|' && before ≠ some '\\' then
        .ends trimmed .none ⟨offset, c :: rest⟩
      else
        match mark? inCell before c rest with
        | some mark =>
            let stop := offset + mark.length
            .goesOn (Part.textBetween begun offset ++ [⟨offset, stop, mark.sign⟩]) stop 0
              (mark.length - 1)
        | none => .goesOn [] begun 0 (if isDelimiter c then repeats c rest - 1 else 0)

/-- Reads on in a line with the parts before, the last one first. `before` is the character before
the place on its line. -/
private def readFrom (inCell : Bool) :
    Nat → Nat → Nat → Option Char → Nat → List Part → List Char → Line
  | offset, begun, blanks, _, _, parts, [] =>
      ⟨(Part.textBetween begun (offset - blanks) ++ parts).reverse, .none, ⟨offset, []⟩⟩
  | offset, begun, blanks, _, wait + 1, parts, c :: rest =>
      readFrom inCell (offset + 1) begun blanks (some c) wait parts rest
  | offset, begun, blanks, before, 0, parts, c :: rest =>
      match step inCell offset begun blanks before c rest with
      | .ends more lineBreak next => ⟨parts.reverse ++ more, lineBreak, next⟩
      | .goesOn more begun blanks wait =>
          readFrom inCell (offset + 1) begun blanks (some c) wait (more.reverse ++ parts) rest

/-- The line of inline content that begins at a place, with so many blanks before it. A line in a
table cell ends before a pipe that no backslash protects. -/
def Line.read (inCell : Bool) (blanks : Nat) (spot : Spot) : Line :=
  readFrom inCell spot.offset spot.offset blanks none 0 [] spot.rest

end EditorMarkdown.Source
