import EditorMarkdown.Markdown.Kind
import EditorMarkdown.Source.Container
import EditorMarkdown.Source.Tag
import EditorMarkdown.Text.Lines

/-!
What the start of a line opens. Every function looks at the text that follows the containers and the
indentation of a line.
-/

namespace EditorMarkdown.Source

open Markdown (Align)

/-- How many times a character is repeated at the start of a text. -/
def runLength (c : Char) (text : List Char) : Nat := (text.takeWhile (· = c)).length

def lineOf (text : List Char) : List Char := text.takeWhile fun c => c ≠ '\n' && c ≠ '\r'

def isRule (text : List Char) : Bool :=
  match text with
  | [] => false
  | c :: _ =>
      let line := lineOf text
      (c = '*' || c = '-' || c = '_') &&
        line.all (fun d => d = c || Text.isBlank d) && 3 ≤ line.count c

def headingDepth? (text : List Char) : Option Nat :=
  let depth := runLength '#' text
  let ended :=
    match text.drop depth with
    | [] => true
    | c :: _ => Text.isAsciiBlank c
  if 1 ≤ depth && depth ≤ 6 && ended then some depth else none

/-- The depth of the heading that a line makes of the paragraph above it, and the length of the
line. -/
def underline? (text : List Char) : Option (Nat × Nat) :=
  match text with
  | [] => none
  | c :: _ =>
      if c = '=' || c = '-' then
        let length := runLength c text
        (blankLine? (text.drop length)).map fun blanks =>
          (if c = '=' then 1 else 2, length + blanks)
      else none

/-- The fence of a code block: its character and how often it is repeated. -/
structure Fence where
  char : Char
  length : Nat
  deriving DecidableEq, Repr, Inhabited

/-- The fence that a line opens; the rest of a line of backticks holds no backtick. -/
def fence? (text : List Char) : Option Fence :=
  match text with
  | [] => none
  | c :: _ =>
      let length := runLength c text
      let info := (text.drop length).takeWhile (· ≠ '\n')
      if (c = '\x60' || c = '~') && 3 ≤ length && (c = '~' || !info.contains '\x60') then
        some ⟨c, length⟩
      else none

/-- The length of a fence that closes a code block. The end of the text closes it too. -/
def Fence.closedBy? (fence : Fence) (text : List Char) : Option Nat :=
  let length := runLength fence.char text
  let blanks := runLength ' ' (text.drop length)
  if text.isEmpty then some 0
  else if fence.length ≤ length && atEnd (text.drop (length + blanks)) then some (length + blanks)
  else none

structure Marker where
  char : Char
  number : Nat
  length : Nat
  deriving DecidableEq, Repr, Inhabited

/-- The list marker at the start of a line, whatever follows it. -/
def marker? (text : List Char) : Option Marker :=
  match text with
  | [] => none
  | c :: _ =>
      if c = '-' || c = '+' || c = '*' then some ⟨c, 0, 1⟩
      else
        let digits := (text.take 9).takeWhile Char.isDigit
        match text.drop digits.length with
        | d :: _ =>
            if !digits.isEmpty && (d = '.' || d = ')') then
              some ⟨d, digits.foldl (fun n e => n * 10 + (e.toNat - '0'.toNat)) 0,
                digits.length + 1⟩
            else none
        | [] => none

def Marker.isBullet (marker : Marker) : Bool :=
  marker.char = '-' || marker.char = '+' || marker.char = '*'

/-- Whether a line starts a list item that may end the paragraph above it. -/
def interruptsAsItem (sameContainer : Bool) (text : List Char) : Bool :=
  match marker? text with
  | none => false
  | some marker =>
      let rest := text.drop marker.length
      let separated :=
        match rest with
        | [] => true
        | c :: _ => Text.isBlank c || c = '\n' || c = '\r'
      separated &&
        (!sameContainer || ((marker.isBullet || marker.number = 1) && !isBlankLine rest))

/-- Whether a line starts a block that ends the paragraph above it, tables apart. -/
def interruptsParagraph (sameContainer : Bool) (text : List Char) : Bool :=
  atEnd text || isRule text || (headingDepth? text).isSome || (fence? text).isSome ||
    text.head? = some '>' || interruptsAsItem sameContainer text ||
    (match text with
      | '<' :: rest => (literalHtmlEnd? rest).isSome || opensBlockElement rest
      | _ => false)

/-! The marker of a task item. -/

/-- The state that a task marker after a list marker sets, and the place after the marker.
Blank space has to follow it. -/
def taskMarker? (cursor : Cursor) : Option (Bool × Cursor) :=
  let next := (cursor.upTo 3).2
  match next.rest with
  | '[' :: c :: ']' :: d :: _ =>
      if Text.isAsciiBlank d then
        if c = 'x' || c = 'X' then some (true, next.drop 3)
        else if Text.isLineBlank c then some (false, next.drop 3)
        else none
      else none
  | _ => none

/-! Tables. -/

/-- The reading of a delimiter row: the columns so far, the last one first, the alignment of the
open column, whether the column has begun, whether it has a hyphen, and whether the row has a pipe
and a hyphen. -/
private structure Delimiters where
  columns : List (Option Align)
  align : Option Align
  begun : Bool
  hyphen : Bool
  anyPipe : Bool
  anyHyphen : Bool

private def Delimiters.step (row : Delimiters) (c : Char) : Option Delimiters :=
  if c = ' ' then some row
  else if c = ':' then
    let align :=
      match row.begun, row.align with
      | false, none => some .left
      | true, some .left => some .center
      | true, none => some .right
      | _, align => align
    some { row with align := align, begun := true }
  else if c = '-' then some { row with begun := true, hyphen := true, anyHyphen := true }
  else if c = '|' then
    if row.hyphen then
      some ⟨row.align :: row.columns, none, false, false, true, row.anyHyphen⟩
    else none
  else none

/-- The alignments of the delimiter row that a line is, and the length of the line. It is indented
by three spaces at most. -/
def delimiterRow? (text : List Char) : Option (List (Option Align) × Nat) :=
  let indent := runLength ' ' text
  let line := lineOf (text.drop indent)
  let body := if line.head? = some '|' then line.drop 1 else line
  match body.foldlM Delimiters.step ⟨[], none, false, false, line.head? = some '|', false⟩ with
  | some row =>
      if row.anyPipe && row.anyHyphen && indent < 4 then
        let length := indent + line.length
        some ((if row.begun then row.align :: row.columns else row.columns).reverse,
          length + (lineEnd? (text.drop length)).getD 0)
      else none
  | none => none

/-- How many pipes of a line have no backslash before them, and whether nothing but blanks follows
the last. -/
private def countPipes : Nat → Bool → List Char → Nat × Bool
  | count, last, [] => (count, last)
  | count, _, '\\' :: c :: rest =>
      if c = '|' then countPipes count false rest else countPipes count false (c :: rest)
  | count, last, c :: rest =>
      if c = '|' then countPipes (count + 1) true rest
      else countPipes count (last && Text.isLineBlank c) rest

def headerColumns? (text : List Char) : Option Nat :=
  let line := lineOf text
  match countPipes 0 false line with
  | (0, _) => none
  | (count + 1, last) =>
      let inner := if (line.dropWhile Text.isLineBlank).head? = some '|' then count else count + 1
      some (if last then inner else inner + 1)

def endsEscaped (text : List Char) : Bool :=
  ((lineOf text).reverse.takeWhile (· = '\\')).length % 2 = 1

/-! Metadata. -/

private def isTriple (c : Char) (allowed : Char → Bool) (text : List Char) : Bool :=
  runLength c text = 3 && atEnd ((text.drop 3).dropWhile allowed)

def closesMetadata (text : List Char) : Bool :=
  isTriple '-' (· = ' ') text || isTriple '.' (· = ' ') text

private def metadataEnds : Nat → List Char → Bool
  | 0, _ => false
  | fuel + 1, text =>
      !text.isEmpty && (closesMetadata text || metadataEnds fuel (text.drop (lineLength text)))

/-- Whether a line opens a metadata block. The line after it is neither blank nor the end of the
block, and one of the lines that follow ends it. -/
def opensMetadata (text : List Char) : Bool :=
  let line := text.take (lineLength text)
  let rest := text.drop line.length
  runLength '-' text = 3 &&
    (line.drop 3).all (fun c => Text.isAsciiBlank c && c ≠ '\x0b') &&
    !closesMetadata rest && !isBlankLine rest && metadataEnds rest.length rest

end EditorMarkdown.Source
