import EditorMarkdown.Writer.Escape

/-!
The text written so far and whether the next character starts a line.
-/

namespace EditorMarkdown.Writer

/-- The text written so far. The start of a heading counts as the start of a line too, and the text
after the marker of a callout does not, so `atLineStart` is not read off the text. -/
structure Buffer where
  text : List Char
  atLineStart : Bool
  deriving DecidableEq, Repr, Inhabited

namespace Buffer

def empty : Buffer := ⟨[], true⟩

/-- Nothing written, in the middle of a line or at its start. -/
def fresh (atLineStart : Bool) : Buffer := ⟨[], atLineStart⟩

def push (piece : List Char) (buffer : Buffer) : Buffer :=
  match piece.getLast? with
  | none => buffer
  | some c => ⟨buffer.text ++ piece, c = '\n'⟩

@[simp] theorem push_nil (buffer : Buffer) : buffer.push [] = buffer := rfl

@[simp] theorem text_push (piece : List Char) (buffer : Buffer) :
    (buffer.push piece).text = buffer.text ++ piece := by
  cases h : piece.getLast? with
  | none => simp [List.getLast?_eq_none_iff.1 h]
  | some c => simp [push, h]

theorem push_of_getLast? {piece : List Char} {c : Char} (h : piece.getLast? = some c)
    (buffer : Buffer) : buffer.push piece = ⟨buffer.text ++ piece, c = '\n'⟩ := by
  simp [push, h]

def startLine (buffer : Buffer) : Buffer := { buffer with atLineStart := true }

/-- Adds inline code, with a space before it if backticks would run together. -/
def pushCode (code : List Char) (buffer : Buffer) : Buffer :=
  (buffer.push (if buffer.text.getLast? = some '`' then [' '] else [])).push code

/-- Escapes an exclamation mark at the end, which would make an image of a link. -/
def escapeBang (buffer : Buffer) : Buffer :=
  if endsUnescaped '!' buffer.text then
    Buffer.push ['\\', '!'] { buffer with text := buffer.text.dropLast }
  else buffer

/-- Adds one line of text. Blanks that a newline follows are encoded. -/
def pushLine (inCell encodeEnd : Bool) (line : List Char) (buffer : Buffer) : Buffer :=
  let escaped := escapeText buffer.atLineStart inCell line
  buffer.push (if encodeEnd then encodeTrailingBlanks escaped else escaped)

/-- Adds lines of text; where only a single line has room, spaces stand for the newlines. -/
def pushLines (inCell singleLine : Bool) : List (List Char) → Buffer → Buffer
  | [], buffer => buffer
  | [line], buffer => buffer.pushLine inCell false line
  | line :: next :: lines, buffer =>
      let pushed := buffer.pushLine inCell (!singleLine) line
      pushLines inCell singleLine (next :: lines) (pushed.push [if singleLine then ' ' else '\n'])

/-- Escapes the hashes at the end of what was written since the text had `start` characters. -/
def closeHeading (start : Nat) (buffer : Buffer) : Buffer :=
  { buffer with
    text := buffer.text.take start ++ escapeClosingHashes (buffer.text.drop start) }

end Buffer

end EditorMarkdown.Writer
