import EditorMarkdown.Text.Blank
import EditorMarkdown.Text.Lines

/-!
Task markers whose opening bracket was escaped. A line that begins a list item with such a marker
gets its marker back; nothing else changes.
-/

namespace EditorMarkdown.Text

def escapedTaskMarker : List Char := ['-', ' ', '\\', '[', ' ', ']']

def taskMarker : List Char := ['-', ' ', '[', ' ', ']']

def unescapeTaskLine (line : List Char) : List Char :=
  let blanks := line.takeWhile isBlank
  let rest := line.dropWhile isBlank
  if escapedTaskMarker.isPrefixOf rest then
    blanks ++ taskMarker ++ rest.drop escapedTaskMarker.length
  else line

/-- A text with the task markers at the start of its lines unescaped. -/
def unescapeTaskMarkers (text : List Char) : List Char :=
  joinLines ((splitLines text).map unescapeTaskLine)

end EditorMarkdown.Text
