import EditorMarkdown.Text.Blank
import EditorMarkdown.Text.Lines

/-!
Protecting the characters of a text that would otherwise be read as markup.
-/

namespace EditorMarkdown.Writer

open Text (isBlank isWhite trimEndWhile)

def isMarkup (c : Char) : Bool :=
  c = '\\' || c = '*' || c = '_' || c = '`' || c = '[' || c = ']' || c = '<' || c = '~'

def isReferenceChar (c : Char) : Bool := c.isAlphanum || c = '#'

def startsReference (rest : List Char) : Bool :=
  !(rest.takeWhile isReferenceChar).isEmpty && (rest.dropWhile isReferenceChar).head? = some ';'

def escapeReferences : List Char → List Char
  | [] => []
  | c :: rest =>
      if c = '&' && startsReference rest then '\\' :: c :: escapeReferences rest
      else c :: escapeReferences rest

/-- A text with a backslash before each character that is markup wherever it stands; in a table
cell the bar between cells is one. -/
def escapeMarkup (inCell : Bool) : List Char → List Char
  | [] => []
  | c :: rest =>
      if isMarkup c || (c = '&' && startsReference rest) || (c = '|' && inCell) then
        '\\' :: c :: escapeMarkup inCell rest
      else c :: escapeMarkup inCell rest

@[simp] theorem escapeMarkup_nil (inCell : Bool) : escapeMarkup inCell [] = [] := rfl

/-- A blank as a character reference, which is never stripped. -/
def encodeBlank (c : Char) : List Char :=
  if c = '\t' then ['&', '#', 'x', '9', ';'] else ['&', '#', 'x', '2', '0', ';']

def encodeBlanks (blanks : List Char) : List Char := blanks.flatMap encodeBlank

def encodeTrailingBlanks (line : List Char) : List Char :=
  trimEndWhile isBlank line ++ encodeBlanks (line.reverse.takeWhile isBlank).reverse

/-- Whether nothing follows, or a blank. -/
def endsWord : List Char → Bool
  | [] => true
  | c :: _ => isBlank c

/-- Whether a text at the start of a line would open a block. -/
def startsBlock : List Char → Bool
  | [] => false
  | c :: rest =>
      if c = '>' then true
      else if c = '#' then
        (rest.takeWhile (· = '#')).length < 6 && endsWord (rest.dropWhile (· = '#'))
      else if c = '+' then endsWord rest
      else if c = '-' || c = '=' then
        endsWord rest || (trimEndWhile isWhite (c :: rest)).all (· = c)
      else false

def escapeOrderedMarker (line : List Char) : List Char :=
  let digits := line.takeWhile Char.isDigit
  if digits.isEmpty || 9 < digits.length then line
  else
    match line.dropWhile Char.isDigit with
    | c :: rest =>
        if (c = '.' || c = ')') && endsWord rest then digits ++ '\\' :: c :: rest else line
    | [] => line

def escapeLineStart (inCell : Bool) (text : List Char) : List Char :=
  let escaped := escapeMarkup inCell text
  escapeOrderedMarker (if startsBlock text then '\\' :: escaped else escaped)

/-- A line of text, protected for the place where it stands. Blanks at the start of a line are
encoded; what follows them does not stand at the start. -/
def escapeText (atLineStart inCell : Bool) (text : List Char) : List Char :=
  if atLineStart then
    let blanks := text.takeWhile isBlank
    if blanks.isEmpty then escapeLineStart inCell text
    else encodeBlanks blanks ++ escapeMarkup inCell (text.dropWhile isBlank)
  else escapeMarkup inCell text

/-- The content of a heading with a backslash before the hashes at its end, if they would be read
as closing it. -/
def escapeClosingHashes (content : List Char) : List Char :=
  let hashes := (content.reverse.takeWhile (· = '#')).reverse
  let body := trimEndWhile (· = '#') content
  if hashes.isEmpty then content
  else
    match body.getLast? with
    | none => '\\' :: hashes
    | some c => if isBlank c then body ++ '\\' :: hashes else content

def endsUnescaped (c : Char) (text : List Char) : Bool :=
  text.getLast? = some c && (text.dropLast.reverse.takeWhile (· = '\\')).length % 2 = 0

end EditorMarkdown.Writer
