import EditorMarkdown.Text.NamedCharacters
import EditorMarkdown.Text.Punctuation

/-!
Character references such as `&amp;`, `&#38;` and `&#x26;`, and the texts that may hold them next to
backslash escapes.
-/

namespace EditorMarkdown.Text

/-- The character with a code point. NUL and numbers that are no code points are replaced. -/
def characterOf (code : Nat) : Char :=
  if code = 0 then '\uFFFD'
  else if h : code.isValidChar then Char.ofNatAux code h
  else '\uFFFD'

def digitValue (c : Char) : Nat :=
  if c ≤ '9' then c.toNat - '0'.toNat
  else if c ≤ 'F' then c.toNat - 'A'.toNat + 10
  else c.toNat - 'a'.toNat + 10

def numberOf (base : Nat) (digits : List Char) : Nat :=
  digits.foldl (fun value c => value * base + digitValue c) 0

def isHexDigit (c : Char) : Bool :=
  c.isDigit || ('a' ≤ c && c ≤ 'f') || ('A' ≤ c && c ≤ 'F')

/-- The characters of a reference that is written with at most `limit` digits and a semicolon,
and how many characters of the text it takes. -/
def readNumber (base limit : Nat) (isDigit : Char → Bool) (text : List Char) :
    Option (List Char × Nat) :=
  let digits := (text.take limit).takeWhile isDigit
  if digits.isEmpty || (text.drop digits.length).head? ≠ some ';' then none
  else some ([characterOf (numberOf base digits)], digits.length + 1)

/-- What follows an ampersand, read as a reference: its characters and its length. -/
def readReference (text : List Char) : Option (List Char × Nat) :=
  match text with
  | '#' :: 'x' :: digits | '#' :: 'X' :: digits =>
      (readNumber 16 6 isHexDigit digits).map fun (cs, n) => (cs, n + 2)
  | '#' :: digits => (readNumber 10 7 Char.isDigit digits).map fun (cs, n) => (cs, n + 1)
  | _ =>
      let name := text.takeWhile Char.isAlphanum
      if (text.drop name.length).head? = some ';' then
        (namedCharacters name).map fun cs => (cs, name.length + 1)
      else none

/-- `unescape` past the next `wait` characters. -/
private def unescapeFrom (inTable : Bool) : Nat → List Char → List Char
  | _, [] => []
  | wait + 1, _ :: rest => unescapeFrom inTable wait rest
  | 0, c :: rest =>
      if c = '\\' then
        if inTable && ['\\', '|'].isPrefixOf rest then '|' :: unescapeFrom inTable 2 rest
        else
          match rest with
          | d :: _ =>
              if isAsciiPunctuation d then d :: unescapeFrom inTable 1 rest
              else c :: unescapeFrom inTable 0 rest
          | [] => [c]
      else if c = '&' then
        match readReference rest with
        | some (characters, length) => characters ++ unescapeFrom inTable length rest
        | none => c :: unescapeFrom inTable 0 rest
      else if c = '\r' then unescapeFrom inTable 0 rest
      else c :: unescapeFrom inTable 0 rest

/-- The text that escapes and references stand for, without carriage returns. In a table a pipe may
have one more backslash before it. -/
def unescape (inTable : Bool) (text : List Char) : List Char := unescapeFrom inTable 0 text

end EditorMarkdown.Text
