import EditorMarkdown.Toml.Scalar
import EditorMarkdown.Toml.Value

/-!
Reading TOML: lines with keys and values, and headers of tables.
-/

namespace EditorMarkdown.Toml

/-- Newlines in one form. A carriage return that no newline follows, and any other control
character than a tab, has no place in a document. -/
def plainLines? : List Char → Option (List Char)
  | [] => some []
  | '\r' :: '\n' :: rest => (plainLines? rest).map ('\n' :: ·)
  | c :: rest =>
      if (c.toNat < 0x20 && c ≠ '\t' && c ≠ '\n') || c.toNat = 0x7F then none
      else (plainLines? rest).map (c :: ·)

def skipBlanks (text : List Char) : List Char := text.dropWhile fun c => c = ' ' || c = '\t'

def skipComment : List Char → List Char
  | '#' :: rest => rest.dropWhile (· ≠ '\n')
  | text => text

private def skipFrom (inComment : Bool) : List Char → List Char
  | [] => []
  | c :: rest =>
      if c = '\n' then skipFrom false rest
      else if inComment then skipFrom true rest
      else if c = ' ' || c = '\t' then skipFrom false rest
      else if c = '#' then skipFrom true rest
      else c :: rest

def skipAll (text : List Char) : List Char := skipFrom false text

/-! Texts. -/

private def hexValue (digits : List Char) : Nat :=
  digits.foldl (fun value c =>
    value * 16 +
      (if c.isDigit then c.toNat - '0'.toNat else c.toLower.toNat - 'a'.toNat + 10)) 0

private def hexEscape? (count : Nat) (text : List Char) : Option (Char × List Char) :=
  let digits := text.take count
  let value := hexValue digits
  if digits.length = count &&
      digits.all (fun c => c.isDigit || ('a' ≤ c.toLower && c.toLower ≤ 'f')) &&
      (value < 0xD800 || (0xDFFF < value && value ≤ 0x10FFFF)) then
    some (Char.ofNat value, text.drop count)
  else none

private def escape? : List Char → Option (Char × List Char)
  | '"' :: rest => some ('"', rest)
  | '\\' :: rest => some ('\\', rest)
  | 'b' :: rest => some ('\x08', rest)
  | 't' :: rest => some ('\t', rest)
  | 'n' :: rest => some ('\n', rest)
  | 'f' :: rest => some ('\x0c', rest)
  | 'r' :: rest => some ('\r', rest)
  | 'e' :: rest => some ('\x1b', rest)
  | 'x' :: rest => hexEscape? 2 rest
  | 'u' :: rest => hexEscape? 4 rest
  | 'U' :: rest => hexEscape? 8 rest
  | _ => none

private def readQuoted (quote : Char) (escaping : Bool) :
    Nat → List Char → Option (List Char × List Char)
  | 0, _ => none
  | _ + 1, [] => none
  | fuel + 1, c :: rest =>
      if c = quote then some ([], rest)
      else if c = '\n' then none
      else if c = '\\' && escaping then
        match escape? rest with
        | none => none
        | some (c, rest) =>
            (readQuoted quote escaping fuel rest).map fun (text, rest) => (c :: text, rest)
      else (readQuoted quote escaping fuel rest).map fun (text, rest) => (c :: text, rest)

private def endsLine (text : List Char) : Bool := (skipBlanks text).head? = some '\n'

/-- Skips the rest of a text on many lines; up to two quotes may stand before the closing ones. -/
private def skipLong (quote : Char) (escaping : Bool) : Nat → List Char → Option (List Char)
  | 0, _ => none
  | _ + 1, [] => none
  | fuel + 1, c :: rest =>
      if c = quote && rest.take 2 = [quote, quote] then
        let more := ((rest.drop 2).take 2).takeWhile (· = quote)
        some (rest.drop (2 + more.length))
      else if c = '\\' && escaping then
        if endsLine rest then skipLong quote escaping fuel rest
        else (escape? rest).bind fun (_, rest) => skipLong quote escaping fuel rest
      else skipLong quote escaping fuel rest

/-! Keys. -/

private def isKeyChar (c : Char) : Bool := c.isAlphanum || c = '_' || c = '-'

def readName (text : List Char) : Option (String × List Char) :=
  match text with
  | '"' :: rest =>
      (readQuoted '"' true rest.length rest).map fun (name, rest) => (String.ofList name, rest)
  | '\'' :: rest =>
      (readQuoted '\'' false rest.length rest).map fun (name, rest) => (String.ofList name, rest)
  | _ =>
      let name := text.takeWhile isKeyChar
      if name.isEmpty then none else some (String.ofList name, text.dropWhile isKeyChar)

def readKey : Nat → List Char → Option (List String × List Char)
  | 0, _ => none
  | fuel + 1, text =>
      match readName text with
      | none => none
      | some (name, rest) =>
          match skipBlanks rest with
          | '.' :: rest =>
              (readKey fuel (skipBlanks rest)).map fun (path, rest) => (name :: path, rest)
          | rest => some ([name], rest)

/-! Values. -/

private def isScalarChar (c : Char) : Bool :=
  c.isAlphanum || c = '_' || c = '-' || c = '+' || c = '.' || c = ':'

/-- Reads a boolean, a number or a time. A blank may stand between a date and a time. -/
def readScalar (text : List Char) : Option (Value × List Char) :=
  let word := text.takeWhile isScalarChar
  let rest := text.dropWhile isScalarChar
  if word = "true".toList then some (.bool true, rest)
  else if word = "false".toList then some (.bool false, rest)
  else if isNumber word then some (.scalar, rest)
  else
    let time := (rest.drop 1).takeWhile isScalarChar
    if startsDate word && word.length = 10 && rest.head? = some ' ' &&
        time.head?.any Char.isDigit then
      if isTime true time then some (.scalar, (rest.drop 1).dropWhile isScalarChar) else none
    else if isMoment word then some (.scalar, rest)
    else none

mutual
def readValue : Nat → List Char → Option (Value × List Char)
  | 0, _ => none
  | fuel + 1, text =>
      match text with
      | '"' :: '"' :: '"' :: rest =>
          (skipLong '"' true rest.length rest).map fun rest => (.scalar, rest)
      | '\'' :: '\'' :: '\'' :: rest =>
          (skipLong '\'' false rest.length rest).map fun rest => (.scalar, rest)
      | '"' :: rest =>
          (readQuoted '"' true rest.length rest).map fun (_, rest) => (.scalar, rest)
      | '\'' :: rest =>
          (readQuoted '\'' false rest.length rest).map fun (_, rest) => (.scalar, rest)
      | '[' :: rest =>
          (readItems fuel (skipAll rest)).map fun (items, rest) => (.array items, rest)
      | '{' :: rest =>
          match skipAll rest with
          | '}' :: rest => some (.table [], rest)
          | rest =>
              (readPairs fuel [] rest).map fun (entries, rest) =>
                (.table (entriesToValues entries), rest)
      | _ => readScalar text

def readItems : Nat → List Char → Option (List Value × List Char)
  | 0, _ => none
  | fuel + 1, text =>
      match text with
      | ']' :: rest => some ([], rest)
      | _ =>
          match readValue fuel text with
          | none => none
          | some (item, rest) =>
              match skipAll rest with
              | ']' :: rest => some ([item], rest)
              | ',' :: rest =>
                  (readItems fuel (skipAll rest)).map fun (items, rest) => (item :: items, rest)
              | _ => none

def readPairs : Nat → Entries → List Char → Option (Entries × List Char)
  | 0, _, _ => none
  | fuel + 1, entries, text =>
      match readKey fuel text with
      | some (path, '=' :: rest) =>
          match readValue fuel (skipBlanks rest) with
          | none => none
          | some (value, rest) =>
              match setValue value path entries with
              | none => none
              | some entries =>
                  match skipAll rest with
                  | '}' :: rest => some (entries, rest)
                  | ',' :: rest =>
                      match skipAll rest with
                      | '}' :: rest => some (entries, rest)
                      | rest => readPairs fuel entries rest
                  | _ => none
      | _ => none
end

/-! Documents. -/

private def readHeader (closing : List Char) (text : List Char) :
    Option (List String × List Char) :=
  match readKey (text.length + 1) (skipBlanks text) with
  | some (path, rest) =>
      if closing.isPrefixOf rest then some (path, rest.drop closing.length) else none
  | none => none

/-- Opens the table that a header names. -/
private def openAt (next : Bool) (path : List String) (root : Entries) : Option Entries :=
  match path.getLast? with
  | none => none
  | some name => changeTable (if next then openNext name else openTable name) path.dropLast root

/-- Reads one line of a document: the table that is open, all entries, and the text after it. -/
private def readLine (current : List String) (root : Entries) (text : List Char) :
    Option (List String × Entries × List Char) :=
  match text with
  | '[' :: '[' :: rest => do
      let (path, rest) ← readHeader [']', ']'] rest
      return (path, ← openAt true path root, rest)
  | '[' :: rest => do
      let (path, rest) ← readHeader [']'] rest
      return (path, ← openAt false path root, rest)
  | _ =>
      match readKey (text.length + 1) text with
      | some (path, '=' :: rest) => do
          let (value, rest) ← readValue (2 * rest.length + 2) (skipBlanks rest)
          return (current, ← changeTable (setValue value path) current root, rest)
      | _ => none

private def readDocument : Nat → List String → Entries → List Char → Option Entries
  | 0, _, _, _ => none
  | fuel + 1, current, root, text =>
      match skipAll text with
      | [] => some root
      | text =>
          match readLine current root text with
          | none => none
          | some (current, root, rest) =>
              match skipComment (skipBlanks rest) with
              | [] => some root
              | '\n' :: rest => readDocument fuel current root rest
              | _ => none

private def dropMark : List Char → List Char
  | '\ufeff' :: rest => rest
  | text => text

def ofText? (text : String) : Option (List (String × Value)) := do
  let lines ← plainLines? (dropMark text.toList)
  let entries ← readDocument (lines.length + 1) [] [] lines
  return entriesToValues entries

end EditorMarkdown.Toml
