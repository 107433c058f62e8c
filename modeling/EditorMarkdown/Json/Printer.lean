import EditorMarkdown.Json.Value

/-!
Writing JSON, on one line or with an item or a field on each line.
-/

namespace EditorMarkdown.Json

def hexDigit (n : Nat) : Char := (Nat.digitChar (n % 16))

def escapeChar (c : Char) : List Char :=
  if c = '"' then ['\\', '"']
  else if c = '\\' then ['\\', '\\']
  else if c = '\x08' then ['\\', 'b']
  else if c = '\x0c' then ['\\', 'f']
  else if c = '\n' then ['\\', 'n']
  else if c = '\r' then ['\\', 'r']
  else if c = '\t' then ['\\', 't']
  else if c.toNat < 0x20 then ['\\', 'u', '0', '0', hexDigit (c.toNat / 16), hexDigit c.toNat]
  else [c]

def quote (text : String) : List Char := '"' :: (text.toList.flatMap escapeChar ++ ['"'])

private def scalarText : Value → List Char
  | .bool true => "true".toList
  | .bool false => "false".toList
  | .int value => (toString value).toList
  | .float value => value.render.toList
  | .string value => quote value
  | .null | .array _ | .object _ => "null".toList

namespace Value

mutual
def compact : Value → List Char
  | .array [] => ['[', ']']
  | .array (item :: rest) => '[' :: (item.compact ++ compactItems rest)
  | .object [] => ['{', '}']
  | .object ((name, value) :: rest) =>
      '{' :: (quote name ++ ':' :: (value.compact ++ compactFields rest))
  | scalar => scalarText scalar

def compactItems : List Value → List Char
  | [] => [']']
  | item :: rest => ',' :: (item.compact ++ compactItems rest)

def compactFields : List (String × Value) → List Char
  | [] => ['}']
  | (name, value) :: rest => ',' :: (quote name ++ ':' :: (value.compact ++ compactFields rest))
end

def newLine (level : Nat) : List Char := '\n' :: List.replicate (2 * level) ' '

mutual
def pretty (level : Nat) : Value → List Char
  | .array [] => ['[', ']']
  | .array (item :: rest) =>
      '[' :: (newLine (level + 1) ++ pretty (level + 1) item ++ prettyItems level rest)
  | .object [] => ['{', '}']
  | .object ((name, value) :: rest) =>
      '{' :: (newLine (level + 1) ++ quote name ++ ':' :: ' ' ::
        (pretty (level + 1) value ++ prettyFields level rest))
  | scalar => scalarText scalar

def prettyItems (level : Nat) : List Value → List Char
  | [] => newLine level ++ [']']
  | item :: rest =>
      ',' :: (newLine (level + 1) ++ pretty (level + 1) item ++ prettyItems level rest)

def prettyFields (level : Nat) : List (String × Value) → List Char
  | [] => newLine level ++ ['}']
  | (name, value) :: rest =>
      ',' :: (newLine (level + 1) ++ quote name ++ ':' :: ' ' ::
        (pretty (level + 1) value ++ prettyFields level rest))
end

def toText (value : Value) : String := String.ofList value.compact

def toPrettyText (value : Value) : String := String.ofList (value.pretty 0)

end Value

end EditorMarkdown.Json
