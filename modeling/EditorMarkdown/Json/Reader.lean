import EditorMarkdown.Json.Value

/-!
Reading JSON. The whole text must be one value between blanks; names and strings hold no raw control
characters and no half of a surrogate pair; arrays and objects are nested at most `deepest` levels.
-/

namespace EditorMarkdown.Json

/-- How many arrays and objects may stand in one another. -/
def deepest : Nat := 127

def greatestSignificand : Nat := 18446744073709551615

def isSpace (c : Char) : Bool := c = ' ' || c = '\n' || c = '\t' || c = '\r'

def skipSpace (text : List Char) : List Char := text.dropWhile isSpace

/-! Strings. -/

def hexDigit? (c : Char) : Option Nat :=
  if '0' ≤ c && c ≤ '9' then some (c.toNat - '0'.toNat)
  else if 'a' ≤ c && c ≤ 'f' then some (c.toNat - 'a'.toNat + 10)
  else if 'A' ≤ c && c ≤ 'F' then some (c.toNat - 'A'.toNat + 10)
  else none

def hexUnit? (first second third fourth : Char) : Option Nat := do
  let first ← hexDigit? first
  let second ← hexDigit? second
  let third ← hexDigit? third
  let fourth ← hexDigit? fourth
  return ((first * 16 + second) * 16 + third) * 16 + fourth

def isHighSurrogate (unit : Nat) : Bool := 0xD800 ≤ unit && unit ≤ 0xDBFF

def isLowSurrogate (unit : Nat) : Bool := 0xDC00 ≤ unit && unit ≤ 0xDFFF

def surrogatePair (high low : Nat) : Char :=
  Char.ofNat (0x10000 + (high - 0xD800) * 0x400 + (low - 0xDC00))

def shortEscape? : Char → Option Char
  | '"' => some '"'
  | '\\' => some '\\'
  | '/' => some '/'
  | 'b' => some '\x08'
  | 'f' => some '\x0c'
  | 'n' => some '\n'
  | 'r' => some '\r'
  | 't' => some '\t'
  | _ => none

private def consRead (c : Char) (read : List Char × List Char) : List Char × List Char :=
  (c :: read.1, read.2)

def readChars : List Char → Option (List Char × List Char)
  | [] => none
  | '"' :: rest => some ([], rest)
  | '\\' :: 'u' :: a :: b :: c :: d :: rest =>
      match hexUnit? a b c d with
      | none => none
      | some unit =>
          if isHighSurrogate unit then
            match rest with
            | '\\' :: 'u' :: e :: f :: g :: h :: rest =>
                match hexUnit? e f g h with
                | none => none
                | some low =>
                    if isLowSurrogate low then
                      (readChars rest).map (consRead (surrogatePair unit low))
                    else none
            | _ => none
          else if isLowSurrogate unit then none
          else (readChars rest).map (consRead (Char.ofNat unit))
  | '\\' :: c :: rest =>
      match shortEscape? c with
      | none => none
      | some c => (readChars rest).map (consRead c)
  | c :: rest => if c.toNat < 0x20 then none else (readChars rest).map (consRead c)

/-! Numbers. -/

/-- The digits that a number is read with, and the power of ten that they are multiplied by. Once a
digit does not fit, the number is `full`. -/
structure Decimal where
  significand : Nat
  exponent : Int
  full : Bool
  deriving Repr, Inhabited

namespace Decimal

def zero : Decimal := ⟨0, 0, false⟩

/-- The significand with one more digit, if it fits. -/
def extend? (digit : Char) (decimal : Decimal) : Option Nat :=
  let significand := decimal.significand * 10 + (digit.toNat - '0'.toNat)
  if decimal.full || greatestSignificand < significand then none else some significand

def addWhole (decimal : Decimal) (digit : Char) : Decimal :=
  match decimal.extend? digit with
  | some significand => { decimal with significand }
  | none => { decimal with exponent := decimal.exponent + 1, full := true }

def addFraction (decimal : Decimal) (digit : Char) : Decimal :=
  match decimal.extend? digit with
  | some significand => { decimal with significand, exponent := decimal.exponent - 1 }
  | none => { decimal with full := true }

end Decimal

def isDigit (c : Char) : Bool := '0' ≤ c && c ≤ '9'

private def naturalOf (digits : List Char) : Nat :=
  digits.foldl (fun value digit => value * 10 + (digit.toNat - '0'.toNat)) 0

private def exponentSign : List Char → Bool × List Char
  | '+' :: rest => (false, rest)
  | '-' :: rest => (true, rest)
  | rest => (false, rest)

private def floatValue? (negative : Bool) (decimal : Decimal) : Option Value :=
  (Double.ofDecimal negative decimal.significand decimal.exponent).map Value.float

private def readExponent (negative : Bool) (decimal : Decimal) :
    List Char → Option (Value × List Char)
  | c :: rest =>
      if c = 'e' || c = 'E' then
        let (down, rest) := exponentSign rest
        let digits := rest.takeWhile isDigit
        if digits.isEmpty then none
        else
          let power : Int := if down then -(naturalOf digits : Int) else naturalOf digits
          (floatValue? negative { decimal with exponent := decimal.exponent + power }).map
            (·, rest.dropWhile isDigit)
      else (floatValue? negative decimal).map (·, c :: rest)
  | [] => (floatValue? negative decimal).map (·, [])

/-- The number that digits without point and exponent write. A negative zero, and a number that
takes more than 64 bits, is floating. -/
def wholeValue? (negative : Bool) (decimal : Decimal) : Option Value :=
  if decimal.full then floatValue? negative decimal
  else if negative then
    if decimal.significand = 0 || 9223372036854775808 < decimal.significand then
      floatValue? true decimal
    else some (.int (-(decimal.significand : Int)))
  else some (.int decimal.significand)

def readDigits (negative : Bool) (text : List Char) : Option (Value × List Char) :=
  let digits := text.takeWhile isDigit
  if digits.isEmpty || (digits.head? = some '0' && digits.length ≠ 1) then none
  else
    let whole := digits.foldl Decimal.addWhole .zero
    match text.dropWhile isDigit with
    | '.' :: rest =>
        let digits := rest.takeWhile isDigit
        if digits.isEmpty then none
        else
          let decimal := digits.foldl Decimal.addFraction { whole with full := false }
          readExponent negative decimal (rest.dropWhile isDigit)
    | 'e' :: rest => readExponent negative whole ('e' :: rest)
    | 'E' :: rest => readExponent negative whole ('E' :: rest)
    | rest => (wholeValue? negative whole).map (·, rest)

/-! Values. -/

mutual
/-- Reads a value at the head of a text, within `depth` more levels; also gives the text after
it. -/
def readValue : Nat → Nat → List Char → Option (Value × List Char)
  | 0, _, _ => none
  | fuel + 1, depth, text =>
      match skipSpace text with
      | 'n' :: 'u' :: 'l' :: 'l' :: rest => some (.null, rest)
      | 't' :: 'r' :: 'u' :: 'e' :: rest => some (.bool true, rest)
      | 'f' :: 'a' :: 'l' :: 's' :: 'e' :: rest => some (.bool false, rest)
      | '"' :: rest =>
          (readChars rest).map fun (value, rest) => (.string (String.ofList value), rest)
      | '[' :: rest =>
          match depth with
          | 0 => none
          | depth + 1 =>
              match skipSpace rest with
              | ']' :: rest => some (.array [], rest)
              | rest =>
                  (readItems fuel depth rest).map fun (items, rest) => (.array items, rest)
      | '{' :: rest =>
          match depth with
          | 0 => none
          | depth + 1 =>
              match skipSpace rest with
              | '}' :: rest => some (.object [], rest)
              | rest =>
                  (readFields fuel depth rest).map fun (fields, rest) => (.object fields, rest)
      | '-' :: rest => readDigits true rest
      | rest => readDigits false rest

def readItems : Nat → Nat → List Char → Option (List Value × List Char)
  | 0, _, _ => none
  | fuel + 1, depth, text =>
      match readValue fuel depth text with
      | none => none
      | some (item, rest) =>
          match skipSpace rest with
          | ']' :: rest => some ([item], rest)
          | ',' :: rest =>
              (readItems fuel depth rest).map fun (items, rest) => (item :: items, rest)
          | _ => none

def readFields : Nat → Nat → List Char → Option (List (String × Value) × List Char)
  | 0, _, _ => none
  | fuel + 1, depth, text =>
      match skipSpace text with
      | '"' :: rest =>
          match readChars rest with
          | none => none
          | some (name, rest) =>
              match skipSpace rest with
              | ':' :: rest =>
                  match readValue fuel depth rest with
                  | none => none
                  | some (value, rest) =>
                      let field := (String.ofList name, value)
                      match skipSpace rest with
                      | '}' :: rest => some ([field], rest)
                      | ',' :: rest =>
                          (readFields fuel depth rest).map fun (fields, rest) =>
                            (field :: fields, rest)
                      | _ => none
              | _ => none
      | _ => none
end

/-! Blanks before a value are skipped. -/

def AllSpace (text : List Char) : Prop := ∀ c ∈ text, isSpace c

theorem skipSpace_append {blanks : List Char} (space : AllSpace blanks) (text : List Char) :
    skipSpace (blanks ++ text) = skipSpace text :=
  List.dropWhile_append_of_pos space

theorem readValue_append {blanks : List Char} (space : AllSpace blanks) (fuel depth : Nat)
    (text : List Char) : readValue fuel depth (blanks ++ text) = readValue fuel depth text := by
  cases fuel with
  | zero => rfl
  | succ fuel => simp only [readValue, skipSpace_append space]

theorem readItems_append {blanks : List Char} (space : AllSpace blanks) (fuel depth : Nat)
    (text : List Char) : readItems fuel depth (blanks ++ text) = readItems fuel depth text := by
  cases fuel with
  | zero => rfl
  | succ fuel => simp only [readItems, readValue_append space]

theorem readFields_append {blanks : List Char} (space : AllSpace blanks) (fuel depth : Nat)
    (text : List Char) : readFields fuel depth (blanks ++ text) = readFields fuel depth text := by
  cases fuel with
  | zero => rfl
  | succ fuel => simp only [readFields, skipSpace_append space]

def Value.ofText? (text : String) : Option Value :=
  let characters := text.toList
  match readValue (2 * characters.length + 2) deepest characters with
  | some (value, rest) => if (skipSpace rest).isEmpty then some value else none
  | none => none

end EditorMarkdown.Json
