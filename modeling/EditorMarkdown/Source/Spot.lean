import EditorMarkdown.Text.Blank

/-!
Places in a source text, and the lines that begin there. A line ends with a newline, a carriage
return or both together; code, metadata and HTML blocks know the newline only.
-/

namespace EditorMarkdown.Source

/-- A place in a text: how many characters are before it, and the characters after it. -/
structure Spot where
  offset : Nat
  rest : List Char
  deriving DecidableEq, Repr, Inhabited

namespace Spot

def start (text : List Char) : Spot := ⟨0, text⟩

def forward (count : Nat) (spot : Spot) : Spot := ⟨spot.offset + count, spot.rest.drop count⟩

def forwardTo (offset : Nat) (spot : Spot) : Spot := spot.forward (offset - spot.offset)

def textTo (stop : Nat) (spot : Spot) : List Char := spot.rest.take (stop - spot.offset)

def within (stop : Nat) (spot : Spot) : Spot := ⟨spot.offset, spot.textTo stop⟩

end Spot

/-- How many characters end a line here: none at the end of the text. -/
def lineEnd? : List Char → Option Nat
  | [] => some 0
  | '\r' :: '\n' :: _ => some 2
  | c :: _ => if c = '\n' || c = '\r' then some 1 else none

def atEnd (text : List Char) : Bool := (lineEnd? text).isSome

/-- How many characters are left of a line that has only blanks left, its end included. -/
def blankLine? (text : List Char) : Option Nat :=
  let blanks := (text.takeWhile Text.isLineBlank).length
  (lineEnd? (text.drop blanks)).map (blanks + ·)

def isBlankLine (text : List Char) : Bool := (blankLine? text).isSome

def lineLength : List Char → Nat
  | [] => 0
  | c :: rest => if c = '\n' then 1 else lineLength rest + 1

def dropReturn (line : List Char) : List Char :=
  match line.reverse with
  | last :: '\r' :: before => before.reverse ++ [last]
  | _ => line

/-- The literal line that begins at a place, after `blanks` spaces, and the place after it. -/
def Spot.literalLine (blanks : Nat) (spot : Spot) : List Char × Spot :=
  let length := lineLength spot.rest
  (List.replicate blanks ' ' ++ dropReturn (spot.rest.take length), spot.forward length)

def Spot.skipLineBlanks (spot : Spot) : Spot :=
  spot.forward (spot.rest.takeWhile Text.isLineBlank).length

def Spot.blanksBefore (stop : Nat) (spot : Spot) : Nat :=
  ((spot.textTo stop).reverse.takeWhile Text.isLineBlank).length

def Spot.skipBlankLine (spot : Spot) : Spot := spot.forward ((blankLine? spot.rest).getD 0)

end EditorMarkdown.Source
