/-!
The forms of numbers and times in TOML.
-/

namespace EditorMarkdown.Toml

/-- Whether a text is digits with single underscores between them. -/
def isDigits (digit : Char → Bool) : List Char → Bool
  | [] => false
  | [c] => digit c
  | c :: '_' :: rest => digit c && isDigits digit rest
  | c :: rest => digit c && isDigits digit rest

private def isHexDigit (c : Char) : Bool :=
  c.isDigit || ('a' ≤ c && c ≤ 'f') || ('A' ≤ c && c ≤ 'F')

private def isOctalDigit (c : Char) : Bool := '0' ≤ c && c ≤ '7'

private def isBinaryDigit (c : Char) : Bool := c = '0' || c = '1'

def dropSign : List Char → List Char
  | '+' :: rest => rest
  | '-' :: rest => rest
  | text => text

def isWhole (text : List Char) : Bool :=
  isDigits Char.isDigit text && (text.head? ≠ some '0' || text.length = 1)

private def isExponent : List Char → Bool
  | [] => true
  | c :: rest => (c = 'e' || c = 'E') && isDigits Char.isDigit (dropSign rest)

private def isNumberChar (c : Char) : Bool := c.isDigit || c = '_'

def isNumber (text : List Char) : Bool :=
  match text with
  | '0' :: 'x' :: rest => isDigits isHexDigit rest
  | '0' :: 'o' :: rest => isDigits isOctalDigit rest
  | '0' :: 'b' :: rest => isDigits isBinaryDigit rest
  | _ =>
      let unsigned := dropSign text
      if unsigned = ['i', 'n', 'f'] || unsigned = ['n', 'a', 'n'] then true
      else
        isWhole (unsigned.takeWhile isNumberChar) &&
          match unsigned.dropWhile isNumberChar with
          | '.' :: rest =>
              isDigits Char.isDigit (rest.takeWhile isNumberChar) &&
                isExponent (rest.dropWhile isNumberChar)
          | rest => isExponent rest

private def pair? (least most : Nat) (first second : Char) : Bool :=
  first.isDigit && second.isDigit &&
    let value := (first.toNat - '0'.toNat) * 10 + (second.toNat - '0'.toNat)
    least ≤ value && value ≤ most

private def isOffset : List Char → Bool
  | [] => true
  | [c] => c = 'Z' || c = 'z'
  | [sign, a, b, ':', c, d] => (sign = '+' || sign = '-') && pair? 0 23 a b && pair? 0 59 c d
  | _ => false

/-- Whether a text is what may follow the seconds of a time: a fraction of them and an offset, if
`offset` allows one. -/
private def isTimeEnd (offset : Bool) : List Char → Bool
  | '.' :: fraction =>
      !(fraction.takeWhile Char.isDigit).isEmpty &&
        ((fraction.dropWhile Char.isDigit).isEmpty ||
          (offset && isOffset (fraction.dropWhile Char.isDigit)))
  | rest => rest.isEmpty || (offset && isOffset rest)

def isTime (offset : Bool) : List Char → Bool
  | a :: b :: ':' :: c :: d :: rest =>
      pair? 0 23 a b && pair? 0 59 c d &&
        match rest with
        | ':' :: e :: f :: rest => pair? 0 60 e f && isTimeEnd offset rest
        | rest => rest.isEmpty || (offset && isOffset rest)
  | _ => false

def startsDate : List Char → Bool
  | a :: b :: c :: d :: '-' :: e :: f :: '-' :: g :: h :: _ =>
      [a, b, c, d].all Char.isDigit && pair? 1 12 e f && pair? 1 31 g h
  | _ => false

def isMoment (text : List Char) : Bool :=
  if startsDate text then
    match text.drop 10 with
    | [] => true
    | c :: rest => (c = 'T' || c = 't' || c = ' ') && isTime true rest
  else isTime false text

end EditorMarkdown.Toml
