/-!
Binary floating-point numbers of double precision, as exact numbers. A finite number is a mantissa
times a power of two; it is rounded from a fraction, scaled by powers of ten, and written with the
fewest digits that tell it from its neighbours.
-/

namespace EditorMarkdown.Json

/-- A finite number: `mantissa * 2 ^ exponent`. The mantissa has 53 bits, or the exponent is the
least one and the mantissa has fewer. -/
structure Double where
  negative : Bool
  mantissa : Nat
  exponent : Int
  deriving DecidableEq, Repr, Inhabited

namespace Double

def leastExponent : Int := -1074

def greatestExponent : Int := 971

def leastMantissa : Nat := Nat.pow 2 52

def zero (negative : Bool) : Double := ⟨negative, 0, leastExponent⟩

/-- A quotient rounded to the nearest whole number, a half to the even one. -/
def roundDiv (numerator denominator : Nat) : Nat :=
  let quotient := numerator / denominator
  let twice := 2 * (numerator % denominator)
  if twice < denominator then quotient
  else if denominator < twice then quotient + 1
  else if quotient % 2 = 0 then quotient
  else quotient + 1

private def power (base : Nat) (exponent : Int) : Nat × Nat :=
  (base.pow exponent.toNat, base.pow (-exponent).toNat)

private def scaled (numerator denominator : Nat) (exponent : Int) : Nat × Nat :=
  let (up, down) := power 2 exponent
  (numerator * down, denominator * up)

def nearest (negative : Bool) (numerator denominator : Nat) : Option Double :=
  if numerator = 0 then some (zero negative)
  else
    let guess : Int := (Nat.log2 numerator : Int) - (Nat.log2 denominator : Int) - 52
    let (n, d) := scaled numerator denominator guess
    let exact :=
      if n / d < leastMantissa then guess - 1
      else if 2 * leastMantissa ≤ n / d then guess + 1
      else guess
    let exponent := max exact leastExponent
    let (n, d) := scaled numerator denominator exponent
    let rounded := roundDiv n d
    let (mantissa, exponent) :=
      if rounded = 2 * leastMantissa then (leastMantissa, exponent + 1) else (rounded, exponent)
    if greatestExponent < exponent then none else some ⟨negative, mantissa, exponent⟩

def fraction (number : Double) : Nat × Nat :=
  let (up, down) := power 2 number.exponent
  (number.mantissa * up, down)

private def tenMost : Nat := 308

private def tenPower (exponent : Nat) : Nat × Nat :=
  ((nearest false (Nat.pow 10 exponent) 1).map fraction).getD (1, 1)

private def divideTen (number : Double) (exponent : Nat) : Double :=
  let (n, d) := number.fraction
  let (up, down) := tenPower exponent
  (nearest number.negative (n * down) (d * up)).getD number

private def scaleDown : Nat → Nat → Double → Double
  | 0, _, number => number
  | fuel + 1, exponent, number =>
      if exponent ≤ tenMost then number.divideTen exponent
      else if number.mantissa = 0 then number
      else scaleDown fuel (exponent - tenMost) (number.divideTen tenMost)

/-- The number that `significand * 10 ^ exponent` is read as: the significand is rounded first, and
the result is rounded again after each scaling by a power of ten. Nothing if it is too large. -/
def ofDecimal (negative : Bool) (significand : Nat) (exponent : Int) : Option Double :=
  match nearest negative significand 1 with
  | none => none
  | some number =>
      if exponent < 0 then some (number.scaleDown 5 (-exponent).toNat)
      else if exponent.toNat ≤ tenMost then
        let (n, d) := number.fraction
        let (up, down) := tenPower exponent.toNat
        nearest negative (n * up) (d * down)
      else if significand = 0 then some number
      else none

def same (first second : Double) : Bool :=
  first = second || (first.mantissa = 0 && second.mantissa = 0)

/-! The shortest decimal form. -/

private def digitCount (n : Nat) : Nat := (Nat.toDigits 10 n).length

/-- The exponent of ten above a fraction: the least one whose power exceeds the fraction. -/
private def decimalExponent (numerator denominator : Nat) : Int :=
  let guess : Int := (digitCount numerator : Int) - (digitCount denominator : Int)
  let (up, down) := power 10 guess
  if numerator * down < denominator * up then guess else guess + 1

/-- Whether `digits * 10 ^ exponent` is read as the number that is `4 * mantissa` quarters of a
unit: it lies between the points half-way to the neighbours, or on one if the mantissa is even. -/
private def reads (number : Double) (digits : Nat) (exponent : Int) : Bool :=
  let (tenUp, tenDown) := power 10 exponent
  let (twoUp, twoDown) := power 2 (number.exponent - 2)
  let point := digits * tenUp * twoDown
  let low := 4 * number.mantissa -
    (if number.mantissa = leastMantissa && leastExponent < number.exponent then 1 else 2)
  let high := 4 * number.mantissa + 2
  let below := low * twoUp * tenDown
  let above := high * twoUp * tenDown
  if number.mantissa % 2 = 0 then below ≤ point && point ≤ above
  else below < point && point < above

/-- The decimal with `count` digits that is read as the number and lies nearest to it. -/
private def decimalWith? (number : Double) (count : Nat) : Option (Nat × Int) :=
  let (n, d) := number.fraction
  let exponent := decimalExponent n d - count
  let (up, down) := power 10 exponent
  let n := n * down
  let d := d * up
  let floor := n / d
  let near := roundDiv n d
  let far := if near = floor then floor + 1 else floor
  if number.reads near exponent then some (near, exponent)
  else if number.reads far exponent then some (far, exponent)
  else none

private def dropZeros : Nat → Nat → Int → Nat × Int
  | 0, digits, exponent => (digits, exponent)
  | fuel + 1, digits, exponent =>
      if digits % 10 = 0 then dropZeros fuel (digits / 10) (exponent + 1) else (digits, exponent)

/-- The digits and the exponent of ten of the shortest decimal that is read as the number. -/
def shortest (number : Double) : Nat × Int :=
  match (List.range 17).findSome? fun count => number.decimalWith? (count + 1) with
  | some (digits, exponent) => dropZeros 20 digits exponent
  | none => (0, 0)

/-- The text of a number: positional from 10^-5 up to 10^16 and with an exponent elsewhere, always
with a point or an exponent. -/
def render (number : Double) : String :=
  let sign := if number.negative then "-" else ""
  if number.mantissa = 0 then sign ++ "0.0"
  else
    let (value, exponent) := number.shortest
    let digits := Nat.toDigits 10 value
    let point : Int := digits.length + exponent
    let body :=
      if 0 ≤ exponent && point ≤ 16 then
        digits ++ List.replicate exponent.toNat '0' ++ ['.', '0']
      else if 0 < point && point ≤ 16 then
        digits.take point.toNat ++ '.' :: digits.drop point.toNat
      else if -5 < point && point ≤ 0 then
        ['0', '.'] ++ List.replicate (-point).toNat '0' ++ digits
      else
        let mantissa :=
          match digits with
          | [digit] => [digit]
          | digit :: rest => digit :: '.' :: rest
          | [] => []
        mantissa ++ 'e' :: (toString (point - 1)).toList
    sign ++ String.ofList body

end Double

end EditorMarkdown.Json
