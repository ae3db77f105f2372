/-!
# Decimal numbers

A decimal number is a sign, a natural significand and a power of ten. It is what numerals in texts
denote before anything is rounded, and what is left of a binary value once its digits are chosen.

How digits become text is a `DecimalLayout`: one record says where positional notation ends, whether
a whole number keeps a fraction, and how an exponent is marked. The outputs of the library differ in
these decisions only.
-/

namespace ReportPress.Number

/-- The value `± significand · 10 ^ exponent`. The sign is kept for zero too. -/
structure Decimal where
  negative : Bool
  /-- The digits, read as one number. -/
  significand : Nat
  /-- The power of ten of the last digit. -/
  exponent : Int
  deriving DecidableEq, Repr, Inhabited

def decimalLength (n : Nat) : Nat := (Nat.toDigits 10 n).length

/-- `n` without its trailing decimal zeros, and how many there were, looking at no more than
`fuel` of them. -/
def stripZeros : (fuel : Nat) → Nat → Nat × Nat
  | 0, n => (n, 0)
  | fuel + 1, n =>
    if n % 10 = 0 then
      let (rest, count) := stripZeros fuel (n / 10)
      (rest, count + 1)
    else (n, 0)

namespace Decimal

/-- The same number with a significand that has no trailing zeros; zero has exponent zero. -/
def normalize (d : Decimal) : Decimal :=
  if d.significand = 0 then { d with exponent := 0 }
  else
    let (rest, count) := stripZeros (decimalLength d.significand) d.significand
    { d with significand := rest, exponent := d.exponent + count }

def digits (d : Decimal) : List Char := Nat.toDigits 10 d.significand

/-- Where the decimal point falls, counted from the front of the digits: the value is
`0.d₁d₂… · 10 ^ point`. -/
def point (d : Decimal) : Int := d.exponent + decimalLength d.significand

end Decimal

/-- The decisions that turn the digits of a number into text. -/
structure DecimalLayout where
  /-- Whether a number whose decimal point falls there is written without an exponent. -/
  positional : Int → Bool
  /-- Whether a whole number written without an exponent still shows a fraction. -/
  keepsFraction : Bool
  /-- Whether a positive exponent carries a plus sign. -/
  plusOnExponent : Bool

namespace DecimalLayout

/-- `digits` with the decimal point after the first `point` of them, zeros filling the places that
the digits do not reach. -/
def positionalText (keepsFraction : Bool) (digits : List Char) (point : Int) : List Char :=
  let whole := point.toNat
  if point ≤ 0 then
    ['0', '.'] ++ List.replicate (-point).toNat '0' ++ digits
  else if digits.length ≤ whole then
    digits ++ List.replicate (whole - digits.length) '0' ++ (if keepsFraction then ['.', '0'] else [])
  else
    digits.take whole ++ '.' :: digits.drop whole

/-- One digit, a fraction when more digits follow, and the power of ten that the first digit
counts. -/
def exponentText (plusOnExponent : Bool) (digits : List Char) (power : Int) : List Char :=
  let fraction := match digits.drop 1 with
    | [] => []
    | rest => '.' :: rest
  let sign := if power < 0 then ['-'] else if plusOnExponent then ['+'] else []
  digits.take 1 ++ fraction ++ 'e' :: sign ++ Nat.toDigits 10 power.natAbs

/-- A number as text. Zero is one digit, and a minus sign is written for it as for any other
number. -/
def render (layout : DecimalLayout) (number : Decimal) : List Char :=
  let d := number.normalize
  let body :=
    if d.significand = 0 then '0' :: (if layout.keepsFraction then ['.', '0'] else [])
    else if layout.positional d.point then
      positionalText layout.keepsFraction d.digits d.point
    else exponentText layout.plusOnExponent d.digits (d.point - 1)
  if d.negative then '-' :: body else body

end DecimalLayout

end ReportPress.Number
