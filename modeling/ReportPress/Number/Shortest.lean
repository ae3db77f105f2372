import ReportPress.Number.BinaryFormat
import ReportPress.Number.Decimal

/-!
# Shortest digits

The shortest decimal number that reads back as a given binary value. The decimal numbers that read
back are those between the two midpoints to the neighbouring values, the midpoints themselves
included exactly when the code is even, because a half goes to the even code. For one digit, two
digits and so on, the two decimal numbers that enclose the value are tried; the first that lies
between the midpoints wins, and of two that do, the nearer.

All comparisons are between naturals: a magnitude is counted in units of the smallest positive
value of the format, and a midpoint in half units.
-/

namespace ReportPress.Number

-- Powers are those of the core library, whatever else is in scope.
attribute [local instance (2000)] instPowNat

/-- Where a value exactly between two shortest candidates goes. -/
inductive HalfWay where
  | up
  | even
  deriving DecidableEq, Repr

namespace BinaryFormat

/-- Twice the magnitude at which values begin to read as `code`. -/
def lowerMidpoint (f : BinaryFormat) (code : Nat) : Nat := f.units (code - 1) + f.units code

/-- Twice the magnitude at which values cease to read as `code`. -/
def upperMidpoint (f : BinaryFormat) (code : Nat) : Nat := f.units code + f.units (code + 1)

/-- Compares `significand · 10 ^ exponent` with `halves` half units of the format. -/
def compareHalves (f : BinaryFormat) (significand : Nat) (exponent : Int) (halves : Nat) :
    Ordering :=
  compare (significand * 10 ^ exponent.toNat * 2 ^ (f.unitExponent + 1))
    (halves * 10 ^ (-exponent).toNat)

def readsAs (f : BinaryFormat) (code significand : Nat) (exponent : Int) : Bool :=
  let lower := f.compareHalves significand exponent (f.lowerMidpoint code)
  let upper := f.compareHalves significand exponent (f.upperMidpoint code)
  if code % 2 = 0 then lower != .lt && upper != .gt else lower == .gt && upper == .lt

/-- Where the decimal point of a positive value falls: the value lies in
`[10 ^ (point - 1), 10 ^ point)`. The binary logarithm gives a guess, which is right or one too
low. -/
def decimalPoint (f : BinaryFormat) (code : Nat) : Int :=
  let binary : Int := (f.units code).log2 - f.unitExponent
  let guess := binary * 30103 / 100000 + 1
  if f.compareHalves 1 guess (2 * f.units code) = .gt then guess else guess + 1

/-- The candidate with digits down to `10 ^ exponent` that reads back as `code`, if there is one. -/
def candidate? (f : BinaryFormat) (half : HalfWay) (code : Nat) (exponent : Int) : Option Nat :=
  let below := f.units code * 10 ^ (-exponent).toNat / (2 ^ f.unitExponent * 10 ^ exponent.toNat)
  match f.readsAs code below exponent, f.readsAs code (below + 1) exponent with
  | false, false => none
  | true, false => some below
  | false, true => some (below + 1)
  | true, true =>
    -- the middle of the candidates is `(2 · below + 1) · 10 ^ exponent / 2`
    match f.compareHalves (2 * below + 1) exponent (4 * f.units code) with
    | .gt => some below
    | .lt => some (below + 1)
    | .eq => match half with
      | .up => some (below + 1)
      | .even => some (if below % 2 = 0 then below else below + 1)

def maxDigits (f : BinaryFormat) : Nat := f.precision * 3 / 10 + 2

/-- The shortest decimal number that reads back as the value with this code. -/
def shortest (f : BinaryFormat) (half : HalfWay) (negative : Bool) (code : Nat) : Decimal :=
  if code = 0 then ⟨negative, 0, 0⟩
  else
    let point := f.decimalPoint code
    let tries := (List.range f.maxDigits).findSome? fun n ↦
      let exponent := point - (n + 1 : Nat)
      (f.candidate? half code exponent).map fun significand ↦ Decimal.mk negative significand exponent
    (tries.getD ⟨negative, f.units code, -f.unitExponent⟩).normalize

end BinaryFormat

end ReportPress.Number
