import ReportPress.Number.Double
import ReportPress.Number.Shortest

/-!
# Single-precision numbers

Lengths, coordinates and sizes are single-precision binary numbers, and each arithmetic operation
rounds once. This module is the bridge between such a number and its code: reading a decimal number
or an integer, choosing digits, rounding to a whole number, and the smaller and the larger of two.

A decimal number can be rounded at once, or by way of double precision; texts of the markup take the
first way and JSON numbers the second.
-/

namespace ReportPress.Number

-- Powers are those of the core library, whatever else is in scope.
attribute [local instance (2000)] instPowNat

/-- Decimal numbers whose point falls further out than this are past the range of every format here,
on either side. -/
def farPoint : Int := 400

/-- The code of the value nearest to `significand · 10 ^ exponent`. -/
def BinaryFormat.codeOfDecimal (f : BinaryFormat) (d : Decimal) : Nat :=
  if d.significand = 0 then 0
  else if farPoint < d.point then f.infinityCode
  else if d.point < -farPoint then 0
  else f.nearestCode (d.significand * 10 ^ d.exponent.toNat) (10 ^ (-d.exponent).toNat)

namespace Single

def ofCode (negative : Bool) (code : Nat) : Float32 :=
  Float32.ofBits (UInt32.ofNat (if negative then 2 ^ (31 : Nat) + code else code))

/-- The place of the magnitude in the order of nonnegative values. -/
def code (x : Float32) : Nat := x.toBits.toNat % 2 ^ (31 : Nat)

def isNegative (x : Float32) : Bool := decide (2 ^ (31 : Nat) ≤ x.toBits.toNat)

/-- The number nearest to a decimal number, rounded once. -/
def ofDecimal (d : Decimal) : Float32 :=
  ofCode d.negative (BinaryFormat.single.codeOfDecimal d)

/-- The number nearest to the double-precision number that a decimal number is read as; none when
the decimal number is past the range of double precision. -/
def ofDecimalByDouble? (d : Decimal) : Option Float32 :=
  (Double.ofDecimal? d).map fun double ↦
    ofCode d.negative (BinaryFormat.single.nearestCode (BinaryFormat.double.units double)
      (2 ^ BinaryFormat.double.unitExponent))

def ofInt (n : Int) : Float32 :=
  ofCode (decide (n < 0)) (BinaryFormat.single.nearestCode n.natAbs 1)

/-- The shortest decimal number that reads back as `x`; none for infinities and for what is not a
number. -/
def toDecimal? (half : HalfWay) (x : Float32) : Option Decimal :=
  if code x < BinaryFormat.single.infinityCode then
    some (BinaryFormat.single.shortest half (isNegative x) (code x))
  else none

/-- The nearest whole number, a half going away from zero. The sign survives, also on zero. -/
def roundHalfAway (x : Float32) : Float32 :=
  if code x < BinaryFormat.single.infinityCode then
    let unit := 2 ^ BinaryFormat.single.unitExponent
    let whole := (2 * BinaryFormat.single.units (code x) + unit) / (2 * unit)
    ofCode (isNegative x) (BinaryFormat.single.nearestCode whole 1)
  else x

/-- The smaller of two numbers. What is not a number gives way to the other operand, and of two
equal operands the first is kept. -/
def minimum (x y : Float32) : Float32 :=
  if x.isNaN then y else if y < x then y else x

def maximum (x y : Float32) : Float32 :=
  if x.isNaN then y else if x < y then y else x

def specialText (x : Float32) : String :=
  if x.isNaN then "NaN" else if isNegative x then "-inf" else "inf"

/-- Messages write a number without an exponent, and a whole number without a fraction. -/
def messageLayout : DecimalLayout where
  positional _ := true
  keepsFraction := false
  plusOnExponent := false

/-- A number as messages write it: the fewest digits that read back. -/
def text (x : Float32) : String :=
  match toDecimal? .up x with
  | some d => String.ofList (messageLayout.render d)
  | none => specialText x

end Single

end ReportPress.Number
