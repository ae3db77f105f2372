import ReportPress.Number.BinaryFormat
import ReportPress.Number.Decimal

/-!
# Double-precision numbers by scaling

Numerals in JSON are read quickly rather than exactly: the digits that fit into sixty-four bits are
rounded to double precision, and the result is multiplied or divided by a power of ten, which is
rounded as well. That is up to three roundings where one would do, and the last bit can come out
differently.
-/

namespace ReportPress.Number

-- Powers are those of the core library, whatever else is in scope.
attribute [local instance (2000)] instPowNat

namespace Double

/-- How many of the last digits of `n` have to go for the others to fit into sixty-four bits. -/
def excessDigits (n : Nat) : Nat :=
  if n < 2 ^ (64 : Nat) then 0
  else
    let excess := decimalLength n - 20
    if n / 10 ^ excess < 2 ^ (64 : Nat) then excess else excess + 1

def greatestPower : Nat := 308

def powerOfTen (n : Nat) : Nat := BinaryFormat.double.nearestCode (10 ^ n) 1

/-- The value with this code, times a power of ten; none past the range of double precision. Below
the smallest power of ten the value is divided in two steps, and further down nothing is left. -/
def scale? (code : Nat) (exponent : Int) : Option Nat :=
  if code = 0 then some 0
  else if exponent < -2 * greatestPower then some 0
  else if exponent < -greatestPower then
    some (BinaryFormat.double.div (BinaryFormat.double.div code (powerOfTen greatestPower))
      (powerOfTen (-exponent - greatestPower).toNat))
  else if exponent < 0 then some (BinaryFormat.double.div code (powerOfTen (-exponent).toNat))
  else if exponent ≤ greatestPower then
    let product := BinaryFormat.double.mul code (powerOfTen exponent.toNat)
    if product < BinaryFormat.double.infinityCode then some product else none
  else none

/-- The code that a decimal number is read as; none past the range of double precision. -/
def ofDecimal? (d : Decimal) : Option Nat :=
  let excess := excessDigits d.significand
  scale? (BinaryFormat.double.nearestCode (d.significand / 10 ^ excess) 1) (d.exponent + excess)

end Double

end ReportPress.Number
