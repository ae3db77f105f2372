/-!
# Binary formats

The nonnegative values of a binary floating format, numbered in order: the *code* of a value is its
place in that order, which is also its bit pattern without the sign. Magnitudes are counted in units
of the smallest positive value, so every magnitude is a natural number and no rounding is hidden in
a comparison.

`nearestCode` rounds a fraction of naturals to the nearest value, a half going to the even
significand, and everything past the largest finite value to the code of infinity.
-/

namespace ReportPress.Number

-- Powers are those of the core library, whatever else is in scope.
attribute [local instance (2000)] instPowNat

/-- The fraction `num / den` to the nearest integer, a half going to the even neighbour. -/
def roundHalfEven (num den : Nat) : Nat :=
  let whole := num / den
  let twiceRest := 2 * (num % den)
  if twiceRest < den then whole
  else if den < twiceRest then whole + 1
  else whole + whole % 2

/-- The whole part of the binary logarithm of `num / den`. -/
def floorLog2 (num den : Nat) : Int :=
  let guess : Int := (num.log2 : Int) - den.log2
  if den * 2 ^ guess.toNat ≤ num * 2 ^ (-guess).toNat then guess else guess - 1

/-- A binary floating format: how many bits a significand has, how far below one the smallest
positive value lies, and the code of infinity. -/
structure BinaryFormat where
  /-- Bits of a full significand, the leading one included. -/
  precision : Nat
  /-- The smallest positive value is `2 ^ -unitExponent`. -/
  unitExponent : Nat
  /-- The code one past the largest finite value. -/
  infinityCode : Nat

namespace BinaryFormat

/-- Thirty-two bits, twenty-four of them significand. -/
def single : BinaryFormat := ⟨24, 149, 255 * 2 ^ (23 : Nat)⟩

/-- Sixty-four bits, fifty-three of them significand. -/
def double : BinaryFormat := ⟨53, 1074, 2047 * 2 ^ (52 : Nat)⟩

def binade (f : BinaryFormat) : Nat := 2 ^ (f.precision - 1)

/-- The magnitude of a code, counted in units of the smallest positive value. -/
def units (f : BinaryFormat) (code : Nat) : Nat :=
  if code < f.binade then code
  else (code % f.binade + f.binade) * 2 ^ (code / f.binade - 1)

/-- The code of the value nearest to `num / den`, a half going to the even code. A magnitude that
rounds past the largest finite value gets the code of infinity. -/
def nearestCode (f : BinaryFormat) (num den : Nat) : Nat :=
  if num = 0 then 0
  else
    let shift := (floorLog2 num den + 1 - f.precision + f.unitExponent).toNat
    let significand := roundHalfEven (num * 2 ^ f.unitExponent) (den * 2 ^ shift)
    min (shift * f.binade + significand) f.infinityCode

def mul (f : BinaryFormat) (a b : Nat) : Nat :=
  f.nearestCode (f.units a * f.units b) (2 ^ (2 * f.unitExponent))

def div (f : BinaryFormat) (a b : Nat) : Nat := f.nearestCode (f.units a) (f.units b)

end BinaryFormat

end ReportPress.Number
