import ReportPress.Number.Single

/-!
# Numerals in texts

Reading a number from the text of an argument. A numeral is read whole: nothing may stand before or
after it, and the error says what is wrong with it rather than where.
-/

namespace ReportPress.Number

-- Powers are those of the core library, whatever else is in scope.
attribute [local instance (2000)] instPowNat

inductive NumeralError where
  | emptyDecimal
  | malformedDecimal
  /-- The text names an infinity, or no number, or one past the range. -/
  | notFinite
  | emptyInteger
  | invalidDigit
  | tooLarge
  | tooSmall
  deriving DecidableEq, Repr

def NumeralError.message : NumeralError → String
  | .emptyDecimal => "cannot parse float from empty string"
  | .malformedDecimal => "invalid float literal"
  | .notFinite => "not a finite number"
  | .emptyInteger => "cannot parse integer from empty string"
  | .invalidDigit => "invalid digit found in string"
  | .tooLarge => "number too large to fit in target type"
  | .tooSmall => "number too small to fit in target type"

def digitValue (c : Char) : Nat := c.toNat - '0'.toNat

def digitsValue (cs : List Char) : Nat := cs.foldl (fun n c ↦ 10 * n + digitValue c) 0

/-- A leading sign and what follows it; no sign counts as plus. -/
def splitSign : List Char → Bool × List Char
  | '-' :: rest => (true, rest)
  | '+' :: rest => (false, rest)
  | cs => (false, cs)

/-- The exponent part of a numeral, which may be missing; a mark needs at least one digit after its
optional sign. -/
def exponentPart? : List Char → Option Int
  | [] => some 0
  | mark :: rest =>
    let (negative, digits) := splitSign rest
    if (mark = 'e' ∨ mark = 'E') ∧ digits ≠ [] ∧ digits.all Char.isDigit then
      some (if negative then -(digitsValue digits : Int) else digitsValue digits)
    else none

/-- Reads digits with an optional point among, before or after them, and an optional exponent. -/
def unsignedDecimal? (negative : Bool) (cs : List Char) : Option Decimal :=
  let whole := cs.takeWhile Char.isDigit
  let (fraction, rest) := match cs.dropWhile Char.isDigit with
    | '.' :: after => (after.takeWhile Char.isDigit, after.dropWhile Char.isDigit)
    | after => ([], after)
  if whole = [] ∧ fraction = [] then none
  else (exponentPart? rest).map fun exponent ↦
    ⟨negative, digitsValue (whole ++ fraction), exponent - fraction.length⟩

def isSpecialWord (cs : List Char) : Bool :=
  ["inf", "infinity", "nan"].any fun word ↦ cs.map Char.toLower = word.toList

def readSingle (cs : List Char) : Except NumeralError Float32 :=
  if cs = [] then .error .emptyDecimal
  else
    let (negative, rest) := splitSign cs
    if isSpecialWord rest then .error .notFinite
    else match unsignedDecimal? negative rest with
      | none => .error .malformedDecimal
      | some d =>
        let x := Single.ofDecimal d
        if x.isFinite then .ok x else .error .notFinite

/-- Reads the digits of an integer from the front, refusing the first character that is no digit or
the first digit that leaves the range, whichever comes first. -/
def readDigits (limit : Nat) (overflow : NumeralError) : Nat → List Char → Except NumeralError Nat
  | value, [] => .ok value
  | value, c :: rest =>
    if c.isDigit then
      let next := 10 * value + digitValue c
      if next ≤ limit then readDigits limit overflow next rest else .error overflow
    else .error .invalidDigit

def readInteger (cs : List Char) : Except NumeralError Int :=
  match splitSign cs with
  | (_, []) => .error (if cs = [] then .emptyInteger else .invalidDigit)
  | (false, digits) => (readDigits (2 ^ (63 : Nat) - 1) .tooLarge 0 digits).map Int.ofNat
  | (true, digits) => (readDigits (2 ^ (63 : Nat)) .tooSmall 0 digits).map fun n ↦ -(n : Int)

end ReportPress.Number
