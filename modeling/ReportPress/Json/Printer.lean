import ReportPress.Json.Value

/-!
# Writing JSON texts

Values are written over several lines, two blanks further in at each level, with an empty array or
object on one line. Strings escape the quotation mark, the backslash and the controls below the
space, and nothing else.
-/

namespace ReportPress.Json

open Number

/-- Numerals in JSON texts keep a fraction on whole numbers, are positional while the decimal point
falls at most five places before the digits or thirteen places into them, and mark a positive
exponent. -/
def numeralLayout : DecimalLayout where
  positional point := decide (-5 ≤ point ∧ point ≤ 13)
  keepsFraction := true
  plusOnExponent := true

/-- Four hexadecimal digits, small letters, of a number below 256. -/
def escapeNumber (n : Nat) : List Char :=
  ['\x5c', 'u', '0', '0', Nat.digitChar (n / 16), Nat.digitChar (n % 16)]

def escapeChar (c : Char) : List Char :=
  if c = '\x22' then ['\x5c', '\x22']
  else if c = '\x5c' then ['\x5c', '\x5c']
  else if c = '\x08' then ['\x5c', 'b']
  else if c = '\x0c' then ['\x5c', 'f']
  else if c = '\n' then ['\x5c', 'n']
  else if c = '\r' then ['\x5c', 'r']
  else if c = '\t' then ['\x5c', 't']
  else if c.toNat < 0x20 then escapeNumber c.toNat
  else [c]

def stringText (s : String) : List Char :=
  '\x22' :: s.toList.flatMap escapeChar ++ ['\x22']

def integerText (n : Int) : List Char :=
  (if n < 0 then ['-'] else []) ++ Nat.toDigits 10 n.natAbs

def lineStart (level : Nat) : List Char := '\n' :: List.replicate (2 * level) ' '

mutual

def prettyAt (level : Nat) : Json → List Char
  | .null => "null".toList
  | .bool true => "true".toList
  | .bool false => "false".toList
  | .integer n => integerText n
  | .decimal d => numeralLayout.render d
  | .string s => stringText s
  | .brokenString => stringText ""
  | .array [] => "[]".toList
  | .array (item :: items) =>
    '[' :: lineStart (level + 1) ++ prettyAt (level + 1) item ++ prettyItems (level + 1) items
      ++ lineStart level ++ [']']
  | .object [] => ['\x7b', '\x7d']
  | .object ((name, value) :: members) =>
    '\x7b' :: lineStart (level + 1) ++ stringText name ++ [':', ' '] ++ prettyAt (level + 1) value
      ++ prettyMembers (level + 1) members ++ lineStart level ++ ['\x7d']

def prettyItems (level : Nat) : List Json → List Char
  | [] => []
  | item :: items => ',' :: lineStart level ++ prettyAt level item ++ prettyItems level items

def prettyMembers (level : Nat) : List (String × Json) → List Char
  | [] => []
  | (name, value) :: members =>
    ',' :: lineStart level ++ stringText name ++ [':', ' '] ++ prettyAt level value
      ++ prettyMembers level members

end

def pretty (value : Json) : String := String.ofList (prettyAt 0 value)

end ReportPress.Json
