import ReportPress.Number.Single

/-!
# JSON values

A JSON value keeps what its text says and rounds nothing: a numeral is an integer or a decimal
number, and the members of an object stay in their order, repeated names included. A string whose
escapes name half of a surrogate pair denotes no text, but it may stand where nobody asks for its
text, so it has a place among the values.
-/

namespace ReportPress

open Number

inductive Json where
  | null
  | bool (value : Bool)
  /-- A numeral without fraction and exponent; a minus sign in front of zero makes it a decimal. -/
  | integer (value : Int)
  /-- Any other numeral. -/
  | decimal (value : Decimal)
  | string (text : String)
  /-- A string that denotes no text. -/
  | brokenString
  | array (items : List Json)
  | object (members : List (String × Json))
  deriving Inhabited

namespace Json

/-- A single-precision number as a JSON value: the fewest digits that read back, always as a
decimal. What is not finite has no numeral and becomes `null`. -/
def ofSingle (x : Float32) : Json :=
  match Single.toDecimal? .even x with
  | some d => .decimal d
  | none => .null

def ofSingle? : Option Float32 → Json
  | some x => ofSingle x
  | none => .null

def ofNat (n : Nat) : Json := .integer n

def ofStrings (texts : List String) : Json := .array (texts.map .string)

end Json

end ReportPress
