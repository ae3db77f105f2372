import ReportPress.Json.Value

/-!
# Records in JSON

How a value of a structure is found in a JSON value. A record is an object, whose further members
are ignored and whose own members may not be repeated, or the array of its fields in order. A tagged
record says by a member which alternative it is; it is read whole before the tag is looked at, so
everything in it must be readable, even what is ignored later.
-/

namespace ReportPress.Json

open Number

-- Powers are those of the core library, whatever else is in scope.
attribute [local instance (2000)] instPowNat

/-- The fields of a record, in the order of `names`. An array has exactly that many items, or fewer
if `shortArray`, and then the last fields are missing. -/
def fields? (names : List String) (shortArray : Bool) : Json → Option (List (Option Json))
  | .object members =>
    if names.all fun name ↦ (members.filter (·.1 = name)).length ≤ 1 then
      some (names.map fun name ↦ members.lookup name)
    else none
  | .array items =>
    if items.length = names.length ∨ (shortArray ∧ items.length < names.length) then
      some ((List.range names.length).map fun i ↦ items[i]?)
    else none
  | _ => none

/-- Whether a value can be read without knowing what it is for: its numerals are in the range of
double precision, its strings denote texts, and it is nested at most `depth` deep. -/
def isReadable : (depth : Nat) → Json → Bool
  | _, .integer n => (Single.ofDecimalByDouble? ⟨n < 0, n.natAbs, 0⟩).isSome
  | _, .decimal d => (Single.ofDecimalByDouble? d).isSome
  | _, .brokenString => false
  | 0, .array _ => false
  | depth + 1, .array items => items.all (isReadable depth)
  | 0, .object _ => false
  | depth + 1, .object members => members.all fun (_, value) ↦ isReadable depth value
  | _, _ => true

/-- The tag of a tagged record and the record without it, read at a nesting of at most `depth`. -/
def tagged? (tag : String) (depth : Nat) (value : Json) : Option (String × Json) :=
  if isReadable depth value then
    match value with
    | .object members =>
      match members.filter (·.1 = tag) with
      | [(_, .string name)] => some (name, .object (members.filter (·.1 ≠ tag)))
      | _ => none
    | .array (.string name :: items) => some (name, .array items)
    | _ => none
  else none

/-! ## Fields -/

def text? : Json → Option String
  | .string s => some s
  | _ => none

/-- A single-precision number. An integer of at most sixty-four bits is rounded once, and every
other numeral by way of double precision. -/
def single? : Json → Option Float32
  | .integer n =>
    if -2 ^ (63 : Nat) ≤ n ∧ n < 2 ^ (64 : Nat) then some (Single.ofInt n)
    else Single.ofDecimalByDouble? ⟨n < 0, n.natAbs, 0⟩
  | .decimal d => Single.ofDecimalByDouble? d
  | _ => none

def natBelow? (bound : Nat) : Json → Option Nat
  | .integer n => if 0 ≤ n ∧ n < bound then some n.toNat else none
  | _ => none

def list? {α : Type} (item? : Json → Option α) : Json → Option (List α)
  | .array items => items.mapM item?
  | _ => none

def texts? : Json → Option (List (String × String))
  | .object members => members.mapM fun (name, value) ↦ (text? value).map fun s ↦ (name, s)
  | _ => none

/-- A field that may be missing or `null`. -/
def nullable? {α : Type} (read? : Json → Option α) : Option Json → Option (Option α)
  | none => some none
  | some .null => some none
  | some value => (read? value).map some

/-- A field that has a value of its own when it is missing. -/
def orDefault? {α : Type} (default : α) (read? : Json → Option α) : Option Json → Option α
  | none => some default
  | some value => read? value

end ReportPress.Json
