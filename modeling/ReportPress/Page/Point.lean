import ReportPress.Number.Single

/-!
# Points on a page

Coordinates are in points of 1/72 inch, with the origin in the lower left corner of the page and `y`
growing upwards. The type is kept open in its coordinates, so that what is said about shapes can be
said of exact numbers too.
-/

namespace ReportPress

open Number

/-- A point with coordinates of any kind. -/
structure PointOf (α : Type) where
  x : α
  y : α
  deriving DecidableEq, BEq, Repr

abbrev Point := PointOf Float32

/-- Notes on progress write a coordinate with a fraction even when it is whole, and with an exponent
outside a middle range. -/
def Point.layout : DecimalLayout where
  positional point := decide (-3 ≤ point ∧ point ≤ 16)
  keepsFraction := true
  plusOnExponent := false

def Point.coordinateText (x : Float32) : String :=
  match Single.toDecimal? .up x with
  | some d => String.ofList (Point.layout.render d)
  | none => Single.specialText x

def Point.shown (p : Point) : String :=
  "Point \x7b x: " ++ Point.coordinateText p.x ++ ", y: " ++ Point.coordinateText p.y ++ " \x7d"

end ReportPress
