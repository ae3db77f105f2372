import ReportPress.Page.Point

/-!
# Outlines

The outlines of boxes, counter-clockwise from the lower edge. The formulas ask little of the numbers
they are made of, and `Coordinate` says what; so the same formulas are drawn in single precision and
can be reasoned about over exact numbers.
-/

namespace ReportPress

open Number

/-- The arithmetic that outlines need. -/
class Coordinate (α : Type) extends Add α, Sub α, Mul α where
  smaller : α → α → α
  larger : α → α → α
  half : α → α
  zero : α
  /-- The length of a handle for a quarter circle, as a part of the radius. -/
  handleRatio : α

instance : Coordinate Float32 where
  smaller := Single.minimum
  larger := Single.maximum
  half x := x / 2.0
  zero := 0.0
  handleRatio := 0.5522848

structure OutlinePoint (α : Type) where
  point : PointOf α
  isHandle : Bool
  deriving DecidableEq, Repr

namespace Outline

variable {α : Type}

def corner (x y : α) : OutlinePoint α := ⟨⟨x, y⟩, false⟩

def handle (x y : α) : OutlinePoint α := ⟨⟨x, y⟩, true⟩

variable [Coordinate α]

open Coordinate

def lowerLeft (a b : PointOf α) : PointOf α := ⟨smaller a.x b.x, smaller a.y b.y⟩

def upperRight (a b : PointOf α) : PointOf α := ⟨larger a.x b.x, larger a.y b.y⟩

def ofRect (a b : PointOf α) : List (OutlinePoint α) :=
  let lo := lowerLeft a b
  let hi := upperRight a b
  [corner lo.x lo.y, corner hi.x lo.y, corner hi.x hi.y, corner lo.x hi.y]

/-- The radius that fits into a box: at most half of either side, and not negative. -/
def fittingRadius (lo hi : PointOf α) (radius : α) : α :=
  larger (smaller (smaller radius (half (hi.x - lo.x))) (half (hi.y - lo.y))) zero

/-- The box from `lo` to `hi` with corners of radius `r`, each one curve from side to side. The
first point is repeated at the end. -/
def rounded (lo hi : PointOf α) (r : α) : List (OutlinePoint α) :=
  let k := r * handleRatio
  [corner (lo.x + r) lo.y,
   corner (hi.x - r) lo.y,
   handle (hi.x - r + k) lo.y, handle hi.x (lo.y + r - k),
   corner hi.x (lo.y + r),
   corner hi.x (hi.y - r),
   handle hi.x (hi.y - r + k), handle (hi.x - r + k) hi.y,
   corner (hi.x - r) hi.y,
   corner (lo.x + r) hi.y,
   handle (lo.x + r - k) hi.y, handle lo.x (hi.y - r + k),
   corner lo.x (hi.y - r),
   corner lo.x (lo.y + r),
   handle lo.x (lo.y + r - k), handle (lo.x + r - k) lo.y,
   corner (lo.x + r) lo.y]

/-- The rectangle between two opposite corners, its own corners rounded as far as they fit. -/
def ofRoundedRect (a b : PointOf α) (radius : α) : List (OutlinePoint α) :=
  let lo := lowerLeft a b
  let hi := upperRight a b
  rounded lo hi (fittingRadius lo hi radius)

end Outline

end ReportPress
