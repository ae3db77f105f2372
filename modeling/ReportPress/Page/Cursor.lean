import ReportPress.Page.Point

/-!
# The cursor

Where the next thing is drawn, and the places that were put aside to come back to, the latest first.
-/

namespace ReportPress

/-- A place on the page and the places put aside. -/
structure Cursor where
  point : Point
  saved : List Point
  deriving DecidableEq

namespace Cursor

def start (point : Point) : Cursor := ⟨point, []⟩

def moveTo (cursor : Cursor) (point : Point) : Cursor := { cursor with point }

def push (cursor : Cursor) : Cursor := { cursor with saved := cursor.point :: cursor.saved }

/-- Goes back to the place put aside last; none when there is none. -/
def pop? (cursor : Cursor) : Option Cursor :=
  match cursor.saved with
  | [] => none
  | point :: saved => some ⟨point, saved⟩

end Cursor

end ReportPress
