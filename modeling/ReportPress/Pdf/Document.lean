import ReportPress.File.Path
import ReportPress.Pdf.Instruction

/-!
# Documents

A finished document as it is handed to the library that writes it: its title, its pages with their
instructions, and the fonts and images that instructions refer to by number.
-/

namespace ReportPress.Pdf

/-- A length in points, in millimetres. -/
def millimetres (points : Float32) : Float32 := points * 0.352778

/-- A finished page. Its sides are in millimetres. -/
structure Page where
  width : Float32
  height : Float32
  instructions : List Instruction

inductive Resource where
  | font (face : String) (bytes : ByteArray)
  | image (path : Path) (size : PixelSize) (bytes : ByteArray)

structure Document where
  title : String
  pages : List Page
  /-- The fonts and images; the place of each is the number that instructions refer to it by. -/
  resources : Array Resource

structure SaveOptions where
  /-- Whether instructions that the library does not know are left out. -/
  secure : Bool
  deriving DecidableEq, Repr

/-- Codes that are shown without the library have to get into the file. -/
def saveOptions : SaveOptions := ⟨false⟩

end ReportPress.Pdf
