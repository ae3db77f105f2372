import ReportPress.Pdf.Instruction

/-!
# Page content

The operators of a page's content stream, as far as reports need them.
-/

namespace ReportPress.Pdf

inductive Shown where
  /-- The bytes of text in a built-in face. -/
  | bytes (codes : List UInt8)
  /-- Text in a face read from a file, a glyph for each character. -/
  | glyphs (text : String)
  deriving DecidableEq, Repr

/-- An operator of a content stream with its operands. -/
inductive Operator where
  | fillColor (red green blue : Float32) -- rg
  | strokeColor (red green blue : Float32) -- RG
  | lineWidth (width : Float32) -- w
  | beginText -- BT
  | moveText (start : Point) -- Td
  | selectFont (font : FontRef) (size : Float32) -- Tf
  | showText (shown : Shown) -- Tj
  | endText -- ET
  | moveTo (point : Point) -- m
  | lineTo (point : Point) -- l
  | curveTo (first second stop : Point) -- c, with two handles
  | closePath -- h
  | stroke -- S
  | save -- q
  | place (xScale yScale : Float32) (origin : Point) -- cm, scaling and moving
  | paint (image : Nat) -- Do
  | restore -- Q
  deriving DecidableEq

end ReportPress.Pdf
