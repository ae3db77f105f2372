import ReportPress.File.Decoders
import ReportPress.Number.Single

/-!
# Measuring text

The width of a text in a face and size. Faces read from files are measured by their own advances.
All other faces have one average advance for every character, which is exact for the fixed-width
family.
-/

namespace ReportPress

open Number

/-- A font file to measure with. Its bytes are parsed anew for every text. -/
structure FontFile where
  bytes : ByteArray
  unitsPerEm : Float32

/-- The faces that were read from files, by name. -/
structure FontMetrics where
  embedded : List (String × FontFile)

namespace FontMetrics

def builtin : FontMetrics := ⟨[]⟩

def add (metrics : FontMetrics) (face : String) (file : FontFile) : FontMetrics :=
  ⟨(face, file) :: metrics.embedded.filter (·.1 ≠ face)⟩

/-- Reads a face from the bytes of a file. An error is how the failure is reported. -/
def load [Decoders] (metrics : FontMetrics) (face : String) (bytes : ByteArray) :
    Except String FontMetrics :=
  match Decoders.parseFont bytes with
  | .ok font => .ok (metrics.add face ⟨bytes, Single.ofInt font.unitsPerEm⟩)
  | .error reason => .error ("Failed to parse font: " ++ reason)

def occursIn (piece : List Char) : List Char → Bool
  | [] => piece.isEmpty
  | c :: rest => piece.isPrefixOf (c :: rest) || occursIn piece rest

/-- The average advance of a face without a file, in ems, told by its name. -/
def averageAdvance (face : String) : Float32 :=
  let name := face.toList
  let isBold := occursIn "Bold".toList name
  if "Courier".toList.isPrefixOf name ∨ face = "Symbol" ∨ face = "ZapfDingbats" then 0.6
  else if "Times".toList.isPrefixOf name then if isBold then 0.5 else 0.45
  else if isBold then 0.55
  else 0.5

/-- The width of a text by the advances of a font. A character that no glyph shows is half an em
wide, and a glyph without an advance has no width. -/
def embeddedWidth (font : FontFace) (unitsPerEm : Float32) (text : String) (size : Float32) :
    Float32 :=
  let scale := size / unitsPerEm
  text.toList.foldl
    (fun width c ↦ width + match font.glyph? c with
      | some glyph => Single.ofInt ((font.advance? glyph).getD 0) * scale
      | none => size * 0.5)
    -- The sum of no advances is negative zero.
    (-0.0)

def width [Decoders] (metrics : FontMetrics) (text face : String) (size : Float32) : Float32 :=
  match metrics.embedded.lookup face with
  | none => Single.ofInt text.length * size * averageAdvance face
  | some file =>
    match Decoders.parseFont file.bytes with
    | .ok font => embeddedWidth font file.unitsPerEm text size
    | .error _ => Single.ofInt text.length * size * 0.5

end FontMetrics

end ReportPress
