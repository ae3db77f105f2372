import ReportPress.File.Decoders
import ReportPress.Pdf.Outline
import ReportPress.Text.WinAnsi

/-!
# Page instructions

What the canvas asks for on a page, in the words of the library that writes the document. Which
operators of a content stream an instruction comes to is the library's business (`PdfLibrary`).
-/

namespace ReportPress.Pdf

open Text

inductive FontRef where
  | builtin (face : String)
  /-- A face read from a file, by its number among the resources. -/
  | embedded (number : Nat)
  deriving DecidableEq, Repr

/-- An image of the document, by its number among the resources, with its size as it was
embedded. -/
structure ImageRef where
  number : Nat
  size : PixelSize
  deriving DecidableEq, Repr

/-- Where an image is placed, and how large. -/
structure Placement where
  corner : Point
  dotsPerInch : Float32
  xScale : Float32
  yScale : Float32
  deriving DecidableEq

/-- An instruction to the library. -/
inductive Instruction where
  | fillColor (red green blue : Float32)
  | outlineColor (red green blue : Float32)
  | outlineThickness (width : Float32)
  | beginText
  | moveText (start : Point)
  | selectFont (font : FontRef) (size : Float32)
  /-- Writes texts, one after the other. -/
  | writeText (font : FontRef) (items : List String)
  /-- Shows the glyphs of some codes. The library does not know this instruction and hands it on. -/
  | showCodes (codes : List UInt8)
  | endText
  | drawLine (points : List (OutlinePoint Float32)) (isClosed : Bool)
  | placeImage (image : ImageRef) (placement : Placement)
  deriving DecidableEq

namespace Instruction

/-- The instructions that show a text in a font. The library writes the characters of a text in a
built-in face as they are, so codes beyond ASCII are shown without it; that nothing is written then
keeps the face among the fonts of the page. -/
def shown (font : FontRef) (text : String) : List Instruction :=
  match font with
  | .builtin _ =>
    if text.toList.all (·.toNat < 0x80) then [.writeText font [text]]
    else [.writeText font [], .showCodes (WinAnsi.encode text)]
  | .embedded _ => [.writeText font [text]]

def textObject (start : Point) (font : FontRef) (size : Float32) (text : String) :
    List Instruction :=
  .beginText :: .moveText start :: .selectFont font size :: shown font text ++ [.endText]

def strokeOutline (outline : List (OutlinePoint Float32)) : Instruction := .drawLine outline true

def strokeLine (start stop : Point) : Instruction :=
  .drawLine [⟨start, false⟩, ⟨stop, false⟩] false

end Instruction

/-- The scale at which a row of pixels, each a point wide, has the wanted length. -/
def scaleTo (wanted : Option Float32) (pixels : Nat) : Float32 :=
  match wanted with
  | some length => if 0 < pixels then length / Number.Single.ofInt pixels else 1
  | none => 1

/-- Places an image of a size in pixels, each a point wide unless another length is wanted. -/
def Instruction.image (image : ImageRef) (size : PixelSize) (corner : Point)
    (width height : Option Float32) : Instruction :=
  .placeImage image ⟨corner, 72, scaleTo width size.width, scaleTo height size.height⟩

end ReportPress.Pdf
