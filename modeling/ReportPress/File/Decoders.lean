/-!
# Fonts and images out of bytes

What is made of the bytes of font and image files. How that is done is not this library's business:
it is left to an instance of `Decoders`, and what is proved holds for every instance. Fonts and
images are looked at twice, once to measure with them and once to embed them, and nothing says that
the two agree on which files will do.
-/

namespace ReportPress

/-- A font as it is measured with. -/
structure FontFace where
  unitsPerEm : Nat
  /-- The glyph that shows a character. -/
  glyph? : Char → Option Nat
  /-- How far a glyph advances, in units. -/
  advance? : Nat → Option Nat

structure PixelSize where
  width : Nat
  height : Nat
  deriving DecidableEq, Repr

/-- What is made of the bytes of files. An error is the reason that is reported. -/
class Decoders where
  parseFont : ByteArray → Except String FontFace
  canEmbedFont : ByteArray → Bool
  decodeImage : ByteArray → Except String PixelSize
  /-- The size of an image as it is embedded. -/
  embedImage : ByteArray → Except String PixelSize

end ReportPress
