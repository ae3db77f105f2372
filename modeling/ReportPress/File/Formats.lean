import ReportPress.Font.TrueType
import ReportPress.Image.Header

/-!
# The formats that the program reads

The decoders that the program runs with. Fonts are TrueType files and images are PNG and JPEG files;
of an image only the headers are looked at. A file that will do for one purpose will do for the
other.
-/

namespace ReportPress

/-- What is said of a file that is not an image. -/
def unusableImageReason : String := "damaged or of an unknown kind"

def PixelSize.read (bytes : ByteArray) : Except String PixelSize :=
  match PixelSize.ofBytes? bytes with
  | some size => .ok size
  | none => .error unusableImageReason

instance knownFormats : Decoders where
  parseFont bytes := ((TrueType.read bytes).map TrueType.toFace).mapError FontFault.message
  canEmbedFont bytes := (TrueType.read bytes).toBool
  decodeImage := PixelSize.read
  embedImage := PixelSize.read

end ReportPress
