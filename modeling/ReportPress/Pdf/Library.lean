import ReportPress.Pdf.Document
import ReportPress.Pdf.Operator

/-!
# The library that writes documents

Documents are written by a library that is not part of this one. An instance of `PdfLibrary` says
what it makes of a document; what is proved of page content asks for the laws that it is relied on
for, and for nothing else.
-/

namespace ReportPress.Pdf

/-- What a library makes of instructions, pages and documents. -/
class PdfLibrary where
  /-- The operators in the content stream of a page that an instruction comes to. -/
  operators : SaveOptions → Instruction → List Operator
  /-- The rectangle of a page with sides in millimetres. -/
  mediaBox : (width height : Float32) → List Int
  file : SaveOptions → Document → ByteArray

variable [PdfLibrary]

/-- The content stream of a page. -/
def content (instructions : List Instruction) : List Operator :=
  instructions.flatMap (PdfLibrary.operators saveOptions)

def Page.content (page : Page) : List Operator := Pdf.content page.instructions

def Page.mediaBox (page : Page) : List Int := PdfLibrary.mediaBox page.width page.height

def Document.toBytes (document : Document) : ByteArray := PdfLibrary.file saveOptions document

end ReportPress.Pdf
