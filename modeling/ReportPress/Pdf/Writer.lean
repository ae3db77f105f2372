import ReportPress.Font.TrueType
import ReportPress.Image.Header
import ReportPress.Pdf.ContentStream

/-!
# Writing documents

A document as the bytes of a file: numbered objects, a table of where each begins, and a trailer.
Font files are embedded whole. The samples of an image are taken over as they are compressed in its
file; an image whose samples cannot be taken over so is left blank.
-/

namespace ReportPress.Pdf

open Bytes Number

namespace Writer

/-- A number operand. What is not finite has no form in a file and becomes zero. -/
def number (x : Float32) : String := if x.isFinite then Single.text x else "0"

def numbers (xs : List Float32) : String := " ".intercalate (xs.map number)

def hexByte (b : UInt8) : String :=
  String.ofList [Nat.digitChar (b.toNat / 16), Nat.digitChar (b.toNat % 16)]

def hexString (bytes : List UInt8) : String := "<" ++ String.join (bytes.map hexByte) ++ ">"

def twoBytes (n : Nat) : List UInt8 := [UInt8.ofNat (n / 256), UInt8.ofNat (n % 256)]

/-- A text as a string operand: a mark of the encoding, then sixteen-bit units. -/
def textString (text : String) : String :=
  hexString ([0xFE, 0xFF] ++ text.toList.flatMap fun c ↦
    let n := c.toNat
    if n < 0x10000 then twoBytes n
    else twoBytes (0xD800 + (n - 0x10000) / 0x400) ++ twoBytes (0xDC00 + (n - 0x10000) % 0x400))

/-- The name by which content refers to a built-in face. -/
def builtinName (faces : List String) (face : String) : String := s!"/B{faces.idxOf face}"

/-- The glyph numbers of a text in a font file, as a string operand. -/
def glyphString (resources : Array Resource) (font : Nat) (text : String) : String :=
  let glyph : Char → Nat := match resources[font]? with
    | some (.font _ bytes) =>
      match TrueType.read bytes with
      | .ok file => fun c ↦ (file.glyph? c).getD 0
      | .error _ => fun _ ↦ 0
    | _ => fun _ ↦ 0
  hexString (text.toList.flatMap fun c ↦ twoBytes (glyph c))

/-- The operators of a page as text, one to a line. The font that is selected last decides how text
is encoded. -/
def lines (document : Document) (faces : List String) : (font : Nat) → List Operator → String
  | _, [] => ""
  | font, operator :: rest =>
    let line : String := match operator with
      | .fillColor r g b => numbers [r, g, b] ++ " rg"
      | .strokeColor r g b => numbers [r, g, b] ++ " RG"
      | .lineWidth w => number w ++ " w"
      | .beginText => "BT"
      | .moveText p => numbers [p.x, p.y] ++ " Td"
      | .selectFont (.builtin face) size => builtinName faces face ++ " " ++ number size ++ " Tf"
      | .selectFont (.embedded n) size => s!"/R{n} {number size} Tf"
      | .showText (.bytes codes) => hexString codes ++ " Tj"
      | .showText (.glyphs text) => glyphString document.resources font text ++ " Tj"
      | .endText => "ET"
      | .moveTo p => numbers [p.x, p.y] ++ " m"
      | .lineTo p => numbers [p.x, p.y] ++ " l"
      | .curveTo p q r => numbers [p.x, p.y, q.x, q.y, r.x, r.y] ++ " c"
      | .closePath => "h"
      | .stroke => "S"
      | .save => "q"
      | .place a d p => numbers [a, 0, 0, d, p.x, p.y] ++ " cm"
      | .paint n => s!"/R{n} Do"
      | .restore => "Q"
    let font := match operator with
      | .selectFont (.embedded n) _ => n
      | _ => font
    line ++ "\n" ++ lines document faces font rest

/-! ## Objects -/

/-- The body of an object that has a stream. -/
def stream (entries : String) (bytes : ByteArray) : ByteArray :=
  s!"<< {entries} /Length {bytes.size} >>\nstream\n".toUTF8 ++ bytes ++ "\nendstream".toUTF8

/-- The data of the chunks of a kind in a PNG file, put together, from an offset on. -/
def chunkData (bytes : ByteArray) (kind : Nat) : (fuel offset : Nat) → ByteArray
  | 0, _ => .empty
  | fuel + 1, offset =>
    match u32? bytes offset, u32? bytes (offset + 4) with
    | some length, some k =>
      let rest := chunkData bytes kind fuel (offset + 12 + length)
      if k = kind then bytes.extract (offset + 8) (offset + 8 + length) ++ rest else rest
    | _, _ => .empty

/-- A rectangle with nothing in it, scaled like an image. -/
def blankImage : ByteArray := stream "/Type /XObject /Subtype /Form /BBox [0 0 1 1]" .empty

/-- The body of an image object. -/
def image (size : PixelSize) (bytes : ByteArray) : ByteArray :=
  let head := s!"/Type /XObject /Subtype /Image /Width {size.width} /Height {size.height}"
  if bytes.data[0]? = some 0xFF then
    let space := match PixelSize.jpegComponents? bytes with
      | some 1 => "/DeviceGray"
      | some 4 => "/DeviceCMYK"
      | _ => "/DeviceRGB"
    stream (head ++ s!" /ColorSpace {space} /BitsPerComponent 8 /Filter /DCTDecode") bytes
  else
    -- In a PNG file, the depth, the kind of colour and whether rows are interlaced are at fixed
    -- places.
    let byteAt (offset : Nat) : Nat := (bytes.data[offset]?.getD 0).toNat
    let depth := byteAt 24
    let samples := chunkData bytes 0x49444154 bytes.size 8
    let entries (space : String) (colors : Nat) : String :=
      head ++ s!" /ColorSpace {space} /BitsPerComponent {depth} /Filter /FlateDecode" ++
        s!" /DecodeParms << /Predictor 15 /Colors {colors} /BitsPerComponent {depth}" ++
        s!" /Columns {size.width} >>"
    match byteAt 25, byteAt 28 with
    | 0, 0 => stream (entries "/DeviceGray" 1) samples
    | 2, 0 => stream (entries "/DeviceRGB" 3) samples
    | 3, 0 =>
      let palette := chunkData bytes 0x504C5445 bytes.size 8
      let space := s!"[/Indexed /DeviceRGB {palette.size / 3 - 1} {hexString palette.data.toList}]"
      stream (entries space 1) samples
    | _, _ => blankImage

/-- The bodies of the objects of a resource, the first having the given number. A font takes
four. -/
def resource (first : Nat) : Resource → List ByteArray
  | .image _ size bytes => [image size bytes]
  | .font face bytes =>
    let name := "/" ++ String.ofList (face.toList.filter Char.isAlphanum)
    [s!"<< /Type /Font /Subtype /Type0 /BaseFont {name} /Encoding /Identity-H ".toUTF8 ++
       s!"/DescendantFonts [{first + 1} 0 R] >>".toUTF8,
     s!"<< /Type /Font /Subtype /CIDFontType2 /BaseFont {name} /CIDToGIDMap /Identity ".toUTF8 ++
       "/CIDSystemInfo << /Registry (Adobe) /Ordering (Identity) /Supplement 0 >> ".toUTF8 ++
       s!"/FontDescriptor {first + 2} 0 R >>".toUTF8,
     s!"<< /Type /FontDescriptor /FontName {name} /Flags 4 /FontBBox [0 0 1000 1000] ".toUTF8 ++
       "/ItalicAngle 0 /Ascent 800 /Descent -200 /CapHeight 700 /StemV 80 ".toUTF8 ++
       s!"/FontFile2 {first + 3} 0 R >>".toUTF8,
     stream s!"/Length1 {bytes.size}" bytes]

def resourceObjects : (next : Nat) → List Resource → List (Nat × List ByteArray)
  | _, [] => []
  | next, r :: rest =>
    let bodies := resource next r
    (next, bodies) :: resourceObjects (next + bodies.length) rest

/-- The file that has these objects, numbered from one, the first being the catalog and the third
the information about the document. -/
def file (bodies : List ByteArray) : ByteArray :=
  let start := "%PDF-1.7\n".toUTF8
  let (all, offsets) := bodies.foldl
    (fun (done, offsets) body ↦
      (done ++ s!"{offsets.size + 1} 0 obj\n".toUTF8 ++ body ++ "\nendobj\n".toUTF8,
        offsets.push done.size))
    (start, (#[] : Array Nat))
  -- Every entry of the table is twenty bytes long.
  let pad (n : Nat) : String :=
    let digits := Nat.toDigits 10 n
    String.ofList (List.replicate (10 - digits.length) '0' ++ digits)
  let table := String.join (offsets.toList.map fun offset ↦ pad offset ++ " 00000 n \n")
  all ++ s!"xref\n0 {offsets.size + 1}\n0000000000 65535 f \n{table}".toUTF8 ++
    s!"trailer\n<< /Size {offsets.size + 1} /Root 1 0 R /Info 3 0 R >>\n".toUTF8 ++
    s!"startxref\n{all.size}\n%%EOF\n".toUTF8

end Writer

/-- The built-in faces that text on some page is written in, each once, in the order of their first
use. -/
def Document.builtinFonts (document : Document) : List String :=
  (document.pages.flatMap fun page ↦ page.instructions.filterMap fun
    | .writeText (.builtin face) _ => some face
    | _ => none).eraseDups

open Writer in
def Writer.write (options : SaveOptions) (document : Document) : ByteArray :=
  let faces := document.builtinFonts
  let fonts := faces.map fun face ↦
    s!"<< /Type /Font /Subtype /Type1 /BaseFont /{face} /Encoding /WinAnsiEncoding >>".toUTF8
  -- The catalog, the list of pages, the information and the resources come first.
  let firstResource := 5 + fonts.length
  let parts := resourceObjects firstResource document.resources.toList
  let firstPage := firstResource + (parts.flatMap fun (_, bodies) ↦ bodies).length
  let entry (name : String) (number : Nat) : String := s!"{name} {number} 0 R "
  let fontEntries := String.join (faces.mapIdx fun i _ ↦ entry s!"/B{i}" (5 + i))
  let numbered := (parts.zip document.resources.toList).mapIdx fun i ((first, _), r) ↦ (i, first, r)
  let embedded := String.join (numbered.map fun (i, first, r) ↦ match r with
    | .font _ _ => entry s!"/R{i}" first
    | .image _ _ _ => "")
  let images := String.join (numbered.map fun (i, first, r) ↦ match r with
    | .font _ _ => ""
    | .image _ _ _ => entry s!"/R{i}" first)
  let pages := (document.pages.mapIdx fun i page ↦
    let box := " ".intercalate ((mediaBox page.width page.height).map toString)
    let content := page.instructions.flatMap (operators options)
    [s!"<< /Type /Page /Parent 2 0 R /MediaBox [{box}] ".toUTF8 ++
       s!"/Resources 4 0 R /Contents {firstPage + 2 * i + 1} 0 R >>".toUTF8,
     stream "" (lines document faces 0 content).toUTF8]).flatten
  let kids := " ".intercalate (document.pages.mapIdx fun i _ ↦ s!"{firstPage + 2 * i} 0 R")
  file (["<< /Type /Catalog /Pages 2 0 R >>".toUTF8,
    s!"<< /Type /Pages /Kids [{kids}] /Count {document.pages.length} >>".toUTF8,
    s!"<< /Title {textString document.title} >>".toUTF8,
    s!"<< /Font << {fontEntries}{embedded}>> /XObject << {images}>> >>".toUTF8]
    ++ fonts ++ (parts.flatMap Prod.snd) ++ pages)

instance writer : PdfLibrary where
  operators := Writer.operators
  mediaBox := Writer.mediaBox
  file := Writer.write

end ReportPress.Pdf
