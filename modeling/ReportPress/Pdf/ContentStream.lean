import ReportPress.Pdf.Library

/-!
# Content streams

How the program writes instructions as operators: a text object with a string for each text, a path
for each line, and an image between saving and restoring the graphics state.
-/

namespace ReportPress.Pdf.Writer

open Number

/-- The lines and curves through the points of a line after the first. Two handles and the point
after them are a curve. -/
def segments : List (OutlinePoint Float32) → List Operator
  | first :: second :: stop :: rest =>
    if first.isHandle then .curveTo first.point second.point stop.point :: segments rest
    else .lineTo first.point :: segments (second :: stop :: rest)
  | p :: rest => .lineTo p.point :: segments rest
  | [] => []

/-- The path that strokes a line. -/
def path (points : List (OutlinePoint Float32)) (isClosed : Bool) : List Operator :=
  let ending : List Operator := if isClosed then [.closePath, .stroke] else [.stroke]
  match points with
  | [] => ending
  | p :: rest => .moveTo p.point :: segments rest ++ ending

/-- A row of pixels in points, at so many dots to an inch and then scaled. -/
def rowLength (pixels : Nat) (dotsPerInch scale : Float32) : Float32 :=
  Single.ofInt pixels * (25.4 / dotsPerInch) * 2.834646 * scale

/-- A text as its font shows it. -/
def shownIn (font : FontRef) (text : String) : Shown :=
  match font with
  | .builtin _ => .bytes text.toUTF8.data.toList
  | .embedded _ => .glyphs text

def operators (options : SaveOptions) : Instruction → List Operator
  | .fillColor red green blue => [.fillColor red green blue]
  | .outlineColor red green blue => [.strokeColor red green blue]
  | .outlineThickness width => [.lineWidth width]
  | .beginText => [.beginText]
  | .moveText start => [.moveText start]
  | .selectFont font size => [.selectFont font size]
  | .writeText font items => items.map fun text ↦ .showText (shownIn font text)
  | .showCodes codes => if options.secure then [] else [.showText (.bytes codes)]
  | .endText => [.endText]
  | .drawLine points isClosed => path points isClosed
  | .placeImage image placement =>
    [.save,
     .place (rowLength image.size.width placement.dotsPerInch placement.xScale)
       (rowLength image.size.height placement.dotsPerInch placement.yScale) placement.corner,
     .paint image.number, .restore]

/-- A length in millimetres in whole points, a half going away from zero. It ends where sixty-four
bits end, and what is not a number has no length. -/
def wholePoints (length : Float32) : Int :=
  (Single.roundHalfAway (length * 2.834646)).toInt64.toInt

def mediaBox (width height : Float32) : List Int := [0, 0, wholePoints width, wholePoints height]

end ReportPress.Pdf.Writer
