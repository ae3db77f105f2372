import ReportPress.Json.Printer
import ReportPress.Json.Reader
import ReportPress.Json.Record
import ReportPress.Page.Point

/-!
# Draw logs

A record of everything that was drawn, page by page, in the order of drawing. It can be written as
JSON and read back; a number that is not finite has no form there and is lost.
-/

namespace ReportPress

inductive DrawStep where
  | text (start : Point) (content face : String) (size : Float32)
  | fillColor (red green blue : Float32)
  | lineWidth (width : Float32)
  | rect (a b : Point)
  | roundedRect (a b : Point) (radius : Float32)
  | line (start stop : Point)
  | image (path : String) (corner : Point) (width height : Option Float32)
  | registerFont (face path : String)
  deriving BEq

structure DrawLog where
  title : String
  width : Float32
  height : Float32
  copies : UInt32
  pages : List (List DrawStep)
  deriving BEq

namespace DrawLog

def defaultTitle : String := "Report"

def blank (width height : Float32) : DrawLog := ⟨defaultTitle, width, height, 1, []⟩

def texts (log : DrawLog) : List String :=
  log.pages.flatten.filterMap fun
    | .text _ content _ _ => some content
    | _ => none

end DrawLog

/-! ## The form in JSON -/

namespace DrawStep

def toJson : DrawStep → Json
  | .text start content face size =>
    .object [("op", .string "text"), ("x", .ofSingle start.x), ("y", .ofSingle start.y),
      ("text", .string content), ("font", .string face), ("size", .ofSingle size)]
  | .fillColor red green blue =>
    .object [("op", .string "fill_color"), ("r", .ofSingle red), ("g", .ofSingle green),
      ("b", .ofSingle blue)]
  | .lineWidth width => .object [("op", .string "line_width"), ("width", .ofSingle width)]
  | .rect a b =>
    .object [("op", .string "rect"), ("x1", .ofSingle a.x), ("y1", .ofSingle a.y),
      ("x2", .ofSingle b.x), ("y2", .ofSingle b.y)]
  | .roundedRect a b radius =>
    .object [("op", .string "rounded_rect"), ("x1", .ofSingle a.x), ("y1", .ofSingle a.y),
      ("x2", .ofSingle b.x), ("y2", .ofSingle b.y), ("radius", .ofSingle radius)]
  | .line start stop =>
    .object [("op", .string "line"), ("x1", .ofSingle start.x), ("y1", .ofSingle start.y),
      ("x2", .ofSingle stop.x), ("y2", .ofSingle stop.y)]
  | .image path corner width height =>
    .object [("op", .string "image"), ("path", .string path), ("x", .ofSingle corner.x),
      ("y", .ofSingle corner.y), ("width", .ofSingle? width), ("height", .ofSingle? height)]
  | .registerFont face path =>
    .object [("op", .string "register_font"), ("name", .string face), ("path", .string path)]

def singles? (fields : List (Option Json)) : Option (List Float32) :=
  fields.mapM (·.bind Json.single?)

/-- A step in a page of a log has this much nesting left below it. -/
def nestingLeft : Nat := 123

def ofJson? (value : Json) : Option DrawStep := do
  let (op, rest) ← value.tagged? "op" nestingLeft
  match op with
  | "text" =>
    match ← rest.fields? ["x", "y", "text", "font", "size"] false with
    | [some x, some y, some content, some face, some size] =>
      return .text ⟨← x.single?, ← y.single?⟩ (← content.text?) (← face.text?) (← size.single?)
    | _ => none
  | "fill_color" =>
    match ← singles? (← rest.fields? ["r", "g", "b"] false) with
    | [red, green, blue] => return .fillColor red green blue
    | _ => none
  | "line_width" =>
    match ← singles? (← rest.fields? ["width"] false) with
    | [width] => return .lineWidth width
    | _ => none
  | "rect" =>
    match ← singles? (← rest.fields? ["x1", "y1", "x2", "y2"] false) with
    | [x1, y1, x2, y2] => return .rect ⟨x1, y1⟩ ⟨x2, y2⟩
    | _ => none
  | "rounded_rect" =>
    match ← singles? (← rest.fields? ["x1", "y1", "x2", "y2", "radius"] false) with
    | [x1, y1, x2, y2, radius] => return .roundedRect ⟨x1, y1⟩ ⟨x2, y2⟩ radius
    | _ => none
  | "line" =>
    match ← singles? (← rest.fields? ["x1", "y1", "x2", "y2"] false) with
    | [x1, y1, x2, y2] => return .line ⟨x1, y1⟩ ⟨x2, y2⟩
    | _ => none
  | "image" =>
    match ← rest.fields? ["path", "x", "y", "width", "height"] false with
    | [some path, some x, some y, width, height] =>
      return .image (← path.text?) ⟨← x.single?, ← y.single?⟩
        (← Json.nullable? Json.single? width) (← Json.nullable? Json.single? height)
    | _ => none
  | "register_font" =>
    match ← rest.fields? ["name", "path"] false with
    | [some face, some path] => return .registerFont (← face.text?) (← path.text?)
    | _ => none
  | _ => none

end DrawStep

namespace DrawLog

def toJson (log : DrawLog) : Json :=
  .object [("title", .string log.title), ("page_width_pt", .ofSingle log.width),
    ("page_height_pt", .ofSingle log.height), ("copies", .ofNat log.copies.toNat),
    ("pages", .array (log.pages.map fun page ↦
      .object [("ops", .array (page.map DrawStep.toJson))]))]

def pageOfJson? (value : Json) : Option (List DrawStep) := do
  match ← value.fields? ["ops"] false with
  | [some steps] => steps.list? DrawStep.ofJson?
  | _ => none

def ofJson? (value : Json) : Option DrawLog := do
  match ← value.fields? ["title", "page_width_pt", "page_height_pt", "copies", "pages"] false with
  | [title, some width, some height, copies, some pages] =>
    return {
      title := ← Json.orDefault? defaultTitle Json.text? title
      width := ← width.single?
      height := ← height.single?
      copies := UInt32.ofNat (← Json.orDefault? 1 (Json.natBelow? UInt32.size) copies)
      pages := ← pages.list? pageOfJson? }
  | _ => none

def toText (log : DrawLog) : String := log.toJson.pretty

def ofText? (text : String) : Option DrawLog := (Json.read? text).bind ofJson?

end DrawLog

end ReportPress
