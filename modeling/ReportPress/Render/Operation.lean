/-!
# The vocabulary of tags

What the names in tags stand for. Several names may mean the same; case counts.
-/

namespace ReportPress

inductive Corners where
  | square
  | rounded
  deriving DecidableEq, Repr

inductive Operation where
  /-- Go to the upper left corner of the page. -/
  | printInit
  | printEnd
  | output
  | lineEnd
  | bold (on : Bool)
  | italic (on : Bool)
  /-- Set the font size, to a size of its own or to the one in the arguments. -/
  | fontSize (fixed : Option Float32)
  | fontName
  | fillColor
  | copies
  | boxStart
  | boxEnd (corners : Corners)
  | lineStart
  | lineStop
  | lineWidth
  | newPage
  | picture
  | up
  | down
  | moveAbsolute
  | moveRelative
  | right
  | leftMargin
  | pushPosition
  | popPosition
  deriving DecidableEq

namespace Operation

def vocabulary : List (String × Operation) :=
  [("PRINTINIT", .printInit), ("PRINTEND", .printEnd), ("LEND", .lineEnd), ("newline", .lineEnd),
   ("printstring", .output), ("SHOWLINE", .output), ("LMARGIN", .leftMargin),
   ("PUSHPOS", .pushPosition), ("POPPOS", .popPosition), ("BOLDON", .bold true),
   ("B1", .bold true), ("BOLDOFF", .bold false), ("B0", .bold false), ("ITALICON", .italic true),
   ("I1", .italic true), ("ITALICOFF", .italic false), ("I0", .italic false),
   ("SETFONT16", .fontSize (some 16)), ("SETFONT12", .fontSize (some 12)),
   ("SETFONT10", .fontSize (some 10)), ("SETFONT8", .fontSize (some 8)),
   ("SETFONT6", .fontSize (some 6)), ("SETFONT", .fontSize none), ("SF", .fontSize none),
   ("FONTNAME", .fontName), ("SETCOLOR", .fillColor), ("COPIES", .copies), ("BOXS", .boxStart),
   ("RBOXS", .boxStart), ("BOXE", .boxEnd .square), ("RBOXE", .boxEnd .rounded),
   ("LINES", .lineStart), ("L1", .lineStart), ("LINEE", .lineStop), ("L0", .lineStop),
   ("LINEWIDTH", .lineWidth), ("LW", .lineWidth), ("NEWPAGE", .newPage), ("PIC", .picture),
   ("UP", .up), ("DOWN", .down), ("MA", .moveAbsolute), ("MR", .moveRelative), ("RIGHT", .right)]

def named? (name : String) : Option Operation := vocabulary.lookup name

end Operation

end ReportPress
