import ReportPress.Font.Family
import ReportPress.Markup.Command
import ReportPress.Page.Break
import ReportPress.Page.Cursor
import ReportPress.Render.Error
import ReportPress.Render.Operation

/-!
# The render machine

Everything that changes while a report is drawn, and what each command does to it. Commands are
carried out one after the other; the first that fails ends the run. A command that fails half-way
leaves what it has done so far.

The machine works on any canvas. The files it may need come from the resources it is given.
-/

namespace ReportPress

open Number Text

/-! ## The state -/

def centimetre : Float32 := 72 / 2.54

/-- The radius of round corners: 0.15 inch. -/
def cornerRadius : Float32 := 1.5 * 72 / 10

def defaultFamily : String := "courier"

def defaultSize : Float32 := 10

/-- The geometry of the page and the style to begin with. -/
structure PageSetup where
  title : String := DrawLog.defaultTitle
  width : Float32 := 595.28
  height : Float32 := 841.89
  leftMargin : Float32 := 0.7 * centimetre
  /-- How far below the upper edge the first line lies. -/
  topMargin : Float32 := 0.75 * centimetre
  /-- How far above the lower edge the last line ends. -/
  bottomMargin : Float32 := 1 * centimetre
  family : String := defaultFamily
  size : Float32 := defaultSize

structure Style where
  family : String
  bold : Bool
  italic : Bool
  size : Float32
  deriving DecidableEq

structure Margins where
  left : Float32
  /-- Where lines began before the margin was first set, if it was set. -/
  leftDefault : Option Float32
  top : Float32
  bottom : Float32
  deriving DecidableEq

/-- Points remembered by name, the latest first. -/
abbrev Anchors := List (String × Point)

def Anchors.put (anchors : Anchors) (name : String) (point : Point) : Anchors :=
  (name, point) :: anchors.filter (·.1 ≠ name)

def defaultAnchor : String := "0"

structure Machine (C : Type) where
  title : String
  pageHeight : Float32
  cursor : Cursor
  style : Style
  registry : FontRegistry
  margins : Margins
  pages : Pages C
  /-- The corners where boxes began. -/
  boxes : Anchors
  /-- The points where lines began. -/
  lines : Anchors
  copies : UInt32

abbrev Work (C α : Type) : Type := Action (Machine C) RenderError α

namespace Machine

variable {C Output : Type} [Canvas C Output]

/-! ## Parts of the state -/

def canvas (m : Machine C) : C := m.pages.canvas

def topLeft (m : Machine C) : Point := ⟨m.margins.left, m.pageHeight - m.margins.top⟩

def moveTo (point : Point) (m : Machine C) : Machine C := { m with cursor := m.cursor.moveTo point }

def setX (x : Float32) (m : Machine C) : Machine C := m.moveTo ⟨x, m.cursor.point.y⟩

def setY (y : Float32) (m : Machine C) : Machine C := m.moveTo ⟨m.cursor.point.x, y⟩

def onCanvas {α : Type} (work : Action C CanvasError α) : Work C α :=
  Action.within canvas (fun canvas m ↦ { m with pages := { m.pages with canvas } }) .canvas work

def drawing (f : C → C) (m : Machine C) : Machine C :=
  { m with pages := { m.pages with canvas := f m.pages.canvas } }

def onPages {α : Type} (work : Action (Pages C) RenderError α) : Work C α :=
  Action.within pages (fun pages m ↦ { m with pages }) id work

def argument {α : Type} (value : Except ArgumentError α) : Work C α :=
  Action.ofExcept (value.mapError .argument)

def refuse {α : Type} (command value : String) (complaint : Complaint) : Work C α :=
  Action.fail (.argument (.invalid command value complaint))

/-! ## Text -/

def face : Work C String := do
  let m ← Action.state
  Action.ofExcept ((m.registry.resolve m.style.family m.style.bold m.style.italic).mapError
    .unknownFamily)

/-- The family in the argument of a tag: without one pair of quotes, then without blanks around
it. -/
def familyName (given : String) : String := String.ofList (trim (unquote given.toList))

/-- Selects a family, reading its face from a file if it is not known. -/
def selectFamily (resources : Resources) (family : String) : Work C Unit := do
  let file ← Action.within registry (fun registry m ↦ { m with registry }) .notFound
    (FontRegistry.ensure resources family)
  -- The family stays known even if the canvas cannot use the file.
  if let some path := file then
    let face ← Action.ofExcept (((← Action.state).registry.resolve family false false).mapError
      .unknownFamily)
    onCanvas (Canvas.registerFont resources.files face path)
  Action.change fun m ↦ { m with style := { m.style with family } }

def newPage : Work C Unit := do
  onPages Pages.requestBreak
  Action.change fun m ↦ m.moveTo m.topLeft

/-- Ends the line: the next begins at the left margin, on a new page if it does not fit on this. -/
def lineEnd : Work C Unit := do
  let m ← Action.state
  let next := m.cursor.point.y - m.style.size
  if lineFits next m.style.size m.margins.bottom then
    Action.change fun m ↦ m.moveTo ⟨m.margins.left, next⟩
  else
    Action.note (.noRoomForNextLine next m.style.size)
    newPage

/-- Draws text at the cursor, on a new page if it does not fit on this. The result is its width. -/
def drawText (text : String) : Work C Float32 := do
  if text = "" then return 0
  let m ← Action.state
  let size := m.style.size
  unless lineFits m.cursor.point.y size m.margins.bottom do
    Action.note (.noRoomForText size m.cursor.point.y)
    newPage
  -- A page break that was asked for stays, whatever goes wrong from here on.
  let face ← face
  let _ ← onPages Pages.beforeDraw
  let point := (← Action.state).cursor.point
  onCanvas (Canvas.drawText ⟨point.x, baseline point.y size⟩ text face size)
  return Canvas.textWidth (← Action.state).canvas text face size

/-- A text without a line feed at its end, if it has one there. -/
def withoutLineFeed? (text : String) : Option String :=
  if text.toList.getLast? = some '\n' then some (String.ofList text.toList.dropLast) else none

/-- Puts text out: the cursor goes on by its width, or to the next line after a line feed. -/
def output (text : String) : Work C Unit := do
  if text = "" then return
  match withoutLineFeed? text with
  | some body =>
    let _ ← drawText body
    lineEnd
  | none =>
    let width ← drawText text
    Action.change fun m ↦ m.setX (m.cursor.point.x + width)

/-! ## Shapes and pictures -/

def anchorName (args : Arguments) (key : String) : String :=
  ((args.value? 0 key).map unquoted).getD defaultAnchor

def boxStart (name : String) : Work C Unit := do
  let point := (← Action.state).cursor.point
  Action.note (.boxStarted name point)
  Action.change fun m ↦ { m with boxes := m.boxes.put name point }

/-- Draws a box from the corner that was remembered. Without one nothing happens. -/
def boxEnd (name : String) (corners : Corners) : Work C Unit := do
  match (← Action.state).boxes.lookup name with
  | none => Action.note (.boxNeverStarted name)
  | some start =>
    let _ ← onPages Pages.beforeDraw
    let stop := (← Action.state).cursor.point
    Action.note (.boxEnded name start stop)
    Action.change <| drawing <| match corners with
      | .square => Canvas.drawRect start stop
      | .rounded => Canvas.drawRoundedRect start stop cornerRadius

def lineStop (name : String) : Work C Unit := do
  match (← Action.state).lines.lookup name with
  | none => Action.note (.lineNeverStarted name)
  | some start =>
    let _ ← onPages Pages.beforeDraw
    let stop := (← Action.state).cursor.point
    Action.change (drawing (Canvas.drawLine start stop))

/-- Places an image. Its upper edge is at the cursor when its height is given, its lower edge when
it is not. -/
def picture (resources : Resources) (name : String) (args : Arguments) : Work C Unit := do
  let file ← argument (args.text name 0 "fname")
  let path ← Action.lift ((resources.locate file).mapError .notFound)
  let width ← argument (args.number? name 1 "imgwidth")
  let height ← argument (args.number? name 2 "imgheight")
  let _ ← onPages Pages.beforeDraw
  let point := (← Action.state).cursor.point
  onCanvas (Canvas.drawImage resources.files path ⟨point.x, point.y - height.getD 0⟩ width height)

/-! ## Commands -/

/-- How far a number of lines reaches; their size is that of the text unless it is given. -/
def lineStep (name : String) (args : Arguments) : Work C Float32 := do
  let count ← argument (args.integer name 0 "lines")
  let size ← argument (args.number? name 1 "fsize")
  return Single.ofInt count * size.getD (← Action.state).style.size

def setSize (name : String) (size : Float32) : Work C Unit := do
  if size ≤ 0 then refuse name (Single.text size) .fontSize
  Action.change fun m ↦ { m with style := { m.style with size } }

/-- Sets the left margin in centimetres, or sets it back to where it was at first. -/
def setLeftMargin (name : String) (args : Arguments) : Work C Unit := do
  Action.change fun m ↦
    { m with margins.leftDefault := some (m.margins.leftDefault.getD m.margins.left) }
  -- The margin is remembered even if the new one cannot be read.
  let given ← argument (args.number? name 0 "margin")
  Action.change fun m ↦
    { m with margins.left := match given with
      | some length => length * centimetre
      | none => m.margins.leftDefault.getD m.margins.left }

def apply (resources : Resources) (name : String) (args : Arguments) : Operation → Work C Unit
  | .printInit => Action.change fun m ↦ m.moveTo m.topLeft
  | .printEnd => pure ()
  | .output => output ((args.value? 0 "line").getD "")
  | .lineEnd => lineEnd
  | .bold on => Action.change fun m ↦ { m with style := { m.style with bold := on } }
  | .italic on => Action.change fun m ↦ { m with style := { m.style with italic := on } }
  | .fontSize (some size) => setSize name size
  | .fontSize none => do setSize name (← argument (args.number name 0 "size"))
  | .fontName => do
    let given ← argument (args.text name 0 "name")
    selectFamily resources (familyName given)
  | .fillColor => do
    let red ← argument (args.number name 0 "r")
    let green ← argument (args.number name 1 "g")
    let blue ← argument (args.number name 2 "b")
    Action.change (drawing (Canvas.setFillColor red green blue))
  | .copies => do
    let count ← argument (args.integer name 0 "numcopies")
    -- A count that does not fit is refused in the words used of a numeral that does not fit.
    if count < 0 then refuse name (toString count) (.numeral .tooSmall)
    if UInt32.size ≤ count then refuse name (toString count) (.numeral .tooLarge)
    Action.change fun m ↦ { m with copies := UInt32.ofNat count.toNat }
  | .boxStart => boxStart (anchorName args "boxname")
  | .boxEnd corners => boxEnd (anchorName args "boxname") corners
  | .lineStart => Action.change fun m ↦
    { m with lines := m.lines.put (anchorName args "linename") m.cursor.point }
  | .lineStop => lineStop (anchorName args "linename")
  | .lineWidth => do
    let width ← argument (args.number name 0 "width")
    if width < 0 then refuse name (Single.text width) .lineWidth
    Action.change (drawing (Canvas.setLineWidth width))
  | .newPage => newPage
  | .picture => picture resources name args
  | .up => do
    let step ← lineStep name args
    Action.change fun m ↦ m.moveTo ⟨m.margins.left, m.cursor.point.y + step⟩
  | .down => do
    let step ← lineStep name args
    Action.change fun m ↦ m.moveTo ⟨m.margins.left, m.cursor.point.y - step⟩
  | .moveAbsolute => do
    -- The first coordinate is gone to before the second is read.
    if let some x ← argument (args.number? name 0 "x") then
      Action.change fun m ↦ m.setX (x * centimetre)
    if let some y ← argument (args.number? name 1 "y") then
      Action.change fun m ↦ m.setY (m.pageHeight - y * centimetre)
  | .moveRelative => do
    let x ← argument (args.number name 0 "x")
    Action.change fun m ↦ m.setX (m.cursor.point.x + x)
    let y ← argument (args.number name 1 "y")
    Action.change fun m ↦ m.setY (m.cursor.point.y - y)
  | .right => do
    let columns ← argument (args.integer name 0 "c")
    let face ← face
    let m ← Action.state
    -- All columns are as wide as an underscore.
    let column := Canvas.textWidth m.canvas "_" face m.style.size
    Action.change fun m ↦ m.setX (m.margins.left + Single.ofInt (max columns 0) * column)
  | .leftMargin => setLeftMargin name args
  | .pushPosition => Action.change fun m ↦ { m with cursor := m.cursor.push }
  | .popPosition => do
    match (← Action.state).cursor.pop? with
    | some cursor => Action.change fun m ↦ { m with cursor }
    | none => Action.fail .nothingSaved

def execute (resources : Resources) : Command → Work C Unit
  | .literal text => output text
  | .newline => lineEnd
  | .invoke name args =>
    match Operation.named? name with
    | some operation => apply resources name args operation
    | none => Action.fail (.unknownCommand name)

/-! ## Runs -/

def executeAt (resources : Resources) (index : Nat) (command : Command) : Work C Unit := fun m ↦
  let (outcome, after) := execute resources command m
  let start := .executing index command.label :: outcome.journal
  match outcome.result with
  | .ok () => (⟨.ok (), start⟩, after)
  | .error e =>
    (⟨.error (.atCommand index command.label e),
      start ++ [.failed index command.label e.message]⟩, after)

/-- Carries out commands in order, the first having the given index. -/
def runFrom (resources : Resources) : (index : Nat) → List Command → Work C Unit
  | _, [] => pure ()
  | index, command :: rest => do
    executeAt resources index command
    runFrom resources (index + 1) rest

def run (resources : Resources) (commands : List Command) : Work C Unit :=
  runFrom resources 0 commands

def blank (canvas : C) (setup : PageSetup) : Machine C where
  title := setup.title
  pageHeight := setup.height
  cursor := .start ⟨setup.leftMargin, setup.height - setup.topMargin⟩
  style := ⟨defaultFamily, false, false, setup.size⟩
  registry := .builtin
  margins := ⟨setup.leftMargin, none, setup.topMargin, setup.bottomMargin⟩
  pages := .fresh canvas
  boxes := []
  lines := []
  copies := 1

def start (resources : Resources) (canvas : C) (setup : PageSetup) :
    Traced RenderError (Machine C) :=
  if setup.size ≤ 0 then
    .fail (.argument (.invalid "setup" (Single.text setup.size) .fontSize))
  else
    let (outcome, m) := selectFamily resources setup.family (blank canvas setup)
    ⟨outcome.result.map fun _ ↦ m, outcome.journal⟩

end Machine

structure Rendered (Output : Type) where
  output : Output
  pages : Nat
  copies : UInt32

/-- Ends the last page and takes the document from the canvas. -/
def Machine.finish {C Output : Type} [Canvas C Output] (m : Machine C) :
    Rendered Output × Journal :=
  let pages := m.pages.finish
  let count := Canvas.pageCount pages.canvas
  let (output, journal) := Canvas.save pages.canvas ⟨m.title, m.copies⟩
  (⟨output, count, m.copies⟩, .rendered count m.copies.toNat :: journal)

end ReportPress
