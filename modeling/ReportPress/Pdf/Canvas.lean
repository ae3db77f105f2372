import ReportPress.Canvas.Basic
import ReportPress.Font.Family
import ReportPress.Font.Metrics
import ReportPress.Pdf.Document

/-!
# The page canvas

A canvas that writes page instructions. The fill colour and the line width outlive a page, so every
page begins by setting them, and by setting the outline colour to black. Names of built-in faces
always mean the built-in faces. An image is read once and placed as often as it is asked for.
-/

namespace ReportPress.Pdf

structure PlacedImage where
  path : Path
  ref : ImageRef
  size : PixelSize

structure PageCanvas where
  title : String
  width : Float32
  height : Float32
  pages : List Page
  instructions : Array Instruction
  /-- The numbers of the faces read from files, the latest first. -/
  fonts : List (String × Nat)
  images : List PlacedImage
  resources : Array Resource
  metrics : FontMetrics
  fill : Float32 × Float32 × Float32
  lineWidth : Float32

namespace PageCanvas

/-- What every page begins with. -/
def preamble (fill : Float32 × Float32 × Float32) (lineWidth : Float32) : Array Instruction :=
  #[.fillColor fill.1 fill.2.1 fill.2.2, .outlineColor 0 0 0, .outlineThickness lineWidth]

def new (title : String) (width height : Float32) : PageCanvas where
  title
  width
  height
  pages := []
  instructions := preamble (0, 0, 0) 1
  fonts := []
  images := []
  resources := #[]
  metrics := .builtin
  fill := (0, 0, 0)
  lineWidth := 1

/-- The canvas with more on the page in progress. -/
def write (instructions : List Instruction) (canvas : PageCanvas) : PageCanvas :=
  { canvas with instructions := canvas.instructions ++ instructions }

/-- The font that shows a face, if there is one. -/
def font? (canvas : PageCanvas) (face : String) : Option FontRef :=
  if face ∈ builtinFaces then some (.builtin face)
  else (canvas.fonts.lookup face).map .embedded

/-- Draws text. Where there is no such face, the text object has been begun all the same. -/
def drawText (start : Point) (text face : String) (size : Float32) :
    Action PageCanvas CanvasError Unit := do
  match (← Action.state).font? face with
  | some font => Action.change (write (Instruction.textObject start font size text))
  | none =>
    Action.change (write [.beginText, .moveText start])
    Action.fail (.unknownFace face)

/-- Ends the page and begins the next with the same colour and line width. -/
def showPage (canvas : PageCanvas) : PageCanvas :=
  { canvas with
    pages := canvas.pages ++
      [⟨millimetres canvas.width, millimetres canvas.height, canvas.instructions.toList⟩]
    instructions := preamble canvas.fill canvas.lineWidth }

/-- The document. What was drawn after the last page was ended is left out, unless no page was ended
at all: then it is the one page. -/
def save (canvas : PageCanvas) (info : DocumentInfo) : Document × Journal :=
  let canvas := if canvas.pages.isEmpty then canvas.showPage else canvas
  (⟨canvas.title, canvas.pages, canvas.resources⟩,
    [.saving info.title canvas.pages.length info.copies.toNat])

/-! ## What is read from files -/

section Files

variable [Decoders]

/-- The image of a path, read from its file unless it was placed before. -/
def loadImage (files : FileSystem) (path : Path) : Action PageCanvas CanvasError PlacedImage := do
  match (← Action.state).images.find? (·.path.sameAs path) with
  | some image => return image
  | none =>
    let unusable (reason : String) : CanvasError := .unusableImage ⟨path, reason⟩
    let bytes ← Action.ofExcept ((files.read path).mapError .unreadable)
    -- An image has a size to be placed with and one to be embedded with.
    let size ← Action.ofExcept ((Decoders.decodeImage bytes).mapError unusable)
    let embedded ← Action.ofExcept ((Decoders.embedImage bytes).mapError unusable)
    let image : PlacedImage := ⟨path, ⟨(← Action.state).resources.size, embedded⟩, size⟩
    Action.change fun canvas ↦
      { canvas with
        resources := canvas.resources.push (.image path embedded bytes)
        images := image :: canvas.images }
    Action.note (.imageEmbedded path size.width size.height)
    return image

def drawImage (files : FileSystem) (path : Path) (corner : Point) (width height : Option Float32) :
    Action PageCanvas CanvasError Unit := do
  let image ← loadImage files path
  Action.change (write [.image image.ref image.size corner width height])

/-- Reads a face from a file, over one of that name. It has to do for embedding and for
measuring. -/
def registerFont (files : FileSystem) (face : String) (path : Path) :
    Action PageCanvas CanvasError Unit := do
  let bytes ← Action.ofExcept ((files.read path).mapError .unreadable)
  -- Embedding and measuring read the file each in its own way.
  if Decoders.canEmbedFont bytes then
    let loaded := (← Action.state).metrics.load face bytes
    let metrics ← Action.ofExcept (loaded.mapError (.unusableFont face))
    Action.change fun canvas ↦
      { canvas with
        metrics
        fonts := (face, canvas.resources.size) :: canvas.fonts
        resources := canvas.resources.push (.font face bytes) }
  else Action.fail (.unusableFont face s!"{path.text} is not a usable font file")

instance : Canvas PageCanvas Document where
  drawText := drawText
  textWidth canvas := canvas.metrics.width
  setFillColor red green blue canvas :=
    { canvas with fill := (red, green, blue) }.write [.fillColor red green blue]
  setLineWidth width canvas := { canvas with lineWidth := width }.write [.outlineThickness width]
  drawRect a b := write [.strokeOutline (Outline.ofRect a b)]
  drawRoundedRect a b radius := write [.strokeOutline (Outline.ofRoundedRect a b radius)]
  drawLine start stop := write [.strokeLine start stop]
  drawImage := drawImage
  registerFont := registerFont
  showPage := showPage
  pageCount canvas := canvas.pages.length
  save := save

end Files

end PageCanvas

end ReportPress.Pdf
