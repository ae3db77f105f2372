import ReportPress.Canvas.DrawLog
import ReportPress.File.System
import ReportPress.Journal.Traced
import ReportPress.Text.Quoted

/-!
# Canvases

The surface that pages are drawn on, as those who draw see it. A page is drawn until it is shown;
then the next one begins. Drawing text, placing images and reading faces can fail; everything else
cannot.
-/

namespace ReportPress

open Text

structure UnusableImage where
  path : Path
  reason : String
  deriving DecidableEq, Repr

inductive CanvasError where
  | unreadable (cause : FileError)
  | unusableFont (face reason : String)
  | unusableImage (cause : UnusableImage)
  | unknownFace (face : String)
  deriving DecidableEq, Repr

def CanvasError.message : CanvasError → String
  | .unreadable cause => "I/O error: " ++ cause.message
  | .unusableFont face reason => s!"font {quote face} could not be loaded: {reason}"
  | .unusableImage cause => s!"image {cause.path.text} could not be used: {cause.reason}"
  | .unknownFace face => s!"font {quote face} has not been registered with the canvas"

structure DocumentInfo where
  title : String := DrawLog.defaultTitle
  /-- How many copies were asked for; nothing is drawn more often for it. -/
  copies : UInt32 := 1

class Canvas (C : Type) (Output : outParam Type) where
  /-- Draws text with its baseline starting at a point. -/
  drawText (start : Point) (text face : String) (size : Float32) : Action C CanvasError Unit
  textWidth (canvas : C) (text face : String) (size : Float32) : Float32
  setFillColor (red green blue : Float32) (canvas : C) : C
  setLineWidth (width : Float32) (canvas : C) : C
  /-- Draws the rectangle between two opposite corners. -/
  drawRect (a b : Point) (canvas : C) : C
  drawRoundedRect (a b : Point) (radius : Float32) (canvas : C) : C
  drawLine (start stop : Point) (canvas : C) : C
  /-- Places an image with its lower left corner at a point. A size that is not given is that of the
  image, one pixel for a point. -/
  drawImage (files : FileSystem) (path : Path) (corner : Point) (width height : Option Float32) :
    Action C CanvasError Unit
  registerFont (files : FileSystem) (face : String) (path : Path) : Action C CanvasError Unit
  showPage (canvas : C) : C
  /-- The number of pages that were ended. -/
  pageCount (canvas : C) : Nat
  /-- The document, and what happened while it was put together. -/
  save (canvas : C) (info : DocumentInfo) : Output × Journal

end ReportPress
