import ReportPress.Canvas.Basic
import ReportPress.Proofs.Journal.Failure

/-!
# Calls on a canvas

Everything that can be done to a canvas while pages are drawn on it, as data: a call, and the canvas
after it. A call that fails leaves a canvas as well, and more calls may follow. What holds of a
canvas and is kept by every single call holds after any sequence of them.
-/

namespace ReportPress

/-- A call on a canvas, with the files as they are at that time if it may read one. -/
inductive CanvasCall where
  | drawText (start : Point) (text face : String) (size : Float32)
  | setFillColor (red green blue : Float32)
  | setLineWidth (width : Float32)
  | drawRect (a b : Point)
  | drawRoundedRect (a b : Point) (radius : Float32)
  | drawLine (start stop : Point)
  | drawImage (files : FileSystem) (path : Path) (corner : Point) (width height : Option Float32)
  | registerFont (files : FileSystem) (face : String) (path : Path)
  | showPage

namespace CanvasCall

variable {C Output : Type} [Canvas C Output] {canvas canvas' : C}

/-- The canvas after a call, whether it succeeded or not. -/
def perform (canvas : C) : CanvasCall → C
  | .drawText start text face size => (Canvas.drawText start text face size canvas).2
  | .setFillColor red green blue => Canvas.setFillColor red green blue canvas
  | .setLineWidth width => Canvas.setLineWidth width canvas
  | .drawRect a b => Canvas.drawRect a b canvas
  | .drawRoundedRect a b radius => Canvas.drawRoundedRect a b radius canvas
  | .drawLine start stop => Canvas.drawLine start stop canvas
  | .drawImage files path corner width height =>
    (Canvas.drawImage files path corner width height canvas).2
  | .registerFont files face path => (Canvas.registerFont files face path canvas).2
  | .showPage => Canvas.showPage canvas

def text? : CanvasCall → Option String
  | .drawText _ text _ _ => some text
  | _ => none

def performAll (canvas : C) (calls : List CanvasCall) : C := calls.foldl perform canvas

@[simp] theorem performAll_nil (canvas : C) : performAll canvas [] = canvas := rfl

@[simp] theorem performAll_append (canvas : C) (calls more : List CanvasCall) :
    performAll canvas (calls ++ more) = performAll (performAll canvas calls) more :=
  List.foldl_append

theorem performAll_induction {P : C → Prop} (hstep : ∀ canvas call, P canvas → P (perform canvas call))
    (calls : List CanvasCall) (h : P canvas) : P (performAll canvas calls) := by
  induction calls generalizing canvas with
  | nil => exact h
  | cons call rest ih => exact ih (hstep canvas call h)

end CanvasCall

end ReportPress
