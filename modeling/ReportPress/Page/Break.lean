import ReportPress.Canvas.Basic

/-!
# Page breaks

When a line no longer fits, and how pages end. A break that is asked for is only noted. The page
ends when the next thing is drawn, and only if something was drawn on it before; so a document that
ends after a break has no empty page at its end, and two breaks in a row are one.
-/

namespace ReportPress

/-- Whether a line of text fits above the lower margin, its upper edge lying at `top`. -/
def lineFits (top size bottomMargin : Float32) : Bool := decide (top - size ≥ bottomMargin)

/-- The baseline of a line of text, three quarters of its size below its upper edge. -/
def baseline (top size : Float32) : Float32 := top - size * 0.75

/-- A canvas with its page breaks. -/
structure Pages (C : Type) where
  canvas : C
  /-- Whether a break was asked for and nothing was drawn since. -/
  breakPending : Bool
  /-- Whether something was drawn on the page in progress. -/
  isDrawn : Bool
  /-- Whether the last page was ended. -/
  isFinished : Bool

namespace Pages

variable {C Output ε : Type} [Canvas C Output]

/-- A canvas on which nothing was drawn. -/
def fresh (canvas : C) : Pages C := ⟨canvas, false, false, false⟩

def requestBreak : Action (Pages C) ε Unit := do
  unless (← Action.state).isDrawn do Action.note .breakOnEmptyPage
  Action.change fun pages ↦ { pages with breakPending := true }

/-- What comes before anything is drawn: a pending break ends the page, if the page has something on
it. The result is whether it did. -/
def beforeDraw : Action (Pages C) ε Bool := do
  let pages ← Action.state
  let endsPage := pages.breakPending && pages.isDrawn
  Action.change fun pages ↦
    { pages with
      canvas := if endsPage then Canvas.showPage pages.canvas else pages.canvas
      breakPending := false
      isDrawn := true }
  if endsPage then
    Action.note (.pageCommitted (Canvas.pageCount (← Action.state).canvas))
  return endsPage

/-- Ends the last page, however often it is called. -/
def finish (pages : Pages C) : Pages C :=
  if pages.isFinished then pages
  else
    { pages with
      canvas := Canvas.showPage pages.canvas
      breakPending := false
      isFinished := true }

end Pages

end ReportPress
