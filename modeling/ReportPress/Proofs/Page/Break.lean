import ReportPress.Page.Break
import ReportPress.Proofs.Journal.Outcome

/-!
# What page breaks come to

Neither asking for a break nor getting ready to draw can fail, so each is a function on the pages
with a journal beside it.
-/

namespace ReportPress.Pages

variable {C Output ε : Type} [Canvas C Output]

def broken (pages : Pages C) : Pages C := { pages with breakPending := true }

/-- Whether the page in progress ends before the next thing is drawn. -/
def endsPage (pages : Pages C) : Bool := pages.breakPending && pages.isDrawn

/-- The pages as the next thing is drawn on them. -/
def opened (pages : Pages C) : Pages C :=
  { pages with
    canvas := if pages.endsPage then Canvas.showPage pages.canvas else pages.canvas
    breakPending := false
    isDrawn := true }

@[simp] theorem yields_requestBreak {pages pages' : Pages C} {u : Unit} :
    (requestBreak : Action (Pages C) ε Unit).Yields pages u pages' ↔ pages' = pages.broken := by
  cases h : pages.isDrawn <;> simp [requestBreak, broken, and_assoc, h]

@[simp] theorem not_fails_requestBreak {pages : Pages C} {e : ε} :
    ¬(requestBreak : Action (Pages C) ε Unit).Fails pages e := by
  cases h : pages.isDrawn <;> simp [requestBreak, and_assoc, h]

@[simp] theorem yields_beforeDraw {pages pages' : Pages C} {emitted : Bool} :
    (beforeDraw : Action (Pages C) ε Bool).Yields pages emitted pages' ↔
      emitted = pages.endsPage ∧ pages' = pages.opened := by
  obtain ⟨canvas, pending, drawn, finished⟩ := pages
  cases pending <;> cases drawn <;> simp [beforeDraw, opened, endsPage, and_assoc, and_comm]

@[simp] theorem not_fails_beforeDraw {pages : Pages C} {e : ε} :
    ¬(beforeDraw : Action (Pages C) ε Bool).Fails pages e := by
  obtain ⟨canvas, pending, drawn, finished⟩ := pages
  cases pending <;> cases drawn <;> simp [beforeDraw, and_assoc]

end ReportPress.Pages
