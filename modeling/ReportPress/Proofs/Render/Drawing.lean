import ReportPress.Proofs.Canvas.Recorder
import ReportPress.Proofs.Journal.Leads
import ReportPress.Proofs.Render.Parts

/-!
# What commands draw

Everything a command does to a machine on a recorder is made of three things: changes that leave the
record alone, steps that leave no mark, and marks. `Draws` says which of them take a machine to
another, and which steps go on record on the way; a mark is only made after a page break that is
pending has been carried out, and a text only where its line has room or begins a page.

What holds of every run is then an induction on `Draws`, and no proof has to look at a command
again.
-/

namespace ReportPress

namespace Machine

variable {C : Type}

/-! ## What stays -/

/-- Machines on the same sheet: what no command changes. -/
structure SameSheet (m m' : Machine C) : Prop where
  title : m'.title = m.title
  pageHeight : m'.pageHeight = m.pageHeight
  top : m'.margins.top = m.margins.top
  bottom : m'.margins.bottom = m.margins.bottom
  isFinished : m'.pages.isFinished = m.pages.isFinished

namespace SameSheet

variable {m m' m'' : Machine C}

theorem refl (m : Machine C) : SameSheet m m := ⟨rfl, rfl, rfl, rfl, rfl⟩

theorem trans (h : SameSheet m m') (h' : SameSheet m' m'') : SameSheet m m'' :=
  ⟨h'.title.trans h.title, h'.pageHeight.trans h.pageHeight, h'.top.trans h.top,
    h'.bottom.trans h.bottom, h'.isFinished.trans h.isFinished⟩

end SameSheet

/-- Machines that differ in nothing that is on record. A break may have been asked for between
them. -/
structure Still (m m' : Machine C) : Prop extends SameSheet m m' where
  canvas : m'.canvas = m.canvas
  /-- Whether something was drawn on the page. -/
  isDrawn : m'.pages.isDrawn = m.pages.isDrawn

theorem Still.refl (m : Machine C) : Still m m := ⟨SameSheet.refl m, rfl, rfl⟩

theorem Still.trans {m m' m'' : Machine C} (h : Still m m') (h' : Still m' m'') : Still m m'' :=
  ⟨h.toSameSheet.trans h'.toSameSheet, h'.canvas.trans h.canvas, h'.isDrawn.trans h.isDrawn⟩

instance : IsPreorder (Machine C) Still where
  refl := Still.refl
  trans _ _ _ := Still.trans

/-! ## What is drawn -/

/-- Whether a step, if it is a text, is on a line that has room above the lower margin, or on the
first line of a page that is about to begin. -/
def HasRoom (m : Machine C) : DrawStep → Prop
  | .text start _ _ size => ∃ top, start.y = baseline top size ∧
    (lineFits top size m.margins.bottom = true ∨
      (top = m.topLeft.y ∧ m.pages.breakPending = true))
  | _ => True

variable [Decoders]

/-- **What is drawn between two machines**, step by step. -/
inductive Draws : Machine Recorder → List DrawStep → Machine Recorder → Prop
  | still {m m'} (h : Still m m') : Draws m [] m'
  /-- A step without a mark. Measuring may change with it. -/
  | prepare {m step} (metrics : FontMetrics) (hstep : step.isMark = false) :
      Draws m [step] (m.withCanvas ({ m.canvas with metrics }.record step))
  /-- A mark. A break that is pending comes first. -/
  | mark {m step} (hstep : step.isMark = true) (hroom : m.HasRoom step) :
      Draws m [step] (m.opened.withCanvas (m.opened.canvas.record step))
  | trans {m m' m'' steps steps'} (h : Draws m steps m') (h' : Draws m' steps' m'') :
      Draws m (steps ++ steps') m''

namespace Draws

variable {m m' : Machine Recorder} {steps : List DrawStep}

theorem sameSheet (h : Draws m steps m') : SameSheet m m' := by
  induction h with
  | still h => exact h.toSameSheet
  | prepare => exact ⟨rfl, rfl, rfl, rfl, rfl⟩
  | mark => exact ⟨rfl, rfl, rfl, rfl, rfl⟩
  | trans _ _ ih ih' => exact ih.trans ih'

theorem steps_opened (m : Machine Recorder) : m.opened.canvas.steps = m.canvas.steps := by
  show (if m.pages.endsPage then Canvas.showPage m.canvas else m.canvas).steps = _
  split
  · exact Recorder.steps_showPage _
  · rfl

theorem steps_canvas (h : Draws m steps m') : m'.canvas.steps = m.canvas.steps ++ steps := by
  induction h with
  | still h => rw [h.canvas, List.append_nil]
  | prepare metrics hstep => rw [canvas_withCanvas, Recorder.steps_record]; rfl
  | mark hstep hroom => rw [canvas_withCanvas, Recorder.steps_record, steps_opened]
  | trans _ _ ih ih' => rw [ih', ih, List.append_assoc]

theorem after_still {m'' : Machine Recorder} (h : Draws m'' steps m') (h' : Still m m'') :
    Draws m steps m' := (still h').trans h

theorem before_still {m'' : Machine Recorder} (h : Draws m steps m'') (h' : Still m'' m') :
    Draws m steps m' := by
  have := h.trans (still h')
  rwa [List.append_nil] at this

end Draws

end Machine

end ReportPress
