import ReportPress.Proofs.Render.Drawing

/-!
# Pages that are drawn

Two invariants of machines on a recorder, kept by everything that is drawn. The first ties the flags
of the page breaks to the marks on record (`Marked`): the page in progress counts as drawn on
exactly when it has a mark, and a page is only ended when it counts. The second is about places
(`Placed`): every text is on a line with room above the lower margin, or else it is the first mark
of its page and on the first line.

The second needs the first. A text without room asks for a break, and that the break leads to a page
without marks is what the flags are right about.
-/

namespace ReportPress

/-! ## Texts on a page -/

/-- Whether a step, if it is a text, has a place on a page where other steps came before it: on a
line with room above the lower margin, or on the first line and before any other mark. -/
def DrawStep.HasPlace (first bottom : Float32) (before : List DrawStep) : DrawStep → Prop
  | .text start _ _ size => ∃ top, start.y = baseline top size ∧
    (lineFits top size bottom = true ∨ (top = first ∧ before.any isMark = false))
  | _ => True

/-- Whether every step of a page has a place. -/
def PageFits (first bottom : Float32) (page : List DrawStep) : Prop :=
  ∀ before step after, page = before ++ step :: after → step.HasPlace first bottom before

theorem pageFits_nil (first bottom : Float32) : PageFits first bottom [] := by
  intro before step after h
  exact absurd h.symm (by simp)

theorem PageFits.concat {first bottom : Float32} {page : List DrawStep} {step : DrawStep}
    (h : PageFits first bottom page) (hstep : step.HasPlace first bottom page) :
    PageFits first bottom (page ++ [step]) := by
  intro before other after hsplit
  rcases List.eq_nil_or_concat after with rfl | ⟨front, last, rfl⟩
  · obtain ⟨rfl, hlast⟩ := List.append_inj' hsplit rfl
    obtain rfl := List.singleton_inj.mp hlast
    exact hstep
  · rw [List.concat_eq_append, ← List.cons_append, ← List.append_assoc] at hsplit
    exact h before other front (List.append_inj' hsplit rfl).1

namespace Machine

variable {m m' : Machine Recorder} {steps : List DrawStep}

/-! ## Marks -/

/-- The flags of the page breaks are right about the marks on record. -/
structure Marked (m : Machine Recorder) : Prop where
  /-- The page in progress counts as drawn on when it has a mark. -/
  isDrawn : m.pages.isDrawn = m.canvas.current.toList.any DrawStep.isMark
  /-- Every page that was ended has a mark. -/
  ended : ∀ page ∈ m.canvas.log.pages, page.any DrawStep.isMark = true
  /-- After the first page, the page in progress has one as well. -/
  begun : m.canvas.log.pages ≠ [] → m.pages.isDrawn = true

theorem marked_blank (setup : PageSetup) (width height : Float32) :
    Marked (blank (Recorder.new width height) setup) where
  isDrawn := rfl
  ended _ hpage := absurd hpage List.not_mem_nil
  begun h := absurd rfl h

theorem Marked.pages (h : Marked m) :
    (∀ page ∈ m.canvas.pages, page.any DrawStep.isMark = true) ∨
      (m.canvas.pages.length = 1 ∧ m.canvas.pages.flatten.any DrawStep.isMark = false) := by
  by_cases hdrawn : m.pages.isDrawn = true
  · left
    intro page hpage
    rw [Recorder.pages, List.mem_append, List.mem_singleton] at hpage
    rcases hpage with hended | rfl
    · exact h.ended page hended
    · rw [← h.isDrawn, hdrawn]
  · right
    have hfirst : m.canvas.log.pages = [] := by
      by_contra hended
      exact hdrawn (h.begun hended)
    rw [Bool.not_eq_true, h.isDrawn] at hdrawn
    simp [Recorder.pages, hfirst, hdrawn]

/-! ## Places -/

/-- Every text on record has a place on its page. -/
def Placed (m : Machine Recorder) : Prop :=
  ∀ page ∈ m.canvas.pages, PageFits m.topLeft.y m.margins.bottom page

theorem placed_blank (setup : PageSetup) (width height : Float32) :
    Placed (blank (Recorder.new width height) setup) := by
  intro page hpage
  obtain rfl := List.mem_singleton.mp hpage
  exact pageFits_nil _ _

theorem SameSheet.topLeft_y {C : Type} {m m' : Machine C} (h : SameSheet m m') :
    m'.topLeft.y = m.topLeft.y := by
  show m'.pageHeight - m'.margins.top = m.pageHeight - m.margins.top
  rw [h.pageHeight, h.top]

/-- A step that is put on record keeps every page in order if it has a place on the last. -/
theorem pageFits_record {recorder : Recorder} {first bottom : Float32} {step : DrawStep}
    (h : ∀ page ∈ recorder.pages, PageFits first bottom page)
    (hstep : step.HasPlace first bottom recorder.current.toList) :
    ∀ page ∈ (recorder.record step).pages, PageFits first bottom page := by
  intro page hpage
  rw [Recorder.pages, List.mem_append, List.mem_singleton] at hpage
  rcases hpage with hended | rfl
  · exact h page (List.mem_append_left _ hended)
  · rw [Recorder.current_record]
    exact (h _ (List.mem_append_right _ (List.mem_singleton_self _))).concat hstep

/-! ## What is drawn -/

variable [Decoders]

/-- A pending break ends the page only if it counts as drawn on, so what is then ended has a
mark. -/
theorem Marked.ended_opened (h : Marked m) :
    ∀ page ∈ m.opened.canvas.log.pages, page.any DrawStep.isMark = true := by
  intro page hpage
  replace hpage : page ∈ (if m.pages.endsPage then Canvas.showPage m.canvas
    else m.canvas).log.pages := hpage
  split at hpage
  · rename_i hends
    rw [Recorder.pages_log_showPage, Recorder.pages, List.mem_append, List.mem_singleton] at hpage
    rcases hpage with hended | rfl
    · exact h.ended page hended
    · rw [← h.isDrawn]
      exact (Bool.and_eq_true_iff.mp hends).2
  · exact h.ended page hpage

theorem Draws.marked (h : Draws m steps m') (hm : Marked m) : Marked m' := by
  induction h with
  | still h =>
    exact ⟨by rw [h.isDrawn, h.canvas, hm.isDrawn], h.canvas ▸ hm.ended,
      h.isDrawn ▸ h.canvas ▸ hm.begun⟩
  | @prepare m step metrics hstep =>
    refine ⟨?_, hm.ended, hm.begun⟩
    show m.pages.isDrawn = _
    rw [canvas_withCanvas, Recorder.current_record, List.any_append, hm.isDrawn]
    simp [hstep]
  | @mark m step hstep hroom =>
    refine ⟨?_, hm.ended_opened, fun _ ↦ rfl⟩
    rw [canvas_withCanvas, Recorder.current_record, List.any_append]
    simp only [List.any_cons, hstep, Bool.true_or, Bool.or_true]
    rfl
  | trans _ _ ih ih' => exact ih' (ih hm)

theorem Placed.opened (h : Placed m) :
    ∀ page ∈ m.opened.canvas.pages, PageFits m.topLeft.y m.margins.bottom page := by
  intro page hpage
  replace hpage : page ∈ (if m.pages.endsPage then Canvas.showPage m.canvas
    else m.canvas).pages := hpage
  split at hpage
  · rw [Recorder.pages, Recorder.pages_log_showPage, Recorder.current_showPage, List.mem_append,
      List.mem_singleton] at hpage
    rcases hpage with hended | rfl
    · exact h page hended
    · exact pageFits_nil _ _
  · exact h page hpage

/-- After a break that was asked for, the page has no mark yet. -/
theorem Marked.current_opened (h : Marked m) (hpending : m.pages.breakPending = true) :
    m.opened.canvas.current.toList.any DrawStep.isMark = false := by
  show (if m.pages.endsPage then Canvas.showPage m.canvas
    else m.canvas).current.toList.any DrawStep.isMark = false
  split
  · rfl
  · rename_i hends
    rw [← h.isDrawn]
    simpa [Pages.endsPage, hpending] using hends

/-- A text with room in the machine has a place on the page that is open then. -/
theorem HasRoom.hasPlace {step : DrawStep} (h : m.HasRoom step) (hm : Marked m) :
    step.HasPlace m.topLeft.y m.margins.bottom m.opened.canvas.current.toList := by
  cases step with
  | text start content face size =>
    obtain ⟨top, hbaseline, hfits | ⟨hfirst, hpending⟩⟩ := h
    · exact ⟨top, hbaseline, Or.inl hfits⟩
    · exact ⟨top, hbaseline, Or.inr ⟨hfirst, hm.current_opened hpending⟩⟩
  | fillColor | lineWidth | rect | roundedRect | line | image | registerFont => trivial

theorem Draws.placed (h : Draws m steps m') (hm : Marked m) (hp : Placed m) : Placed m' := by
  induction h with
  | still h =>
    intro page hpage
    rw [h.topLeft_y, h.bottom]
    exact hp page (h.canvas ▸ hpage)
  | @prepare m step metrics hstep =>
    refine pageFits_record hp ?_
    -- A text would have left a mark.
    cases step with
    | text => cases hstep
    | fillColor | lineWidth | rect | roundedRect | line | image | registerFont => trivial
  | mark hstep hroom => exact pageFits_record hp.opened (hroom.hasPlace hm)
  | trans h _ ih ih' => exact ih' (h.marked hm) (ih hm hp)

end Machine

end ReportPress
