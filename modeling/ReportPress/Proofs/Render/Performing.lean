import ReportPress.Proofs.Render.Commands
import ReportPress.Proofs.Render.Failing

/-!
# What commands do to a canvas

On any canvas, and whether they succeed or fail, commands do nothing but make calls, and they draw
no text that they do not ask for. `Performs` says this of an action. It composes, so that commands
have it from what they are made of (`holdsOfParts_performs`), and runs by induction.
-/

namespace ReportPress

open ReportPress.Action

namespace CanvasCall

variable {C Output : Type} [Canvas C Output] {T : String → Prop} {canvas after : C}

/-- Whether calls lead from a canvas to another and draw only such texts. -/
def Lead (T : String → Prop) (canvas after : C) : Prop :=
  ∃ calls, after = performAll canvas calls ∧ ∀ text ∈ calls.filterMap text?, T text

instance : IsPreorder C (Lead T) where
  refl _ := ⟨[], rfl, List.forall_mem_nil _⟩
  trans := by
    rintro canvas _ _ ⟨calls, rfl, hcalls⟩ ⟨more, rfl, hmore⟩
    refine ⟨calls ++ more, (performAll_append canvas calls more).symm, ?_⟩
    rw [List.filterMap_append]
    exact List.forall_mem_append.mpr ⟨hcalls, hmore⟩

theorem Lead.call (call : CanvasCall) (hcall : ∀ text ∈ call.text?, T text) :
    Lead T canvas (call.perform canvas) := by
  refine ⟨[call], rfl, fun text htext ↦ hcall text ?_⟩
  simpa using htext

theorem forall_mem_text?_of_none {call : CanvasCall} (h : call.text? = none) :
    ∀ text ∈ call.text?, T text := by
  rw [h]
  exact fun _ hmem ↦ absurd hmem (Option.not_mem_none _)

end CanvasCall

/-! ## On record -/

namespace Recorder

def texts (recorder : Recorder) : List String := recorder.steps.filterMap DrawStep.content?

theorem texts_record (step : DrawStep) (recorder : Recorder) :
    (recorder.record step).texts = recorder.texts ++ step.content?.toList := by
  rw [texts, steps_record, List.filterMap_append, texts]
  cases h : step.content? <;> simp [h]

variable [Decoders]

theorem texts_perform (recorder : Recorder) (call : CanvasCall) :
    (call.perform recorder).texts = recorder.texts ++ call.text?.toList := by
  cases call with
  | drawText => exact texts_record _ recorder
  | setFillColor => exact texts_record _ recorder
  | setLineWidth => exact texts_record _ recorder
  | drawRect => exact texts_record _ recorder
  | drawRoundedRect => exact texts_record _ recorder
  | drawLine => exact texts_record _ recorder
  | drawImage => exact texts_record _ recorder
  | registerFont files face path =>
    rcases exists_yields_or_breaks (registerFont files face path) recorder with ⟨u, h⟩ | ⟨e, h⟩
    · obtain ⟨bytes, -, hafter⟩ := yields_registerFont.mp h
      exact (congrArg texts hafter).trans (texts_record _ _)
    · obtain ⟨cause, -, -, hafter⟩ := breaks_registerFont.mp h
      exact (congrArg texts hafter).trans (List.append_nil _).symm
  | showPage =>
    show (Canvas.showPage recorder).steps.filterMap _ = _
    rw [steps_showPage]
    exact (List.append_nil _).symm

theorem texts_performAll (recorder : Recorder) (calls : List CanvasCall) :
    (CanvasCall.performAll recorder calls).texts
      = recorder.texts ++ calls.filterMap CanvasCall.text? := by
  induction calls generalizing recorder with
  | nil => exact (List.append_nil _).symm
  | cons call rest ih =>
    show (CanvasCall.performAll (call.perform recorder) rest).texts = _
    rw [ih, texts_perform, List.append_assoc, List.filterMap_cons]
    cases call.text? <;> rfl

end Recorder

namespace Machine

variable {C Output α β : Type} [Canvas C Output] {T : String → Prop}

/-- Whether calls lead from the canvas of a machine to that of another and draw only such texts. -/
def CanvasLeads (T : String → Prop) (m m' : Machine C) : Prop :=
  CanvasCall.Lead T m.canvas m'.canvas

instance : IsPreorder (Machine C) (CanvasLeads T) where
  refl _ := refl_of (CanvasCall.Lead T) _
  trans _ _ _ := trans_of (CanvasCall.Lead T)

/-- Whether all that an action does to the canvas are calls that draw only such texts, whether it
succeeds or fails. -/
abbrev Performs (T : String → Prop) (x : Work C α) : Prop := Leaves (CanvasLeads T) x

namespace Performs

theorem still {m m' : Machine C} (h : m'.canvas = m.canvas) : CanvasLeads T m m' :=
  ⟨[], h, List.forall_mem_nil _⟩

theorem of_leads {x : Work C α} (h : Leads (CanvasLeads T) x) (hbreaks : ∀ m e m', ¬x.Breaks m e m') :
    Performs T x := by
  intro m
  rcases exists_yields_or_breaks x m with ⟨a, hyields⟩ | ⟨e, hfails⟩
  · exact h hyields
  · exact absurd hfails (hbreaks m e _)

theorem drawing {f : C → C} (call : CanvasCall) (hcall : ∀ canvas, f canvas = call.perform canvas)
    (hnone : call.text? = none) : Performs T (Action.change (drawing f)) := by
  refine Leaves.change fun m ↦ ?_
  show CanvasCall.Lead T m.canvas (f m.canvas)
  rw [hcall]
  exact .call call (CanvasCall.forall_mem_text?_of_none hnone)

theorem onCanvas {work : Action C CanvasError Unit} (call : CanvasCall)
    (hcall : ∀ canvas, (work canvas).2 = call.perform canvas) (htext : ∀ text ∈ call.text?, T text) :
    Performs T (onCanvas work : Work C Unit) := by
  refine Leaves.within (S := CanvasCall.Lead T) (fun canvas ↦ ?_) fun m part hpart ↦ hpart
  rw [hcall]
  exact .call call htext

end Performs

/-! ## Parts -/

theorem performs_newPage : Performs T (newPage : Work C Unit) := by
  refine .of_leads (fun m u m' h ↦ ?_) fun _ _ _ ↦ not_breaks_newPage
  obtain rfl := yields_newPage.mp h
  exact Performs.still rfl

theorem performs_beforeDraw : Performs T (onPages Pages.beforeDraw : Work C Bool) := by
  refine .of_leads (fun m emitted m' h ↦ ?_) fun _ _ _ ↦ not_breaks_onPages_beforeDraw
  obtain ⟨-, rfl⟩ := yields_onPages_beforeDraw.mp h
  show CanvasCall.Lead T m.canvas (if m.pages.endsPage then Canvas.showPage m.canvas else m.canvas)
  split
  · exact .call .showPage (by simp [CanvasCall.text?])
  · exact refl_of (CanvasCall.Lead T) _

theorem performs_selectFamily (resources : Resources) (family : String) :
    Performs T (selectFamily resources family : Work C Unit) := by
  rw [selectFamily_eq]
  have hensure : Performs T (Action.within registry (fun registry m ↦ m.withRegistry registry)
      .notFound (FontRegistry.ensure resources family) : Work C (Option Path)) :=
    fun m ↦ Performs.still rfl
  have hselect : Performs T (Action.change (inFamily · family) : Work C Unit) :=
    Leaves.change fun _ ↦ Performs.still rfl
  refine hensure.bind fun file ↦ ?_
  cases file with
  | none => exact hselect
  | some path =>
    exact Leaves.state_bind fun m ↦ Leaves.bind (Leaves.lift _) fun face ↦
      (Performs.onCanvas (.registerFont resources.files face path) (fun _ ↦ rfl)
        (CanvasCall.forall_mem_text?_of_none rfl)).bind fun _ ↦ hselect

theorem holdsOfParts_performs :
    HoldsOfParts T (Performs T : ∀ {α : Type}, Work C α → Prop) where
  toComposes := composes_leaves
  beside _ hf := Leaves.change fun m ↦ Performs.still (hf m).still.canvas
  withCopies _ := Leaves.change fun _ ↦ Performs.still rfl
  setSize name _ _ := composes_leaves.setSize name (Leaves.change fun _ ↦ Performs.still rfl)
  selectFamily := performs_selectFamily
  newPage := performs_newPage
  beforeDraw := performs_beforeDraw
  drawing := Performs.drawing
  onCanvas := Performs.onCanvas

/-! ## Commands and runs -/

/-- **A command only makes calls**, and draws no text that it does not ask for. -/
theorem performs_execute (resources : Resources) {command : Command}
    (htext : ∀ text ∈ textsOf [command], T text) :
    Performs T (execute resources command : Work C Unit) :=
  holdsOfParts_performs.execute resources htext

theorem performs_executeAt (resources : Resources) (index : ℕ) {command : Command}
    (htext : ∀ text ∈ textsOf [command], T text) :
    Performs T (executeAt resources index command : Work C Unit) := by
  intro m
  have hleaves := performs_execute resources htext m
  unfold executeAt
  generalize execute resources command m = outcome at hleaves
  obtain ⟨⟨result, journal⟩, after⟩ := outcome
  cases result with
  | ok u => exact hleaves
  | error e => exact hleaves

/-- **A run only makes calls**, and draws no text that its commands do not ask for. -/
theorem performs_run (resources : Resources) {commands : List Command}
    (htext : ∀ text ∈ textsOf commands, T text) :
    Performs T (run resources commands : Work C Unit) := by
  rw [run]
  generalize 0 = index
  induction commands generalizing index with
  | nil => exact Leaves.pure ()
  | cons command rest ih =>
    obtain ⟨hcommand, hrest⟩ := List.forall_mem_append.mp (textsOf_append [command] rest ▸ htext)
    exact (performs_executeAt resources index hcommand).bind fun _ ↦ ih hrest (index + 1)

end Machine

end ReportPress
