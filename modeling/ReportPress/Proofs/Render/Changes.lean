import Mathlib.Logic.Relation
import ReportPress.Proofs.Render.Performing

/-!
# What commands change

The part of a machine that decides how text looks is its font registry, its family and size, and the
canvas. `Change` lists the few things that a command which succeeds can do to that part; every other
effect is put `aside`. `Alters` says of an action that it is made of such changes. It composes, so
that commands have it from what they are made of (`holdsOfParts_alters`).

With the list of failures, this gives what holds of every machine that commands lead to, whether
they all succeed (`Unfailing`) or not (`Reachable`): its family has faces. Its canvas is one that
calls lead to (`Performs`).
-/

namespace ReportPress.Machine

open Number ReportPress.Action Relation

variable {C Output : Type} [Canvas C Output]

/-! ## Changes -/

/-- Machines with the same fonts and the same canvas. -/
structure SameFonts (m m' : Machine C) : Prop where
  registry : m'.registry = m.registry
  family : m'.style.family = m.style.family
  size : m'.style.size = m.style.size
  canvas : m'.canvas = m.canvas

/-- One thing that a command which succeeds does to fonts and canvas. -/
inductive Change : Machine C → Machine C → Prop
  /-- Nothing. -/
  | aside {m m'} (h : SameFonts m m') : Change m m'
  | resize {m size} (h : 0 < size) : Change m { m with style := { m.style with size } }
  | call {m} (call : CanvasCall) : Change m (m.withCanvas (call.perform m.canvas))
  | select {m family} (h : m.registry.isKnown family = true) : Change m (m.inFamily family)
  /-- A new family, the face of which the canvas has read from a file. -/
  | add {m files family path canvas} (hnew : m.registry.isKnown family = false)
      (hregister : (Canvas.registerFont files (FontRegistry.faceName family) path).Yields m.canvas ()
        canvas) :
      Change m (((m.withFamily family).withCanvas canvas).inFamily family)

/-- Whether an action that succeeds is made of changes. -/
def Alters {α : Type} (x : Work C α) : Prop :=
  ∀ ⦃m a m'⦄, x.Yields m a m' → ReflTransGen Change m m'

/-! ## Parts -/

section SameFonts

variable (m : Machine C)

theorem sameFonts_atNextPage : SameFonts m m.atNextPage := ⟨rfl, rfl, rfl, rfl⟩

theorem sameFonts_withRoom : SameFonts m m.withRoom := by
  rw [withRoom]
  split
  · exact ⟨rfl, rfl, rfl, rfl⟩
  · exact sameFonts_atNextPage m

end SameFonts

theorem changes_opened (m : Machine C) : ReflTransGen Change m m.opened := by
  by_cases hends : m.pages.endsPage = true
  · refine ReflTransGen.tail (.single (.call (m := m) .showPage)) (.aside ⟨rfl, rfl, rfl, ?_⟩)
    show (if m.pages.endsPage then Canvas.showPage m.canvas else m.canvas) = _
    rw [if_pos hends]
    rfl
  · refine .single (.aside ⟨rfl, rfl, rfl, ?_⟩)
    show (if m.pages.endsPage then Canvas.showPage m.canvas else m.canvas) = _
    rw [if_neg hends]

theorem alters_newPage : Alters (newPage : Work C Unit) := by
  intro m u m' h
  obtain rfl := yields_newPage.mp h
  exact .single (.aside (sameFonts_atNextPage m))

theorem alters_beforeDraw : Alters (onPages Pages.beforeDraw : Work C Bool) := by
  intro m emitted m' h
  obtain ⟨-, rfl⟩ := yields_onPages_beforeDraw.mp h
  exact changes_opened m

theorem alters_onCanvas {work : Action C CanvasError Unit} (call : CanvasCall)
    (hcall : ∀ canvas, (work canvas).2 = call.perform canvas) :
    Alters (onCanvas work : Work C Unit) := by
  intro m u m' h
  obtain ⟨canvas, hwork, rfl⟩ := yields_onCanvas.mp h
  rw [← hwork.2, hcall]
  exact .single (.call call)

theorem alters_selectFamily (resources : Resources) (family : String) :
    Alters (selectFamily resources family : Work C Unit) := by
  intro m u m' h
  rcases yields_selectFamily.mp h with ⟨hknown, rfl⟩ | ⟨hnew, path, canvas, -, hregister, rfl⟩
  · exact .single (.select hknown)
  · exact .single (.add hnew hregister)

theorem alters_setSize (name : String) {size : Float32} (hnan : size.isNaN = false) :
    Alters (setSize name size : Work C Unit) := by
  intro m u m' h
  by_cases hsize : size ≤ 0
  · simp [setSize, hsize] at h
  · simp only [setSize, if_neg hsize, yields_change] at h
    exact h ▸ .single (.resize (Single.zero_lt_of_not_le hnan hsize))

theorem alters_drawing {f : C → C} (call : CanvasCall)
    (hcall : ∀ canvas, f canvas = call.perform canvas) :
    Alters (Action.change (drawing f)) := by
  refine Leads.change fun m ↦ ?_
  have := Change.call (m := m) call
  rw [← hcall] at this
  exact .single this

theorem holdsOfParts_alters :
    HoldsOfParts (fun _ ↦ True) (Alters : ∀ {α : Type}, Work C α → Prop) where
  toComposes := composes_leads
  beside _ hf := Leads.change fun m ↦
    .single (.aside ⟨(hf m).registry, (hf m).family, (hf m).size, (hf m).still.canvas⟩)
  withCopies _ := Leads.change fun _ ↦ .single (.aside ⟨rfl, rfl, rfl, rfl⟩)
  setSize := alters_setSize
  selectFamily := alters_selectFamily
  newPage := alters_newPage
  beforeDraw := alters_beforeDraw
  drawing call hcall _ := alters_drawing call hcall
  onCanvas call hcall _ := alters_onCanvas call hcall

/-! ## Commands -/

/-- **No command that succeeds does anything else.** -/
theorem alters_execute (resources : Resources) (command : Command) :
    Alters (execute resources command : Work C Unit) :=
  holdsOfParts_alters.execute resources fun _ _ ↦ trivial

/-! ## Machines that commands lead to -/

/-- The machines of a report that commands lead to, whether they succeed or fail. The files may be
others at every step. -/
inductive Reachable (canvas : C) (setup : PageSetup) : Machine C → Prop
  | start {resources m} (h : (start resources canvas setup).result = .ok m) :
      Reachable canvas setup m
  | step {m} (h : Reachable canvas setup m) (resources : Resources) (command : Command) :
      Reachable canvas setup (execute resources command m).2

/-- The machines of a report that commands lead to of which none failed. -/
inductive Unfailing (canvas : C) (setup : PageSetup) : Machine C → Prop
  | start {resources m} (h : (start resources canvas setup).result = .ok m) :
      Unfailing canvas setup m
  | step {m m' resources command} (h : Unfailing canvas setup m)
      (hexecute : (execute resources command : Work C Unit).Yields m () m') : Unfailing canvas setup m'

variable {m m' : Machine C} {canvas : C} {setup : PageSetup}

theorem Unfailing.reachable (h : Unfailing canvas setup m) : Reachable canvas setup m := by
  induction h with
  | start h => exact .start h
  | step _ hexecute ih => exact hexecute.2 ▸ ih.step _ _

/-- A report begins with changes to a blank machine, the first of which only puts its family in. -/
theorem changes_start {resources : Resources}
    (h : (Machine.start resources canvas setup).result = .ok m) :
    ReflTransGen Change (blank canvas setup) m :=
  alters_selectFamily resources setup.family (result_start_eq_ok.mp h).2

theorem Unfailing.changes (h : Unfailing canvas setup m) :
    ReflTransGen Change (blank canvas setup) m := by
  induction h with
  | start h => exact changes_start h
  | step _ hexecute ih => exact ih.trans (alters_execute _ _ hexecute)

theorem changes_induction {P : Machine C → Prop} (hstep : ∀ m m', P m → Change m m' → P m')
    (h : ReflTransGen Change m m') (hm : P m) : P m' := by
  induction h with
  | refl => exact hm
  | tail _ hchange ih => exact hstep _ _ ih hchange

/-! ## Families -/

def FamilyKnown (m : Machine C) : Prop := m.registry.isKnown m.style.family = true

theorem FamilyKnown.exists_face (h : FamilyKnown m) (bold italic : Bool) :
    ∃ face, m.registry.resolve m.style.family bold italic = .ok face := by
  obtain ⟨faces, hfaces⟩ := Option.isSome_iff_exists.mp h
  exact ⟨faces.choose bold italic, by rw [FontRegistry.resolve, hfaces]⟩

theorem FamilyKnown.face?_ne_error (h : FamilyKnown m) {cause : UnknownFamily} :
    m.face? ≠ .error cause := by
  obtain ⟨face, hface⟩ := h.exists_face m.style.bold m.style.italic
  rw [face?, hface]
  rintro ⟨⟩

theorem familyKnown_blank (canvas : C) (setup : PageSetup) : FamilyKnown (blank canvas setup) := by
  show FontRegistry.builtin.isKnown defaultFamily = true
  decide

theorem Change.familyKnown (h : Change m m') (hm : FamilyKnown m) : FamilyKnown m' := by
  cases h with
  | aside h => rwa [FamilyKnown, h.registry, h.family]
  | resize h => exact hm
  | call call => exact hm
  | select h => exact h
  | add hnew hregister => exact FontRegistry.isKnown_add_self ..

theorem Breakdown.familyKnown {resources : Resources} {command : Command} {e : RenderError}
    (h : Breakdown resources m command e m') (hm : FamilyKnown m) : FamilyKnown m' := by
  cases h with
  | refused he => exact hm
  | moveAbsolute hname hx hy => exact hm
  | moveRelative hname hx hy => exact hm
  | leftMargin hname hmargin => exact hm
  | fontName hname hgiven hnew hpath hbreaks => exact FontRegistry.isKnown_add hm ..
  | faceless hface => exact absurd hface hm.face?_ne_error
  | drawText hface hbreaks =>
    show FamilyKnown m.withRoom
    rwa [FamilyKnown, (sameFonts_withRoom m).registry, (sameFonts_withRoom m).family]
  | drawImage hbreaks => exact hm

/-- **The current family always has faces**, also after commands that failed. -/
theorem Reachable.familyKnown (h : Reachable canvas setup m) : FamilyKnown m := by
  have hchanges {m m' : Machine C} (h : ReflTransGen Change m m') (hm : FamilyKnown m) :
      FamilyKnown m' := changes_induction (fun _ _ hm h ↦ h.familyKnown hm) h hm
  induction h with
  | start h => exact hchanges (changes_start h) (familyKnown_blank canvas setup)
  | @step m h resources command ih =>
    rcases exists_yields_or_breaks (execute resources command) m with ⟨u, hyields⟩ | ⟨e, hbreaks⟩
    · exact hchanges (alters_execute resources command hyields) ih
    · exact (breakdown_of_breaks hbreaks).familyKnown ih

/-! ## Canvases -/

/-- **The canvas is one that calls lead to**, also after commands that failed. -/
theorem Reachable.canvas_lead (h : Reachable canvas setup m) :
    CanvasCall.Lead (fun _ ↦ True) canvas m.canvas := by
  induction h with
  | @start resources m h =>
    have hselect := performs_selectFamily (T := fun _ ↦ True) resources setup.family
      (blank canvas setup)
    rwa [(result_start_eq_ok.mp h).2.2] at hselect
  | step _ resources command ih =>
    exact trans_of (CanvasCall.Lead _) ih (performs_execute resources (fun _ _ ↦ trivial) _)

end ReportPress.Machine
