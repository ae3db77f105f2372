import ReportPress.Proofs.Journal.Leads
import ReportPress.Proofs.Render.Parts

/-!
# What commands leave alone

A machine has parts, and every operation has a list of those that it touches (`Operation.touches`).
A command that succeeds leaves every other part as it was.

The places that were put aside are special: a command can also fail for want of one. That is why
`Touches` says two things of an action. Whatever it does not touch stays the same when it ends well;
and when it does not touch the places put aside, it does not fail because there are none. There is a
rule for every way in which actions are put together, and the operations follow part by part.
-/

namespace ReportPress

/-! ## Parts -/

/-- The parts of a machine that commands change. -/
inductive Machine.Part where
  | place
  /-- The places put aside. -/
  | saved
  | family
  | bold
  | italic
  | size
  | registry
  | margins
  | pages
  | boxes
  | lines
  | copies
  deriving DecidableEq

/-- The parts of a machine that an operation touches. -/
def Operation.touches : Operation → List Machine.Part
  | .printInit | .up | .down | .moveAbsolute | .moveRelative | .right => [.place]
  | .printEnd => []
  | .output | .lineEnd | .newPage => [.place, .pages]
  | .bold _ => [.bold]
  | .italic _ => [.italic]
  | .fontSize _ => [.size]
  | .fontName => [.family, .registry, .pages]
  | .fillColor | .lineWidth | .boxEnd _ | .lineStop | .picture => [.pages]
  | .copies => [.copies]
  | .boxStart => [.boxes]
  | .lineStart => [.lines]
  | .leftMargin => [.margins]
  | .pushPosition => [.saved]
  | .popPosition => [.place, .saved]

/-- The parts of a machine that a command touches. A name that stands for nothing touches none. -/
def Command.touches : Command → List Machine.Part
  | .literal _ | .newline => [.place, .pages]
  | .invoke name _ => ((Operation.named? name).map Operation.touches).getD []

namespace Machine

open Number ReportPress.Action

variable {C Output : Type} [Canvas C Output] {m m' : Machine C}

/-! ## What stays -/

/-- Whether two machines have a part in common. -/
def Part.Same (m m' : Machine C) : Part → Prop
  | .place => m'.cursor.point = m.cursor.point
  | .saved => m'.cursor.saved = m.cursor.saved
  | .family => m'.style.family = m.style.family
  | .bold => m'.style.bold = m.style.bold
  | .italic => m'.style.italic = m.style.italic
  | .size => m'.style.size = m.style.size
  | .registry => m'.registry = m.registry
  | .margins => m'.margins = m.margins
  | .pages => m'.pages = m.pages
  | .boxes => m'.boxes = m.boxes
  | .lines => m'.lines = m.lines
  | .copies => m'.copies = m.copies

theorem Part.Same.refl (m : Machine C) (part : Part) : part.Same m m := by
  cases part <;> exact rfl

theorem Part.Same.trans {m'' : Machine C} {part : Part} (h : part.Same m m')
    (h' : part.Same m' m'') : part.Same m m'' := by
  cases part <;> exact Eq.trans h' h

/-- Machines that are the same apart from some parts. -/
def SameApart (parts : List Part) (m m' : Machine C) : Prop := ∀ part ∉ parts, part.Same m m'

instance (parts : List Part) : IsPreorder (Machine C) (SameApart parts) where
  refl m part _ := Part.Same.refl m part
  trans _ _ _ h h' part hpart := (h part hpart).trans (h' part hpart)

/-! ## Actions -/

/-- Whether an action touches no more than some parts. If the places put aside are not among them,
it does not fail for want of one. -/
structure Touches {α : Type} (parts : List Part) (x : Work C α) : Prop where
  /-- All other parts stay when it ends well. -/
  leads : Leads (SameApart parts) x
  /-- It does not ask for a place that it may not touch. -/
  saved : .saved ∉ parts → ∀ m, ¬x.Fails m .nothingSaved

namespace Touches

variable {α β : Type} {parts : List Part}

theorem pure (a : α) : Touches parts (pure a : Work C α) :=
  ⟨Leads.pure a, fun _ _ ↦ not_fails_pure⟩

theorem change {f : Machine C → Machine C} (hf : ∀ m, ∀ part ∉ parts, part.Same m (f m)) :
    Touches parts (Action.change f) :=
  ⟨Leads.change hf, fun _ _ ↦ not_fails_change⟩

theorem moveTo (hplace : .place ∈ parts) (point : Machine C → Point) :
    Touches parts (Action.change fun m ↦ m.moveTo (point m)) := by
  refine change fun m part hpart ↦ ?_
  cases part with
  | place => exact absurd hplace hpart
  | _ => exact rfl

theorem drawing (hpages : .pages ∈ parts) (draw : C → C) :
    Touches parts (Action.change (Machine.drawing draw) : Work C Unit) := by
  refine change fun m part hpart ↦ ?_
  cases part with
  | pages => exact absurd hpages hpart
  | _ => exact rfl

theorem note (event : Event) : Touches parts (Action.note event : Work C Unit) :=
  ⟨Leads.note event, fun _ _ ↦ not_fails_note⟩

theorem fail {e : RenderError} (he : e ≠ .nothingSaved) :
    Touches parts (Action.fail e : Work C α) :=
  ⟨Leads.fail e, fun _ _ h ↦ he (fails_fail.mp h).symm⟩

/-- Work that does not look at the machine, and does not ask for a place. -/
theorem lift {x : Traced RenderError α} (hx : x.result ≠ .error .nothingSaved) :
    Touches parts (Action.lift x : Work C α) :=
  ⟨Leads.lift x, fun _ _ h ↦ hx (fails_lift.mp h)⟩

theorem bind {x : Work C α} {f : α → Work C β} (hx : Touches parts x)
    (hf : ∀ a, Touches parts (f a)) : Touches parts (x >>= f) where
  leads := hx.leads.bind fun a ↦ (hf a).leads
  saved hparts m h := by
    rcases fails_bind.mp h with h | ⟨a, t, -, h⟩
    · exact hx.saved hparts m h
    · exact (hf a).saved hparts t h

theorem state_bind {f : Machine C → Work C β} (hf : ∀ m, Touches parts (f m)) :
    Touches parts (Action.state >>= f) where
  leads := Leads.state_bind fun m ↦ (hf m).leads
  saved hparts m h := by
    rcases fails_bind.mp h with h | ⟨_, t, -, h⟩
    · exact not_fails_state h
    · exact (hf _).saved hparts t h

theorem ite {p : Prop} [Decidable p] {x y : Work C α} (hx : Touches parts x)
    (hy : Touches parts y) : Touches parts (if p then x else y) := by
  split
  · exact hx
  · exact hy

theorem argument (value : Except ArgumentError α) : Touches parts (argument value : Work C α) := by
  refine lift fun h ↦ ?_
  obtain ⟨cause, -, he⟩ := mapError_eq_error.mp h
  cases he

theorem refuse (command value : String) (complaint : Complaint) :
    Touches parts (refuse command value complaint : Work C α) := fail (by rintro ⟨⟩)

theorem ite_refuse {p : Prop} [Decidable p] {command value : String} {complaint : Complaint}
    {x : Work C Unit} (hx : Touches parts x) :
    Touches parts (if p then Machine.refuse command value complaint >>= fun _ : Unit ↦ x else x) :=
  ite ((refuse ..).bind fun _ ↦ hx) hx

theorem changeIf (x : Option α) {f : α → Machine C → Machine C}
    (hf : ∀ a, Touches parts (Action.change (f a))) :
    Touches parts (Machine.changeIf (x.map f) : Work C Unit) := by
  cases x with
  | none => exact pure ()
  | some a => exact hf a

theorem onCanvas (hpages : .pages ∈ parts) (work : Action C CanvasError α) :
    Touches parts (onCanvas work : Work C α) where
  leads m a m' h part hpart := by
    obtain ⟨canvas, -, rfl⟩ := yields_onCanvas.mp h
    cases part with
    | pages => exact absurd hpages hpart
    | _ => exact rfl
  saved _ m h := by
    obtain ⟨cause, -, he⟩ := fails_onCanvas.mp h
    cases he

theorem onPages (hpages : .pages ∈ parts) {work : Action (Pages C) RenderError α}
    (hwork : ∀ pages e, ¬work.Fails pages e) : Touches parts (onPages work : Work C α) where
  leads m a m' h part hpart := by
    obtain ⟨pages, -, rfl⟩ := yields_within.mp h
    cases part with
    | pages => exact absurd hpages hpart
    | _ => exact rfl
  saved _ m h := by
    obtain ⟨e, he, -⟩ := fails_within.mp h
    exact hwork _ e he

end Touches

/-! ## What commands are made of -/

section Parts

variable {parts : List Part}

theorem touches_face : Touches parts (face : Work C String) := by
  refine Touches.state_bind fun m ↦ Touches.lift fun h ↦ ?_
  obtain ⟨cause, -, he⟩ := mapError_eq_error.mp h
  cases he

theorem touches_lineStep (name : String) (args : Arguments) :
    Touches parts (lineStep name args : Work C Float32) :=
  (Touches.argument _).bind fun _ ↦ (Touches.argument _).bind fun _ ↦
    Touches.state_bind fun _ ↦ Touches.pure _

theorem touches_beforeDraw (hpages : .pages ∈ parts) :
    Touches parts (onPages Pages.beforeDraw : Work C Bool) :=
  Touches.onPages hpages fun _ _ ↦ Pages.not_fails_beforeDraw

end Parts

theorem touches_newPage : Touches [.place, .pages] (newPage : Work C Unit) :=
  (Touches.onPages (by decide) fun _ _ ↦ Pages.not_fails_requestBreak).bind fun _ ↦
    Touches.moveTo (by decide) _

theorem touches_lineEnd : Touches [.place, .pages] (lineEnd : Work C Unit) :=
  Touches.state_bind fun _ ↦ Touches.ite (Touches.moveTo (by decide) _)
    ((Touches.note _).bind fun _ ↦ touches_newPage)

theorem touches_placeText (text : String) (size : Float32) :
    Touches [.place, .pages] (placeText text size : Work C Float32) :=
  touches_face.bind fun _ ↦ (touches_beforeDraw (by decide)).bind fun _ ↦
    Touches.state_bind fun _ ↦ (Touches.onCanvas (by decide) _).bind fun _ ↦
      Touches.state_bind fun _ ↦ Touches.pure _

theorem touches_drawText (text : String) :
    Touches [.place, .pages] (drawText text : Work C Float32) := by
  rw [drawText_eq]
  exact Touches.ite (Touches.pure 0) <| Touches.state_bind fun m ↦
    Touches.ite (touches_placeText text _) <|
      (Touches.note _).bind fun _ ↦ touches_newPage.bind fun _ ↦ touches_placeText text _

theorem touches_output (text : String) : Touches [.place, .pages] (output text : Work C Unit) := by
  unfold output
  split
  · exact Touches.pure ()
  · cases withoutLineFeed? text with
    | some body => exact (touches_drawText body).bind fun _ ↦ touches_lineEnd
    | none => exact (touches_drawText text).bind fun _ ↦ Touches.moveTo (by decide) _

theorem touches_boxEnd (name : String) (corners : Corners) :
    Touches [.pages] (boxEnd name corners : Work C Unit) := by
  refine Touches.state_bind fun m ↦ ?_
  cases m.boxes.lookup name with
  | none => exact Touches.note _
  | some start =>
    exact (touches_beforeDraw (by decide)).bind fun _ ↦ Touches.state_bind fun _ ↦
      (Touches.note _).bind fun _ ↦ Touches.drawing (by decide) _

theorem touches_lineStop (name : String) : Touches [.pages] (lineStop name : Work C Unit) := by
  refine Touches.state_bind fun m ↦ ?_
  cases m.lines.lookup name with
  | none => exact Touches.note _
  | some start =>
    exact (touches_beforeDraw (by decide)).bind fun _ ↦ Touches.state_bind fun _ ↦
      Touches.drawing (by decide) _

theorem touches_picture (resources : Resources) (name : String) (args : Arguments) :
    Touches [.pages] (picture resources name args : Work C Unit) := by
  refine (Touches.argument _).bind fun file ↦ Touches.bind (Touches.lift fun h ↦ ?_) fun path ↦
    (Touches.argument _).bind fun width ↦ (Touches.argument _).bind fun height ↦
      (touches_beforeDraw (by decide)).bind fun _ ↦ Touches.state_bind fun _ ↦
        Touches.onCanvas (by decide) _
  obtain ⟨cause, -, he⟩ := mapError_eq_error.mp h
  cases he

theorem touches_selectFamily (resources : Resources) (family : String) :
    Touches [.family, .registry, .pages] (selectFamily resources family : Work C Unit) where
  leads m u m' h part hpart := by
    rcases yields_selectFamily.mp h with ⟨-, rfl⟩ | ⟨-, path, canvas, -, -, rfl⟩
    all_goals
      cases part with
      | family | registry | pages => exact absurd (by decide) hpart
      | _ => exact rfl
  saved _ m h := by
    rcases fails_selectFamily.mp h with ⟨-, ⟨_, -, he⟩ | ⟨_, _, -, -, he⟩⟩ <;> cases he

theorem touches_setSize (name : String) (size : Float32) :
    Touches [.size] (setSize name size : Work C Unit) := by
  have hchange : Touches [.size] (Action.change fun m : Machine C ↦
      { m with style := { m.style with size } }) := by
    refine Touches.change fun m part hpart ↦ ?_
    cases part with
    | size => exact absurd List.mem_cons_self hpart
    | _ => exact rfl
  exact Touches.ite_refuse hchange

theorem touches_setLeftMargin (name : String) (args : Arguments) :
    Touches [.margins] (setLeftMargin name args : Work C Unit) := by
  refine Touches.bind (Touches.change ?_) fun _ ↦
    (Touches.argument _).bind fun _ ↦ Touches.change ?_
  all_goals
    intro m part hpart
    cases part with
    | margins => exact absurd List.mem_cons_self hpart
    | _ => exact rfl

/-! ## Commands -/

section Operations

variable {resources : Resources} {name : String} {args : Arguments}

theorem touches_apply_of_moves {operation : Operation} (h : operation.moves = true) :
    Touches [.place] (apply resources name args operation : Work C Unit) := by
  cases operation with
  | printInit => exact Touches.moveTo (by decide) _
  | up | down => exact (touches_lineStep name args).bind fun _ ↦ Touches.moveTo (by decide) _
  | moveAbsolute =>
    rw [apply_moveAbsolute]
    exact (Touches.argument _).bind fun x ↦
      Touches.bind (Touches.changeIf x fun _ ↦ Touches.moveTo (by decide) _) fun _ ↦
        (Touches.argument _).bind fun y ↦ Touches.changeIf y fun _ ↦ Touches.moveTo (by decide) _
  | moveRelative =>
    exact (Touches.argument _).bind fun _ ↦ Touches.bind (Touches.moveTo (by decide) _) fun _ ↦
      (Touches.argument _).bind fun _ ↦ Touches.moveTo (by decide) _
  | right =>
    exact (Touches.argument _).bind fun _ ↦ touches_face.bind fun _ ↦
      Touches.state_bind fun _ ↦ Touches.moveTo (by decide) _
  | _ => cases h

/-- Operations that put something on the canvas and do nothing else. -/
theorem touches_apply_of_pages {operation : Operation} (h : operation.touches = [.pages]) :
    Touches [.pages] (apply resources name args operation : Work C Unit) := by
  cases operation with
  | fillColor =>
    exact (Touches.argument _).bind fun _ ↦ (Touches.argument _).bind fun _ ↦
      (Touches.argument _).bind fun _ ↦ Touches.drawing (by decide) _
  | lineWidth =>
    exact (Touches.argument _).bind fun _ ↦ Touches.ite_refuse (Touches.drawing (by decide) _)
  | boxEnd corners => exact touches_boxEnd _ corners
  | lineStop => exact touches_lineStop _
  | picture => exact touches_picture resources name args
  | _ => cases h

theorem touches_apply_fontSize (fixed : Option Float32) :
    Touches [.size] (apply resources name args (.fontSize fixed) : Work C Unit) := by
  cases fixed with
  | some size => exact touches_setSize name size
  | none => exact (Touches.argument _).bind fun size ↦ touches_setSize name size

theorem touches_apply_copies :
    Touches [.copies] (apply resources name args .copies : Work C Unit) := by
  refine (Touches.argument _).bind fun _ ↦
    Touches.ite_refuse (Touches.ite_refuse (Touches.change fun m part hpart ↦ ?_))
  cases part with
  | copies => exact absurd List.mem_cons_self hpart
  | _ => exact rfl

theorem touches_apply_boxStart :
    Touches [.boxes] (apply resources name args .boxStart : Work C Unit) := by
  refine Touches.state_bind fun m ↦ (Touches.note _).bind fun _ ↦
    Touches.change fun m part hpart ↦ ?_
  cases part with
  | boxes => exact absurd List.mem_cons_self hpart
  | _ => exact rfl

/-- Only this operation can fail for want of a place put aside. -/
theorem touches_apply_popPosition :
    Touches [.place, .saved] (apply resources name args .popPosition : Work C Unit) := by
  refine ⟨Leads.state_bind fun m ↦ ?_, fun h ↦ absurd (by decide) h⟩
  cases m.cursor.pop? with
  | some cursor =>
    refine Leads.change fun m part hpart ↦ ?_
    cases part with
    | place | saved => exact absurd (by decide) hpart
    | _ => exact rfl
  | none => exact Leads.fail _

theorem touches_apply (operation : Operation) :
    Touches operation.touches (apply resources name args operation : Work C Unit) := by
  cases operation with
  | printInit | up | down | moveAbsolute | moveRelative | right =>
    exact touches_apply_of_moves rfl
  | fillColor | lineWidth | boxEnd | lineStop | picture => exact touches_apply_of_pages rfl
  | bold | italic | lineStart | pushPosition =>
    refine Touches.change fun m part hpart ↦ ?_
    cases part <;> first | exact rfl | exact absurd List.mem_cons_self hpart
  | printEnd => exact Touches.pure ()
  | output => exact touches_output _
  | lineEnd => exact touches_lineEnd
  | newPage => exact touches_newPage
  | fontSize fixed => exact touches_apply_fontSize fixed
  | fontName => exact (Touches.argument _).bind fun given ↦ touches_selectFamily resources _
  | copies => exact touches_apply_copies
  | boxStart => exact touches_apply_boxStart
  | leftMargin => exact touches_setLeftMargin name args
  | popPosition => exact touches_apply_popPosition

end Operations

/-- **A command leaves alone what it does not touch.** -/
theorem touches_execute (resources : Resources) (command : Command) :
    Touches command.touches (execute resources command : Work C Unit) := by
  cases command with
  | literal text => exact touches_output text
  | newline => exact touches_lineEnd
  | invoke name args =>
    simp only [execute, Command.touches]
    cases Operation.named? name with
    | some operation => exact touches_apply operation
    | none => exact Touches.fail (by rintro ⟨⟩)

end Machine

end ReportPress
