import ReportPress.Proofs.Journal.Leads
import ReportPress.Proofs.Render.Drawing

/-!
# Properties that compose

Many properties of actions are shown in the same way: they hold of values and failures, and of what
is put together from actions of which they hold (`Composes`). Such a property holds of an operation
when it holds of what the operation does besides reading its arguments and branching.

Most operations do little: they move the cursor, switch the emphasis of text, or remember something
for later (`Operation.keepsBooks`). All that such an operation does are changes which leave the
pages, the fonts, the sheet and the number of copies alone (`Beside`), so a property that composes
and holds of these changes holds of all of these operations.
-/

namespace ReportPress

/-- Whether an operation only moves the cursor, switches the emphasis of text, or remembers
something. -/
def Operation.keepsBooks : Operation → Bool
  | .printInit | .printEnd | .bold _ | .italic _ | .boxStart | .lineStart => true
  | .up | .down | .moveAbsolute | .moveRelative | .right => true
  | .leftMargin | .pushPosition | .popPosition => true
  | .output | .lineEnd | .fontSize _ | .fontName | .fillColor | .copies => false
  | .boxEnd _ | .lineStop | .lineWidth | .newPage | .picture => false

namespace Machine

open Number ReportPress.Action

variable {C Output : Type} [Canvas C Output]

/-- Machines that differ in nothing but the place of the cursor, the emphasis of text, the left
margin and what is remembered. -/
structure Beside (m m' : Machine C) : Prop where
  title : m'.title = m.title
  pageHeight : m'.pageHeight = m.pageHeight
  top : m'.margins.top = m.margins.top
  bottom : m'.margins.bottom = m.margins.bottom
  registry : m'.registry = m.registry
  family : m'.style.family = m.style.family
  size : m'.style.size = m.style.size
  pages : m'.pages = m.pages
  copies : m'.copies = m.copies

theorem Beside.still {m m' : Machine C} (h : Beside m m') : Still m m' :=
  ⟨⟨h.title, h.pageHeight, h.top, h.bottom, congrArg Pages.isFinished h.pages⟩,
    congrArg Pages.canvas h.pages, congrArg Pages.isDrawn h.pages⟩

theorem beside_moveTo (m : Machine C) (point : Point) : Beside m (m.moveTo point) :=
  ⟨rfl, rfl, rfl, rfl, rfl, rfl, rfl, rfl, rfl⟩

/-- **A property of actions that goes along with the ways in which they are put together.** What
comes after an argument may use what the argument is. -/
structure Composes (P : ∀ {α : Type}, Work C α → Prop) : Prop where
  pure : ∀ {α : Type} (a : α), P (Pure.pure a : Work C α)
  fail : ∀ {α : Type} (e : RenderError), P (Action.fail e : Work C α)
  note : ∀ event : Event, P (Action.note event : Work C Unit)
  lift : ∀ {α : Type} (x : Traced RenderError α), P (Action.lift x : Work C α)
  bind : ∀ {α β : Type} {x : Work C α} {f : α → Work C β}, P x → (∀ a, P (f a)) → P (x >>= f)
  /-- An action that looks at the machine first. -/
  state_bind : ∀ {α : Type} {f : Machine C → Work C α}, (∀ m, P (f m)) → P (Action.state >>= f)
  /-- An action that reads an argument first. -/
  argument_bind : ∀ {α β : Type} {value : Except ArgumentError α} {f : α → Work C β},
    (∀ a, value = .ok a → P (f a)) → P (argument value >>= f)

section Relation

variable {R : Machine C → Machine C → Prop} [IsPreorder (Machine C) R]

theorem composes_leads : Composes (Leads R : ∀ {α : Type}, Work C α → Prop) where
  pure := Leads.pure
  fail := Leads.fail
  note := Leads.note
  lift := Leads.lift
  bind := Leads.bind
  state_bind := Leads.state_bind
  argument_bind hf := Leads.ofExcept_bind fun a ha ↦ hf a (mapError_eq_ok.mp ha)

theorem composes_leaves : Composes (Leaves R : ∀ {α : Type}, Work C α → Prop) where
  pure := Leaves.pure
  fail := Leaves.fail
  note := Leaves.note
  lift := Leaves.lift
  bind := Leaves.bind
  state_bind := Leaves.state_bind
  argument_bind hf := Leaves.ofExcept_bind fun a ha ↦ hf a (mapError_eq_ok.mp ha)

end Relation

/-! ## Operations -/

section Composes

variable {P : ∀ {α : Type}, Work C α → Prop}

namespace Composes

theorem face (hP : Composes P) : P (Machine.face : Work C String) :=
  hP.state_bind fun _ ↦ hP.lift _

theorem lineStep_bind (hP : Composes P) {name : String} {args : Arguments} {α : Type}
    {f : Float32 → Work C α} (hf : ∀ step, P (f step)) : P (Machine.lineStep name args >>= f) :=
  hP.bind (hP.argument_bind fun _ _ ↦ hP.argument_bind fun _ _ ↦ hP.state_bind fun _ ↦ hP.pure _) hf

theorem ite_refuse (hP : Composes P) {p : Prop} [Decidable p] {command value : String}
    {complaint : Complaint} {x : Work C Unit} (hx : P x) :
    P (if p then refuse command value complaint >>= fun _ : Unit ↦ x else x) := by
  split
  · exact hP.bind (hP.fail _) fun _ ↦ hx
  · exact hx

theorem setSize (hP : Composes P) (name : String) {size : Float32}
    (hset : P (Action.change fun m : Machine C ↦ { m with style := { m.style with size } })) :
    P (Machine.setSize name size : Work C Unit) := hP.ite_refuse hset

theorem lineEnd (hP : Composes P)
    (hbeside : ∀ f : Machine C → Machine C, (∀ m, Beside m (f m)) → P (Action.change f))
    (hnewPage : P (newPage : Work C Unit)) : P (Machine.lineEnd : Work C Unit) := by
  refine hP.state_bind fun m ↦ ?_
  dsimp only
  split
  · exact hbeside _ fun m ↦ beside_moveTo m _
  · exact hP.bind (hP.note _) fun _ ↦ hnewPage

end Composes

variable {resources : Resources} {name : String} {args : Arguments}

theorem Composes.apply_fillColor (hP : Composes P)
    (hset : ∀ red green blue,
      P (Action.change (drawing (Canvas.setFillColor red green blue)) : Work C Unit)) :
    P (apply resources name args .fillColor : Work C Unit) :=
  hP.argument_bind fun red _ ↦ hP.argument_bind fun green _ ↦ hP.argument_bind fun blue _ ↦
    hset red green blue

theorem Composes.apply_lineWidth (hP : Composes P)
    (hset : ∀ width, P (Action.change (drawing (Canvas.setLineWidth width)) : Work C Unit)) :
    P (apply resources name args .lineWidth : Work C Unit) :=
  hP.argument_bind fun width _ ↦ hP.ite_refuse (hset width)

theorem Composes.apply_copies (hP : Composes P)
    (hset : ∀ copies, P (Action.change (withCopies · copies) : Work C Unit)) :
    P (apply resources name args .copies : Work C Unit) :=
  hP.argument_bind fun _ _ ↦ hP.ite_refuse (hP.ite_refuse (hset _))

theorem Composes.apply_fontSize (hP : Composes P) {fixed : Option Float32}
    (hset : ∀ size : Float32, (∀ given, fixed = some given → size = given) →
      (fixed = none → args.number name 0 "size" = .ok size) →
      P (Machine.setSize name size : Work C Unit)) :
    P (apply resources name args (.fontSize fixed) : Work C Unit) := by
  cases fixed with
  | some size => exact hset size (fun _ h ↦ Option.some.inj h) nofun
  | none => exact hP.argument_bind fun size hsize ↦ hset size nofun fun _ ↦ hsize

theorem Composes.changeIf (hP : Composes P) {α : Type} (x : Option α)
    {f : α → Machine C → Machine C} (hf : ∀ a, P (Action.change (f a))) :
    P (Machine.changeIf (x.map f) : Work C Unit) := by
  cases x with
  | none => exact hP.pure ()
  | some a => exact hf a

theorem Composes.apply_of_moves (hP : Composes P)
    (hmove : ∀ point : Machine C → Point, P (Action.change fun m ↦ m.moveTo (point m)))
    {operation : Operation} (h : operation.moves = true) :
    P (apply resources name args operation : Work C Unit) := by
  cases operation with
  | printInit => exact hmove _
  | up | down => exact hP.lineStep_bind fun step ↦ hmove _
  | moveAbsolute =>
    rw [apply_moveAbsolute]
    exact hP.argument_bind fun x _ ↦ hP.bind (hP.changeIf x fun _ ↦ hmove _) fun _ ↦
      hP.argument_bind fun y _ ↦ hP.changeIf y fun _ ↦ hmove _
  | moveRelative =>
    exact hP.argument_bind fun x _ ↦ hP.bind (hmove _) fun _ ↦ hP.argument_bind fun y _ ↦ hmove _
  | right =>
    exact hP.argument_bind fun columns _ ↦ hP.bind hP.face fun face ↦ hP.state_bind fun m ↦ hmove _
  | _ => cases h

/-- **What composes and holds of changes beside the pages holds of all operations that keep
books.** -/
theorem Composes.apply_of_keepsBooks (hP : Composes P)
    (hbeside : ∀ f : Machine C → Machine C, (∀ m, Beside m (f m)) → P (Action.change f))
    {operation : Operation} (h : operation.keepsBooks = true) :
    P (apply resources name args operation : Work C Unit) := by
  cases operation with
  | output | lineEnd | fontSize | fontName | fillColor | copies => cases h
  | boxEnd | lineStop | lineWidth | newPage | picture => cases h
  | printInit | up | down | moveAbsolute | moveRelative | right =>
    exact hP.apply_of_moves (fun point ↦ hbeside _ fun m ↦ beside_moveTo m _) rfl
  | printEnd => exact hP.pure ()
  | bold | italic | lineStart | pushPosition =>
    exact hbeside _ fun m ↦ ⟨rfl, rfl, rfl, rfl, rfl, rfl, rfl, rfl, rfl⟩
  | boxStart =>
    exact hP.state_bind fun m ↦ hP.bind (hP.note _) fun _ ↦
      hbeside _ fun m ↦ ⟨rfl, rfl, rfl, rfl, rfl, rfl, rfl, rfl, rfl⟩
  | leftMargin =>
    refine hP.bind (hbeside _ ?_) fun _ ↦ hP.argument_bind fun _ _ ↦ hbeside _ ?_
    all_goals exact fun m ↦ ⟨rfl, rfl, rfl, rfl, rfl, rfl, rfl, rfl, rfl⟩
  | popPosition =>
    refine hP.state_bind fun m ↦ ?_
    cases m.cursor.pop? with
    | some cursor => exact hbeside _ fun m ↦ ⟨rfl, rfl, rfl, rfl, rfl, rfl, rfl, rfl, rfl⟩
    | none => exact hP.fail _

end Composes

end Machine

end ReportPress
