import ReportPress.Proofs.Canvas.Calls
import ReportPress.Proofs.Number.Value
import ReportPress.Proofs.Render.Composing
import ReportPress.Proofs.Render.Writing

/-!
# What commands are made of

A property of actions that composes holds of every command if it holds of a few things which
commands are made of: calls on the canvas, page breaks, another family, size or number of copies,
and changes beside these (`HoldsOfParts`). It may be one that holds of drawing only for some texts,
and then it holds of the commands that ask for no others (`HoldsOfParts.execute`).
-/

namespace ReportPress

namespace Machine

open Number ReportPress.Action

/-! ## Sizes -/

theorem isNaN_of_readSingle {cs : List Char} {x : Float32} (h : readSingle cs = .ok x) :
    x.isNaN = false := by
  unfold readSingle at h
  split at h
  · cases h
  · dsimp only at h
    split at h
    · cases h
    · split at h
      · cases h
      · split at h
        · obtain rfl := Except.ok.inj h
          exact Single.isNaN_eq_false ‹_›
        · cases h

theorem isNaN_of_number {args : Arguments} {command key : String} {place : Nat} {x : Float32}
    (h : args.number command place key = .ok x) : x.isNaN = false := by
  rw [Arguments.number] at h
  cases htext : args.text command place key with
  | error cause => rw [htext] at h; cases h
  | ok value =>
    rw [htext] at h
    exact isNaN_of_readSingle (mapError_eq_ok.mp h)

/-- Whether the size that an operation sets, if it sets one, is a number. -/
def Operation.hasNumberAsSize : Operation → Bool
  | .fontSize (some size) => !size.isNaN
  | _ => true

theorem isNaN_of_named? {name : String} {size : Float32}
    (h : Operation.named? name = some (.fontSize (some size))) : size.isNaN = false := by
  have hall : Operation.vocabulary.all (fun entry ↦ Operation.hasNumberAsSize entry.2) = true := by
    decide +kernel
  exact Bool.not_eq_true' _ |>.mp
    (List.all_eq_true.mp hall _ (Operation.named?_eq_some_iff.mp h))

/-! ## Parts -/

variable {C Output : Type} [Canvas C Output]

/-- **What a property of actions has to hold of to hold of commands.** -/
structure HoldsOfParts (T : String → Prop) (P : ∀ {α : Type}, Work C α → Prop) : Prop
    extends Composes P where
  /-- Changes beside the pages. -/
  beside : ∀ f : Machine C → Machine C, (∀ m, Beside m (f m)) → P (Action.change f)
  withCopies : ∀ copies, P (Action.change (withCopies · copies) : Work C Unit)
  setSize : ∀ name {size : Float32}, size.isNaN = false → P (setSize name size : Work C Unit)
  selectFamily : ∀ resources family, P (selectFamily resources family : Work C Unit)
  newPage : P (newPage : Work C Unit)
  beforeDraw : P (onPages Pages.beforeDraw : Work C Bool)
  /-- A call that cannot fail. -/
  drawing : ∀ {f : C → C} (call : CanvasCall), (∀ canvas, f canvas = call.perform canvas) →
    call.text? = none → P (Action.change (drawing f))
  onCanvas : ∀ {work : Action C CanvasError Unit} (call : CanvasCall),
    (∀ canvas, (work canvas).2 = call.perform canvas) → (∀ text ∈ call.text?, T text) →
    P (onCanvas work)

namespace HoldsOfParts

variable {T : String → Prop} {P : ∀ {α : Type}, Work C α → Prop} {text : String}

theorem lineEnd (hP : HoldsOfParts T P) : P (Machine.lineEnd : Work C Unit) :=
  hP.toComposes.lineEnd hP.beside hP.newPage

theorem placeText (hP : HoldsOfParts T P) (htext : T text) (size : Float32) :
    P (Machine.placeText text size : Work C Float32) := by
  refine hP.bind hP.face fun face ↦ hP.bind hP.beforeDraw fun _ ↦ hP.state_bind fun m ↦
    hP.bind (hP.onCanvas (.drawText ⟨m.cursor.point.x, baseline m.cursor.point.y size⟩ text face size)
      (fun _ ↦ rfl) ?_) fun _ ↦ hP.state_bind fun _ ↦ hP.pure _
  rintro _ ⟨⟩
  exact htext

theorem drawText (hP : HoldsOfParts T P) (htext : text ≠ "" → T text) :
    P (Machine.drawText text : Work C Float32) := by
  rw [drawText_eq]
  split
  · exact hP.pure 0
  · have hplace := hP.placeText (htext ‹_›)
    refine hP.state_bind fun m ↦ ?_
    split
    · exact hplace _
    · exact hP.bind (hP.note _) fun _ ↦ hP.bind hP.newPage fun _ ↦ hplace _

theorem output (hP : HoldsOfParts T P)
    (htext : ∀ drawn ∈ [withoutLineFeed text].filter (· ≠ ""), T drawn) :
    P (Machine.output text : Work C Unit) := by
  unfold Machine.output
  split
  · exact hP.pure ()
  · cases hbody : withoutLineFeed? text with
    | some body =>
      refine hP.bind (hP.drawText fun hne ↦ htext body ?_) fun _ ↦ hP.lineEnd
      simpa [withoutLineFeed, hbody] using hne
    | none =>
      refine hP.bind (hP.drawText fun hne ↦ htext text ?_) fun _ ↦
        hP.beside _ fun m ↦ beside_moveTo m _
      simpa [withoutLineFeed, hbody] using hne

theorem boxEnd (hP : HoldsOfParts T P) (name : String) (corners : Corners) :
    P (Machine.boxEnd name corners : Work C Unit) := by
  refine hP.state_bind fun m ↦ ?_
  cases m.boxes.lookup name with
  | none => exact hP.note _
  | some start =>
    refine hP.bind hP.beforeDraw fun _ ↦ hP.state_bind fun m ↦ hP.bind (hP.note _) fun _ ↦ ?_
    cases corners with
    | square => exact hP.drawing (.drawRect start m.cursor.point) (fun _ ↦ rfl) rfl
    | rounded =>
      exact hP.drawing (.drawRoundedRect start m.cursor.point cornerRadius) (fun _ ↦ rfl) rfl

theorem lineStop (hP : HoldsOfParts T P) (name : String) :
    P (Machine.lineStop name : Work C Unit) := by
  refine hP.state_bind fun m ↦ ?_
  cases m.lines.lookup name with
  | none => exact hP.note _
  | some start =>
    exact hP.bind hP.beforeDraw fun _ ↦ hP.state_bind fun m ↦
      hP.drawing (.drawLine start m.cursor.point) (fun _ ↦ rfl) rfl

theorem picture (hP : HoldsOfParts T P) (resources : Resources) (name : String) (args : Arguments) :
    P (Machine.picture resources name args : Work C Unit) :=
  hP.argument_bind fun _ _ ↦ hP.bind (hP.lift _) fun path ↦
    hP.argument_bind fun width _ ↦ hP.argument_bind fun height _ ↦
      hP.bind hP.beforeDraw fun _ ↦ hP.state_bind fun m ↦
        hP.onCanvas (.drawImage resources.files path
          ⟨m.cursor.point.x, m.cursor.point.y - height.getD 0⟩ width height) (fun _ ↦ rfl) nofun

/-! ## Commands -/

theorem apply (hP : HoldsOfParts T P) (resources : Resources) {name : String} {args : Arguments}
    {operation : Operation} (hname : Operation.named? name = some operation)
    (htext : ∀ text ∈ textsOfOperation args operation, T text) :
    P (Machine.apply resources name args operation : Work C Unit) := by
  cases operation with
  | output => exact hP.output htext
  | lineEnd => exact hP.lineEnd
  | fontSize fixed =>
    refine hP.apply_fontSize fun size hfixed hread ↦ hP.setSize name ?_
    cases fixed with
    | some given => exact isNaN_of_named? (hfixed given rfl ▸ hname)
    | none => exact isNaN_of_number (hread rfl)
  | fontName => exact hP.argument_bind fun given _ ↦ hP.selectFamily resources _
  | fillColor =>
    exact hP.apply_fillColor fun red green blue ↦
      hP.drawing (.setFillColor red green blue) (fun _ ↦ rfl) rfl
  | copies => exact hP.apply_copies hP.withCopies
  | boxEnd corners => exact hP.boxEnd _ corners
  | lineStop => exact hP.lineStop _
  | lineWidth =>
    exact hP.apply_lineWidth fun width ↦ hP.drawing (.setLineWidth width) (fun _ ↦ rfl) rfl
  | newPage => exact hP.newPage
  | picture => exact hP.picture resources name args
  | _ => exact hP.apply_of_keepsBooks hP.beside rfl

/-- **What holds of its parts holds of a command**, if it draws no other texts. -/
theorem execute (hP : HoldsOfParts T P) (resources : Resources) {command : Command}
    (htext : ∀ text ∈ textsOf [command], T text) :
    P (Machine.execute resources command : Work C Unit) := by
  cases command with
  | literal text => exact hP.output htext
  | newline => exact hP.lineEnd
  | invoke name args =>
    simp only [Machine.execute]
    cases hname : Operation.named? name with
    | some operation =>
      rw [textsOf_invoke args hname] at htext
      exact hP.apply resources hname htext
    | none => exact hP.fail _

end HoldsOfParts

end Machine

end ReportPress
