import ReportPress.Proofs.Journal.Failure
import ReportPress.Proofs.Render.Parts

/-!
# How commands fail

Every way in which a command can fail, on any canvas, with the error and the machine that is left
behind (`Breakdown`). Most commands read all their arguments before they do anything. Four do not: a
move by two coordinates has made the first move when the second coordinate is no number, the left
margin is remembered before it is read, and a family is on the registry before the canvas has read
its face. Whatever else is left behind comes from the canvas, or is a page break in front of a text
that has no face.
-/

namespace ReportPress

open Number ReportPress.Action

/-- Whether an error says that a command could not be begun. -/
def RenderError.IsRefusal : RenderError → Prop
  | .unknownCommand _ | .notFound _ | .nothingSaved | .argument _ => True
  | .unknownFamily _ | .canvas _ | .atCommand _ _ _ => False

namespace Machine

variable {C Output : Type} [Canvas C Output] {m m' : Machine C} {e : RenderError}

def face? (m : Machine C) : Except UnknownFamily String :=
  m.registry.resolve m.style.family m.style.bold m.style.italic

/-- The machine with the left margin remembered that it has, unless one was remembered before. -/
def withMarginKept (m : Machine C) : Machine C :=
  { m with margins.leftDefault := some (m.margins.leftDefault.getD m.margins.left) }

def withFamily (m : Machine C) (family : String) : Machine C :=
  m.withRegistry (m.registry.add family (FontRegistry.faceName family))

/-- **How a command can fail**, and what it leaves behind. -/
inductive Breakdown (resources : Resources) (m : Machine C) :
    Command → RenderError → Machine C → Prop
  /-- It was not begun. -/
  | refused {command e} (he : e.IsRefusal) : Breakdown resources m command e m
  /-- The first coordinate of a place is gone to, the second is no number. -/
  | moveAbsolute {name args x cause} (hname : Operation.named? name = some .moveAbsolute)
      (hx : args.number? name 0 "x" = .ok (some x)) (hy : args.number? name 1 "y" = .error cause) :
      Breakdown resources m (.invoke name args) (.argument cause) (m.setX (x * centimetre))
  /-- The first distance is gone, the second is no number. -/
  | moveRelative {name args x cause} (hname : Operation.named? name = some .moveRelative)
      (hx : args.number name 0 "x" = .ok x) (hy : args.number name 1 "y" = .error cause) :
      Breakdown resources m (.invoke name args) (.argument cause) (m.setX (m.cursor.point.x + x))
  /-- The left margin is remembered, the new one is no number. -/
  | leftMargin {name args cause} (hname : Operation.named? name = some .leftMargin)
      (hmargin : args.number? name 0 "margin" = .error cause) :
      Breakdown resources m (.invoke name args) (.argument cause) m.withMarginKept
  /-- A new family is found, but the canvas cannot read its face. -/
  | fontName {name args given path cause canvas}
      (hname : Operation.named? name = some .fontName) (hgiven : args.text name 0 "name" = .ok given)
      (hnew : m.registry.isKnown (familyName given) = false)
      (hpath : (resources.locate (familyName given)).result = .ok path)
      (hbreaks : (Canvas.registerFont resources.files (FontRegistry.faceName (familyName given))
        path).Breaks m.canvas cause canvas) :
      Breakdown resources m (.invoke name args) (.canvas cause)
        ((m.withFamily (familyName given)).withCanvas canvas)
  /-- Text has no face. A page break may have come before it. -/
  | faceless {command cause m'} (hface : m.face? = .error cause) :
      Breakdown resources m command (.unknownFamily cause) m'
  /-- The canvas cannot draw a text. -/
  | drawText {command text face start cause canvas} (hface : m.face? = .ok face)
      (hbreaks : (Canvas.drawText start text face m.style.size).Breaks m.withRoom.opened.canvas
        cause canvas) :
      Breakdown resources m command (.canvas cause) (m.withRoom.opened.withCanvas canvas)
  /-- The canvas cannot place an image. -/
  | drawImage {command path corner width height cause canvas}
      (hbreaks : (Canvas.drawImage resources.files path corner width height).Breaks
        m.opened.canvas cause canvas) :
      Breakdown resources m command (.canvas cause) (m.opened.withCanvas canvas)

/-! ## Parts -/

theorem not_breaks_onPages {α : Type} {work : Action (Pages C) RenderError α}
    (h : ∀ e, ¬work.Fails m.pages e) : ¬(onPages work : Work C α).Breaks m e m' := by
  rintro ⟨hresult, -⟩
  obtain ⟨cause, hcause, -⟩ := fails_within.mp hresult
  exact h cause hcause

@[simp] theorem not_breaks_onPages_beforeDraw :
    ¬(onPages Pages.beforeDraw : Work C Bool).Breaks m e m' :=
  not_breaks_onPages fun _ ↦ Pages.not_fails_beforeDraw

@[simp] theorem not_breaks_newPage : ¬(newPage : Work C Unit).Breaks m e m' := by
  simp [newPage, not_breaks_onPages]

@[simp] theorem not_breaks_lineEnd : ¬(lineEnd : Work C Unit).Breaks m e m' := by
  unfold lineEnd
  simp only [breaks_bind, not_breaks_state, yields_state, false_or]
  rintro ⟨_, _, -, h⟩
  revert h
  split <;> simp

@[simp] theorem breaks_argument {α : Type} {value : Except ArgumentError α} :
    (argument value : Work C α).Breaks m e m' ↔
      ∃ cause, value = .error cause ∧ e = .argument cause ∧ m' = m := by
  simp only [argument, breaks_ofExcept, mapError_eq_error, ← exists_and_right, and_assoc]

@[simp] theorem breaks_refuse {α : Type} {command value : String} {complaint : Complaint} :
    (refuse command value complaint : Work C α).Breaks m e m' ↔
      e = .argument (.invalid command value complaint) ∧ m' = m := breaks_fail

@[simp] theorem breaks_face :
    (face : Work C String).Breaks m e m' ↔
      ∃ cause, m.face? = .error cause ∧ e = .unknownFamily cause ∧ m' = m := by
  cases h : m.registry.resolve m.style.family m.style.bold m.style.italic <;>
    simp [face, face?, and_comm, h]

@[simp] theorem breaks_onCanvas {α : Type} {work : Action C CanvasError α} :
    (onCanvas work : Work C α).Breaks m e m' ↔
      ∃ cause canvas, work.Breaks m.canvas cause canvas ∧ e = .canvas cause ∧
        m' = m.withCanvas canvas :=
  breaks_within

theorem breaks_lineStep {name : String} {args : Arguments} :
    (lineStep name args : Work C Float32).Breaks m e m' →
      ∃ cause, e = .argument cause ∧ m' = m := by
  simp only [lineStep, breaks_bind, breaks_argument, yields_argument]
  rintro (⟨cause, -, rfl, rfl⟩ | ⟨count, t, ⟨-, rfl⟩, ⟨cause, -, rfl, rfl⟩ | ⟨size, t, -, h⟩⟩)
  · exact ⟨cause, rfl, rfl⟩
  · exact ⟨cause, rfl, rfl⟩
  · simp at h

@[simp] theorem not_breaks_changeIf {f : Option (Machine C → Machine C)} :
    ¬(changeIf f : Work C Unit).Breaks m e m' := by
  cases f <;> simp [changeIf]

theorem breaks_check {p : Prop} [Decidable p] {command value : String} {complaint : Complaint}
    {rest rest' : Work C Unit} :
    (if p then refuse command value complaint >>= fun _ : Unit ↦ rest' else rest).Breaks m e m' ↔
      (p ∧ e = .argument (.invalid command value complaint) ∧ m' = m) ∨
      (¬p ∧ rest.Breaks m e m') := by
  by_cases h : p <;> simp [h]

theorem breaks_setSize {name : String} {size : Float32} :
    (setSize name size : Work C Unit).Breaks m e m' ↔
      size ≤ 0 ∧ e = .argument (.invalid name (Single.text size) .fontSize) ∧ m' = m := by
  simp [setSize, breaks_check]

theorem breaks_setLeftMargin {name : String} {args : Arguments} :
    (setLeftMargin name args : Work C Unit).Breaks m e m' ↔
      ∃ cause, args.number? name 0 "margin" = .error cause ∧ e = .argument cause ∧
        m' = m.withMarginKept := by
  simp [setLeftMargin, withMarginKept]

/-! ## Text -/

theorem breaks_placeText {text : String} {size : Float32} :
    (placeText text size : Work C Float32).Breaks m e m' ↔
      (∃ cause, m.face? = .error cause ∧ e = .unknownFamily cause ∧ m' = m) ∨
      ∃ face cause canvas, m.face? = .ok face ∧
        (Canvas.drawText ⟨m.cursor.point.x, baseline m.cursor.point.y size⟩ text face size).Breaks
          m.opened.canvas cause canvas ∧ e = .canvas cause ∧ m' = m.opened.withCanvas canvas := by
  simp [placeText, face?, and_assoc]

/-- A text cannot be drawn if it has no face, or if the canvas cannot draw it in its face. By then
there is room for it, on a new page perhaps. -/
theorem breaks_drawText {text : String} :
    (drawText text : Work C Float32).Breaks m e m' →
      (∃ cause, m.face? = .error cause ∧ e = .unknownFamily cause) ∨
      ∃ start face cause canvas, m.face? = .ok face ∧
        (Canvas.drawText start text face m.style.size).Breaks m.withRoom.opened.canvas cause canvas ∧
        e = .canvas cause ∧ m' = m.withRoom.opened.withCanvas canvas := by
  have hface : m.atNextPage.face? = m.face? := rfl
  rw [drawText_eq, withRoom]
  by_cases hempty : text = ""
  · simp [hempty]
  · rw [if_neg hempty]
    simp only [breaks_bind, not_breaks_state, yields_state, false_or]
    rintro ⟨_, _, ⟨rfl, rfl⟩, h⟩
    -- Whether there is room or a new page is needed, the place behind is the same.
    split
    · rename_i hfits
      rw [if_pos hfits, breaks_placeText] at h
      rcases h with ⟨cause, hcause, rfl, -⟩ | ⟨face, cause, canvas, h⟩
      · exact Or.inl ⟨cause, hcause, rfl⟩
      · exact Or.inr ⟨_, face, cause, canvas, h⟩
    · rename_i hfull
      rw [if_neg hfull] at h
      simp only [breaks_bind, not_breaks_note, yields_note, not_breaks_newPage, yields_newPage,
        false_or, exists_eq_left, breaks_placeText, hface] at h
      obtain ⟨-, -, ⟨cause, hcause, rfl, -⟩ | ⟨face, cause, canvas, h⟩⟩ := h
      · exact Or.inl ⟨cause, hcause, rfl⟩
      · exact Or.inr ⟨_, face, cause, canvas, h⟩

theorem breaks_output {text : String} (h : (output text : Work C Unit).Breaks m e m') :
    ∃ body, (drawText body : Work C Float32).Breaks m e m' := by
  by_cases hempty : text = ""
  · simp [output, hempty] at h
  · cases hbody : withoutLineFeed? text with
    | some body => exact ⟨body, by simpa [output, hempty, hbody] using h⟩
    | none => exact ⟨text, by simpa [output, hempty, hbody] using h⟩

/-! ## Shapes, pictures and families -/

@[simp] theorem not_breaks_boxEnd {name : String} {corners : Corners} :
    ¬(boxEnd name corners : Work C Unit).Breaks m e m' := by
  cases h : m.boxes.lookup name <;> cases corners <;> simp [boxEnd, h]

@[simp] theorem not_breaks_lineStop {name : String} :
    ¬(lineStop name : Work C Unit).Breaks m e m' := by
  cases h : m.lines.lookup name <;> simp [lineStop, h]

theorem breaks_picture {resources : Resources} {name : String} {args : Arguments}
    (h : (picture resources name args : Work C Unit).Breaks m e m') :
    (e.IsRefusal ∧ m' = m) ∨ ∃ path corner width height cause canvas,
      (Canvas.drawImage resources.files path corner width height).Breaks m.opened.canvas cause canvas ∧
        e = .canvas cause ∧ m' = m.opened.withCanvas canvas := by
  simp only [picture, breaks_bind, breaks_argument, yields_argument, breaks_lift, yields_lift,
    mapError_eq_error, mapError_eq_ok, Traced.result_mapError, not_breaks_onPages_beforeDraw,
    yields_onPages_beforeDraw, not_breaks_state, yields_state, breaks_onCanvas, false_or] at h
  rcases h with ⟨cause, -, rfl, rfl⟩ | ⟨file, _, ⟨-, rfl⟩, h⟩
  · exact Or.inl ⟨trivial, rfl⟩
  rcases h with ⟨⟨cause, -, rfl⟩, rfl⟩ | ⟨path, _, ⟨-, rfl⟩, h⟩
  · exact Or.inl ⟨trivial, rfl⟩
  rcases h with ⟨cause, -, rfl, rfl⟩ | ⟨width, _, ⟨-, rfl⟩, h⟩
  · exact Or.inl ⟨trivial, rfl⟩
  rcases h with ⟨cause, -, rfl, rfl⟩ | ⟨height, _, ⟨-, rfl⟩, h⟩
  · exact Or.inl ⟨trivial, rfl⟩
  obtain ⟨_, _, ⟨-, rfl⟩, _, _, ⟨rfl, rfl⟩, cause, canvas, hbreaks, rfl, rfl⟩ := h
  exact Or.inr ⟨path, _, width, height, cause, canvas, hbreaks, rfl, rfl⟩

/-- A family that is not known may not be found, or the canvas cannot read its face; by then it is
on the registry. -/
theorem breaks_selectFamily {resources : Resources} {family : String} :
    (selectFamily resources family : Work C Unit).Breaks m e m' ↔
      m.registry.isKnown family = false ∧
      ((∃ cause, (resources.locate family).result = .error cause ∧ e = .notFound cause ∧ m' = m) ∨
        ∃ path cause canvas, (resources.locate family).result = .ok path ∧
          (Canvas.registerFont resources.files (FontRegistry.faceName family) path).Breaks
            m.canvas cause canvas ∧
          e = .canvas cause ∧ m' = (m.withFamily family).withCanvas canvas) := by
  have hself : m.withRegistry m.registry = m := rfl
  rw [selectFamily_eq, withFamily]
  by_cases hknown : m.registry.isKnown family = true
  · simp [FontRegistry.yields_ensure, FontRegistry.breaks_ensure, and_assoc, hknown]
  · rw [Bool.not_eq_true] at hknown
    have hresolve := FontRegistry.resolve_add_self hknown (FontRegistry.faceName family) false false
    simp [FontRegistry.yields_ensure, FontRegistry.breaks_ensure, and_assoc, hknown, hresolve, hself]

/-! ## Commands -/

section Rules

variable {resources : Resources} {command : Command} {work : Work C Unit}

theorem Breakdown.of_argument {α : Type} {value : Except ArgumentError α} {next : α → Work C Unit}
    (h : (argument value >>= next : Work C Unit).Breaks m e m')
    (hnext : ∀ a, value = .ok a → (next a).Breaks m e m' → Breakdown resources m command e m') :
    Breakdown resources m command e m' := by
  rw [breaks_bind, breaks_argument] at h
  rcases h with ⟨cause, -, rfl, rfl⟩ | ⟨a, t, hread, h⟩
  · exact .refused trivial
  · obtain ⟨ha, rfl⟩ := yields_argument.mp hread
    exact hnext a ha h

theorem Breakdown.of_check {p : Prop} [Decidable p] {name value : String} {complaint : Complaint}
    {rest : Work C Unit}
    (h : (if p then refuse name value complaint >>= fun _ : Unit ↦ rest else work).Breaks m e m')
    (hwork : work.Breaks m e m' → Breakdown resources m command e m') :
    Breakdown resources m command e m' := by
  rcases breaks_check.mp h with ⟨-, rfl, rfl⟩ | ⟨-, h⟩
  · exact .refused trivial
  · exact hwork h

theorem Breakdown.of_output {text : String} (h : (output text : Work C Unit).Breaks m e m') :
    Breakdown resources m command e m' := by
  obtain ⟨body, hbody⟩ := breaks_output h
  rcases breaks_drawText hbody with ⟨cause, hface, rfl⟩ | ⟨_, _, _, _, hface, hdraw, rfl, rfl⟩
  · exact .faceless hface
  · exact .drawText hface hdraw

theorem Breakdown.of_setSize {name : String} {size : Float32}
    (h : (setSize name size : Work C Unit).Breaks m e m') : Breakdown resources m command e m' := by
  obtain ⟨-, rfl, rfl⟩ := breaks_setSize.mp h
  exact .refused trivial

theorem Breakdown.of_lineStep {name : String} {args : Arguments}
    {move : Float32 → Machine C → Machine C}
    (h : (lineStep name args >>= fun step ↦ Action.change (move step) : Work C Unit).Breaks m e m') :
    Breakdown resources m command e m' := by
  simp only [breaks_bind, not_breaks_change, and_false, exists_false, or_false] at h
  obtain ⟨cause, rfl, rfl⟩ := breaks_lineStep h
  exact .refused trivial

/-! ### Operations -/

variable {name : String} {args : Arguments}

theorem Breakdown.of_fontSize {fixed : Option Float32}
    (h : (apply resources name args (.fontSize fixed) : Work C Unit).Breaks m e m') :
    Breakdown resources m command e m' := by
  cases fixed with
  | some size => exact .of_setSize h
  | none => exact .of_argument h fun size _ h ↦ .of_setSize h

theorem Breakdown.of_fontName (hname : Operation.named? name = some .fontName)
    (h : (apply resources name args .fontName : Work C Unit).Breaks m e m') :
    Breakdown resources m (.invoke name args) e m' := by
  refine .of_argument h fun given hgiven h ↦ ?_
  rcases breaks_selectFamily.mp h with
    ⟨hnew, ⟨_, -, rfl, rfl⟩ | ⟨_, _, _, hpath, hbreaks, rfl, rfl⟩⟩
  · exact .refused trivial
  · exact .fontName hname hgiven hnew hpath hbreaks

theorem Breakdown.of_fillColor
    (h : (apply resources name args .fillColor : Work C Unit).Breaks m e m') :
    Breakdown resources m command e m' :=
  .of_argument h fun _ _ h ↦ .of_argument h fun _ _ h ↦ .of_argument h fun _ _ h ↦
    absurd h not_breaks_change

theorem Breakdown.of_lineWidth
    (h : (apply resources name args .lineWidth : Work C Unit).Breaks m e m') :
    Breakdown resources m command e m' :=
  .of_argument h fun _ _ h ↦ .of_check h fun h ↦ absurd h not_breaks_change

theorem Breakdown.of_copies
    (h : (apply resources name args .copies : Work C Unit).Breaks m e m') :
    Breakdown resources m command e m' :=
  .of_argument h fun _ _ h ↦ .of_check h fun h ↦ .of_check h fun h ↦ absurd h not_breaks_change

theorem Breakdown.of_picture
    (h : (picture resources name args : Work C Unit).Breaks m e m') :
    Breakdown resources m command e m' := by
  rcases breaks_picture h with ⟨he, rfl⟩ | ⟨_, _, _, _, _, _, hbreaks, rfl, rfl⟩
  · exact .refused he
  · exact .drawImage hbreaks

/-- The first coordinate is gone to by the time the second is read. -/
theorem Breakdown.of_moveAbsolute (hname : Operation.named? name = some .moveAbsolute)
    (h : (apply resources name args .moveAbsolute : Work C Unit).Breaks m e m') :
    Breakdown resources m (.invoke name args) e m' := by
  rw [apply_moveAbsolute] at h
  refine .of_argument h fun x hx h ↦ ?_
  simp only [breaks_bind, breaks_argument, not_breaks_changeIf, yields_changeIf, and_false,
    exists_false, or_false, false_or] at h
  obtain ⟨_, _, rfl, cause, hy, rfl, rfl⟩ := h
  cases x with
  | none => exact .refused trivial
  | some x => exact .moveAbsolute hname hx hy

theorem Breakdown.of_moveRelative (hname : Operation.named? name = some .moveRelative)
    (h : (apply resources name args .moveRelative : Work C Unit).Breaks m e m') :
    Breakdown resources m (.invoke name args) e m' := by
  refine .of_argument h fun x hx h ↦ ?_
  simp only [breaks_bind, breaks_argument, not_breaks_change, and_false, exists_false, or_false,
    yields_change, false_or] at h
  obtain ⟨_, _, rfl, cause, hy, rfl, rfl⟩ := h
  exact .moveRelative hname hx hy

theorem Breakdown.of_right
    (h : (apply resources name args .right : Work C Unit).Breaks m e m') :
    Breakdown resources m command e m' := by
  refine .of_argument h fun columns _ h ↦ ?_
  simp only [breaks_bind, breaks_face, not_breaks_state, not_breaks_change, and_false,
    exists_false, or_false] at h
  obtain ⟨cause, hface, rfl, rfl⟩ := h
  exact .faceless hface

theorem Breakdown.of_leftMargin (hname : Operation.named? name = some .leftMargin)
    (h : (setLeftMargin name args : Work C Unit).Breaks m e m') :
    Breakdown resources m (.invoke name args) e m' := by
  obtain ⟨cause, hmargin, rfl, rfl⟩ := breaks_setLeftMargin.mp h
  exact .leftMargin hname hmargin

theorem Breakdown.of_popPosition
    (h : (apply resources name args .popPosition : Work C Unit).Breaks m e m') :
    Breakdown resources m command e m' := by
  simp only [apply, breaks_bind, not_breaks_state, yields_state, false_or] at h
  obtain ⟨_, _, ⟨rfl, rfl⟩, h⟩ := h
  split at h
  · exact absurd h not_breaks_change
  · obtain ⟨rfl, rfl⟩ := breaks_fail.mp h
    exact .refused trivial

end Rules

theorem breakdown_of_breaks_apply {resources : Resources} {name : String} {args : Arguments}
    {operation : Operation} (hname : Operation.named? name = some operation)
    (h : (apply resources name args operation : Work C Unit).Breaks m e m') :
    Breakdown resources m (.invoke name args) e m' := by
  cases operation with
  | printInit | printEnd | lineEnd | bold | italic | newPage | pushPosition => simp [apply] at h
  | boxStart | boxEnd | lineStart | lineStop => simp [apply, boxStart] at h
  | output => exact .of_output h
  | fontSize fixed => exact .of_fontSize h
  | fontName => exact .of_fontName hname h
  | fillColor => exact .of_fillColor h
  | lineWidth => exact .of_lineWidth h
  | copies => exact .of_copies h
  | picture => exact .of_picture h
  | up | down => exact .of_lineStep h
  | moveAbsolute => exact .of_moveAbsolute hname h
  | moveRelative => exact .of_moveRelative hname h
  | right => exact .of_right h
  | leftMargin => exact .of_leftMargin hname h
  | popPosition => exact .of_popPosition h

/-- **There is no other way to fail.** -/
theorem breakdown_of_breaks {resources : Resources} {command : Command}
    (h : (execute resources command : Work C Unit).Breaks m e m') :
    Breakdown resources m command e m' := by
  cases command with
  | literal text => exact .of_output h
  | newline => exact absurd h not_breaks_lineEnd
  | invoke name args =>
    simp only [execute] at h
    cases hname : Operation.named? name with
    | none =>
      rw [hname] at h
      obtain ⟨rfl, rfl⟩ := breaks_fail.mp h
      exact .refused trivial
    | some operation =>
      simp only [hname] at h
      exact breakdown_of_breaks_apply hname h

/-! ## Runs -/

theorem fails_runFrom {resources : Resources} {index : Nat} {commands : List Command} :
    (runFrom resources index commands : Work C Unit).Fails m e ↔
      ∃ front command back between cause, commands = front ++ command :: back ∧
        (run resources front : Work C Unit).Yields m () between ∧
        (execute resources command : Work C Unit).Fails between cause ∧
        e = .atCommand (index + front.length) command.label cause := by
  -- By induction on the commands: the first of them fails, or one behind it does in the machine
  -- that the first leads to.
  induction commands generalizing index m with
  | nil => simp [runFrom]
  | cons command rest ih =>
    simp only [runFrom, fails_bind, fails_executeAt, yields_executeAt, ih]
    constructor
    · rintro (⟨cause, hfails, rfl⟩ |
        ⟨_, next, hexecute, front, other, back, between, cause, rfl, hfront, hfails, rfl⟩)
      · exact ⟨[], command, rest, m, cause, rfl, yields_run_nil.mpr rfl, hfails, rfl⟩
      · refine ⟨command :: front, other, back, between, cause, rfl,
          yields_run_cons.mpr ⟨next, hexecute, hfront⟩, hfails, ?_⟩
        rw [List.length_cons, Nat.add_assoc, Nat.add_comm 1]
    · rintro ⟨front, other, back, between, cause, hsplit, hfront, hfails, rfl⟩
      cases front with
      | nil =>
        obtain ⟨rfl, rfl⟩ := List.cons.inj hsplit
        obtain rfl := yields_run_nil.mp hfront
        exact .inl ⟨cause, hfails, rfl⟩
      | cons first front =>
        obtain ⟨rfl, rfl⟩ := List.cons.inj hsplit
        obtain ⟨next, hexecute, hfront⟩ := yields_run_cons.mp hfront
        refine .inr ⟨(), next, hexecute, front, other, back, between, cause, rfl, hfront, hfails, ?_⟩
        rw [List.length_cons, Nat.add_assoc, Nat.add_comm 1]

theorem fails_run {resources : Resources} {commands : List Command} :
    (run resources commands : Work C Unit).Fails m e ↔
      ∃ front command back between cause, commands = front ++ command :: back ∧
        (run resources front : Work C Unit).Yields m () between ∧
        (execute resources command : Work C Unit).Fails between cause ∧
        e = .atCommand front.length command.label cause := by
  simp only [run, fails_runFrom, Nat.zero_add]

theorem root_of_fails {resources : Resources} {command : Command}
    (h : (execute resources command : Work C Unit).Fails m e) : e.root = e := by
  obtain ⟨m', hbreaks⟩ := fails_iff_breaks.mp h
  cases breakdown_of_breaks hbreaks with
  | refused he =>
    cases e with
    | atCommand => exact he.elim
    | _ => rfl
  | _ => rfl

end Machine

end ReportPress
