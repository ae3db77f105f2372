import ReportPress.Proofs.Render.Parts

/-!
# Two machines in lockstep

A machine looks at its canvas in one way only: it asks how wide a text is. Where two canvases
measure alike and take the same calls, machines on them therefore go the same way, with the same
cursor, the same breaks and the same errors.

`Canvas.Lockstep` states what has to be known of two canvases, call by call; `Machine.Related` is
what then holds between machines on them; and there is a lemma for each part of a machine, up to
whole runs (`Machine.keeps_run`). The calls of the second canvas may fail where the first has no
trouble, so the statements run from the second machine to the first, and the errors that come from
the canvas itself are excepted.
-/

namespace ReportPress

variable {C D Output Output' : Type} [Canvas C Output] [Canvas D Output']

/-- Calls that succeed on the second canvas succeed on the first, and keep the canvases related. The
relation may depend on the families that are known, since a face is read only for a new one. -/
structure Canvas.Lockstep (files : FileSystem) (R : FontRegistry → C → D → Prop) : Prop where
  /-- Both measure alike. -/
  textWidth {known c d} : R known c d → ∀ text face size,
    Canvas.textWidth c text face size = Canvas.textWidth d text face size
  setFillColor {known c d} : R known c d → ∀ red green blue,
    R known (Canvas.setFillColor red green blue c) (Canvas.setFillColor red green blue d)
  setLineWidth {known c d} : R known c d → ∀ width,
    R known (Canvas.setLineWidth width c) (Canvas.setLineWidth width d)
  drawRect {known c d} : R known c d → ∀ a b, R known (Canvas.drawRect a b c) (Canvas.drawRect a b d)
  drawRoundedRect {known c d} : R known c d → ∀ a b radius,
    R known (Canvas.drawRoundedRect a b radius c) (Canvas.drawRoundedRect a b radius d)
  drawLine {known c d} : R known c d → ∀ start stop,
    R known (Canvas.drawLine start stop c) (Canvas.drawLine start stop d)
  showPage {known c d} : R known c d → R known (Canvas.showPage c) (Canvas.showPage d)
  drawText {known c d} : R known c d → ∀ start text face size d',
    (Canvas.drawText start text face size).Yields d () d' →
      ∃ c', (Canvas.drawText start text face size).Yields c () c' ∧ R known c' d'
  drawImage {known c d} : R known c d → ∀ path corner width height d',
    (Canvas.drawImage files path corner width height).Yields d () d' →
      ∃ c', (Canvas.drawImage files path corner width height).Yields c () c' ∧ R known c' d'
  /-- Reading the face of a family that was not known. -/
  registerFont {known c d family} : R known c d → known.isKnown family = false → ∀ path d',
    (Canvas.registerFont files (FontRegistry.faceName family) path).Yields d () d' →
      ∃ c', (Canvas.registerFont files (FontRegistry.faceName family) path).Yields c () c' ∧
        R (known.add family (FontRegistry.faceName family)) c' d'

/-- Whether an error comes from the canvas. -/
def RenderError.IsOfCanvas (e : RenderError) : Prop := ∃ cause, e.root = .canvas cause

namespace Machine

open Number

/-- Machines that differ in nothing but their canvases and the copies they are asked for, with
canvases that are related and numbers of copies that are, too. No document is finished while
commands are carried out. -/
inductive Related (S : UInt32 → UInt32 → Prop) (R : FontRegistry → C → D → Prop) (m : Machine C) :
    Machine D → Prop
  | intro (canvas : D) (copies : UInt32) (unfinished : m.pages.isFinished = false)
      (asked : S m.copies copies) (related : R m.registry m.canvas canvas) :
      Related S R m ((m.withCanvas canvas).withCopies copies)

section Parts

variable {files : FileSystem} {S : UInt32 → UInt32 → Prop} {R : FontRegistry → C → D → Prop}

/-- Work on machines that keeps to what the other machine does, canvas errors apart. -/
abbrev Keeps {α : Type} (S : UInt32 → UInt32 → Prop) (R : FontRegistry → C → D → Prop)
    (x : Work C α) (y : Work D α) : Prop :=
  Action.Follows RenderError.IsOfCanvas (Related S R) x y

/-- A change that is the same on both sides and leaves the canvas, the families and the copies
alone. -/
theorem keeps_change {f : Machine C → Machine C} {g : Machine D → Machine D}
    (hg : ∀ m (canvas : D) copies, g ((m.withCanvas canvas).withCopies copies)
      = ((f m).withCanvas canvas).withCopies copies := by intros; rfl)
    (hf : ∀ m, (f m).registry = m.registry ∧ (f m).canvas = m.canvas ∧
      (f m).pages.isFinished = m.pages.isFinished ∧ (f m).copies = m.copies := by
        intros; exact ⟨rfl, rfl, rfl, rfl⟩) :
    Keeps S R (Action.change f) (Action.change g) := by
  apply Action.Follows.change
  rintro m _ ⟨canvas, copies, unfinished, asked, related⟩
  obtain ⟨hregistry, hcanvas, hfinished, hcopies⟩ := hf m
  rw [hg]
  exact ⟨canvas, copies, hfinished.trans unfinished, by rwa [hcopies], by rwa [hregistry, hcanvas]⟩

theorem keeps_withCopies [Std.Refl S] (copies : UInt32) :
    Keeps S R (Action.change (withCopies · copies)) (Action.change (withCopies · copies)) := by
  apply Action.Follows.change
  rintro m _ ⟨canvas, _, unfinished, -, related⟩
  exact ⟨canvas, copies, unfinished, refl_of S copies, related⟩

theorem keeps_argument {α : Type} (value : Except ArgumentError α) :
    Keeps S R (argument value) (argument value) := Action.Follows.ofExcept _

theorem keeps_refuse {α : Type} (command value : String) (complaint : Complaint) :
    Keeps S R (refuse (α := α) command value complaint) (refuse command value complaint) :=
  Action.Follows.fail _

theorem keeps_drawing {f : C → C} {g : D → D}
    (hfg : ∀ {known c d}, R known c d → R known (f c) (g d)) :
    Keeps S R (Action.change (drawing f)) (Action.change (drawing g)) := by
  apply Action.Follows.change
  rintro m _ ⟨canvas, copies, unfinished, asked, related⟩
  exact ⟨g canvas, copies, unfinished, asked, hfg related⟩

theorem keeps_onCanvas {x : Action C CanvasError Unit} {y : Action D CanvasError Unit}
    (hxy : ∀ {known c d}, R known c d → ∀ d', y.Yields d () d' →
      ∃ c', x.Yields c () c' ∧ R known c' d') :
    Keeps S R (onCanvas x) (onCanvas y) := by
  rintro m _ ⟨canvas, copies, unfinished, asked, related⟩
  constructor
  · rintro ⟨⟩ n' hn
    obtain ⟨d', hd, rfl⟩ := Action.yields_within.mp hn
    obtain ⟨c', hc, h'⟩ := hxy related d' hd
    exact ⟨m.withCanvas c', Action.yields_within.mpr ⟨c', hc, rfl⟩, d', copies, unfinished, asked, h'⟩
  · intro e he
    obtain ⟨cause, -, rfl⟩ := Action.fails_within.mp he
    exact Or.inl ⟨cause, rfl⟩

theorem keeps_beforeDraw (hR : Canvas.Lockstep files R) :
    Keeps S R (onPages Pages.beforeDraw) (onPages Pages.beforeDraw) := by
  apply Action.Follows.of_yields (fun m ↦ m.pages.endsPage) (fun m ↦ m.pages.endsPage) opened opened
  · exact fun _ ↦ yields_onPages_beforeDraw.mpr ⟨rfl, rfl⟩
  · exact fun _ ↦ yields_onPages_beforeDraw.mpr ⟨rfl, rfl⟩
  · rintro m _ ⟨canvas, copies, unfinished, asked, related⟩
    refine ⟨rfl, (m.withCanvas canvas).pages.opened.canvas, copies, unfinished, asked, ?_⟩
    show R m.registry (if m.pages.endsPage then Canvas.showPage m.canvas else m.canvas)
      (if m.pages.endsPage then Canvas.showPage canvas else canvas)
    split
    · exact hR.showPage related
    · exact related

/-! ### Text -/

theorem keeps_face : Keeps S R face face := by
  apply Action.Follows.state_bind
  rintro m _ ⟨canvas, copies, -, -, -⟩
  exact Action.Follows.ofExcept _

theorem keeps_newPage : Keeps S R newPage newPage := by
  apply Action.Follows.of_yields (fun _ ↦ ()) (fun _ ↦ ()) atNextPage atNextPage
  · exact fun _ ↦ yields_newPage.mpr rfl
  · exact fun _ ↦ yields_newPage.mpr rfl
  · rintro m _ ⟨canvas, copies, unfinished, asked, related⟩
    exact ⟨rfl, canvas, copies, unfinished, asked, related⟩

theorem keeps_lineEnd : Keeps S R lineEnd lineEnd := by
  apply Action.Follows.state_bind
  rintro m _ ⟨canvas, copies, -, -, -⟩
  exact Action.Follows.ite keeps_change
    ((Action.Follows.note _ _).bind fun _ ↦ keeps_newPage)

theorem keeps_placeText (hR : Canvas.Lockstep files R) (text : String) (size : Float32) :
    Keeps S R (placeText text size) (placeText text size) := by
  refine keeps_face.bind fun face ↦ (keeps_beforeDraw hR).bind fun _ ↦
    Action.Follows.state_bind ?_
  rintro m _ ⟨canvas, copies, -, -, -⟩
  refine Action.Follows.bind (keeps_onCanvas fun related ↦ hR.drawText related _ _ _ _) fun _ ↦
    Action.Follows.state_bind ?_
  rintro after _ ⟨canvas, copies, -, -, related⟩
  rw [hR.textWidth related]
  exact Action.Follows.pure _

theorem keeps_drawText (hR : Canvas.Lockstep files R) (text : String) :
    Keeps S R (drawText text) (drawText text) := by
  rw [drawText_eq, drawText_eq]
  refine Action.Follows.ite (Action.Follows.pure 0) (Action.Follows.state_bind ?_)
  rintro m _ ⟨canvas, copies, -, -, -⟩
  exact Action.Follows.ite (keeps_placeText hR text _)
    ((Action.Follows.note _ _).bind fun _ ↦ keeps_newPage.bind fun _ ↦ keeps_placeText hR text _)

theorem keeps_output (hR : Canvas.Lockstep files R) (text : String) :
    Keeps S R (output text) (output text) := by
  refine Action.Follows.ite (Action.Follows.pure ()) ?_
  cases withoutLineFeed? text with
  | some body => exact (keeps_drawText hR body).bind fun _ ↦ keeps_lineEnd
  | none =>
    exact (keeps_drawText hR text).bind fun _ ↦
      keeps_change

/-! ### Shapes, pictures and families -/

theorem keeps_boxEnd (hR : Canvas.Lockstep files R) (name : String) (corners : Corners) :
    Keeps S R (boxEnd name corners) (boxEnd name corners) := by
  apply Action.Follows.state_bind
  rintro m _ ⟨canvas, copies, -, -, -⟩
  simp only [boxes_withCopies, boxes_withCanvas]
  cases m.boxes.lookup name with
  | none => exact Action.Follows.note _ _
  | some start =>
    refine (keeps_beforeDraw hR).bind fun _ ↦ Action.Follows.state_bind ?_
    rintro after _ ⟨canvas, copies, -, -, -⟩
    refine (Action.Follows.note _ _).bind fun _ ↦ ?_
    cases corners with
    | square => exact keeps_drawing fun related ↦ hR.drawRect related _ _
    | rounded => exact keeps_drawing fun related ↦ hR.drawRoundedRect related _ _ _

theorem keeps_lineStop (hR : Canvas.Lockstep files R) (name : String) :
    Keeps S R (lineStop name) (lineStop name) := by
  apply Action.Follows.state_bind
  rintro m _ ⟨canvas, copies, -, -, -⟩
  simp only [lines_withCopies, lines_withCanvas]
  cases m.lines.lookup name with
  | none => exact Action.Follows.note _ _
  | some start =>
    refine (keeps_beforeDraw hR).bind fun _ ↦ Action.Follows.state_bind ?_
    rintro after _ ⟨canvas, copies, -, -, -⟩
    exact keeps_drawing fun related ↦ hR.drawLine related _ _

variable {resources : Resources}

theorem keeps_picture (hR : Canvas.Lockstep resources.files R) (name : String) (args : Arguments) :
    Keeps S R (picture resources name args) (picture resources name args) := by
  refine (keeps_argument _).bind fun file ↦ (Action.Follows.lift _).bind fun path ↦
    (keeps_argument _).bind fun width ↦ (keeps_argument _).bind fun height ↦
    (keeps_beforeDraw hR).bind fun _ ↦ Action.Follows.state_bind ?_
  rintro m _ ⟨canvas, copies, -, -, -⟩
  exact keeps_onCanvas fun related ↦ hR.drawImage related _ _ _ _

theorem keeps_selectFamily (hR : Canvas.Lockstep resources.files R) (family : String) :
    Keeps S R (selectFamily resources family) (selectFamily resources family) := by
  rintro m _ ⟨canvas, copies, unfinished, asked, related⟩
  constructor
  · rintro ⟨⟩ n' hn
    rcases yields_selectFamily.mp hn with ⟨hknown, rfl⟩ | ⟨hnew, path, d', hlocate, hd, rfl⟩
    · exact ⟨_, yields_selectFamily.mpr (Or.inl ⟨hknown, rfl⟩), canvas, copies, unfinished, asked,
        related⟩
    · obtain ⟨c', hc, related'⟩ := hR.registerFont related hnew path d' hd
      exact ⟨_, yields_selectFamily.mpr (Or.inr ⟨hnew, path, c', hlocate, hc, rfl⟩), d', copies,
        unfinished, asked, related'⟩
  · intro e he
    obtain ⟨hnew, ⟨cause, hlocate, rfl⟩ | ⟨path, cause, -, -, rfl⟩⟩ := fails_selectFamily.mp he
    · exact Or.inr (fails_selectFamily.mpr ⟨hnew, Or.inl ⟨cause, hlocate, rfl⟩⟩)
    · exact Or.inl ⟨cause, rfl⟩

/-! ### Commands -/

theorem keeps_lineStep (name : String) (args : Arguments) :
    Keeps S R (lineStep name args) (lineStep name args) := by
  refine (keeps_argument _).bind fun count ↦ (keeps_argument _).bind fun size ↦
    Action.Follows.state_bind ?_
  rintro m _ ⟨canvas, copies, -, -, -⟩
  exact Action.Follows.pure _

theorem keeps_ite_refuse {p : Prop} [Decidable p] {command value : String} {complaint : Complaint}
    {x : Work C Unit} {y : Work D Unit} (hxy : Keeps S R x y) :
    Keeps S R (if p then refuse command value complaint >>= fun _ : Unit ↦ x else x)
      (if p then refuse command value complaint >>= fun _ : Unit ↦ y else y) :=
  Action.Follows.ite ((keeps_refuse _ _ _).bind fun _ ↦ hxy) hxy

theorem keeps_setSize (name : String) (size : Float32) :
    Keeps S R (setSize name size) (setSize name size) := keeps_ite_refuse keeps_change

theorem keeps_setLeftMargin (name : String) (args : Arguments) :
    Keeps S R (setLeftMargin name args) (setLeftMargin name args) :=
  Action.Follows.bind keeps_change fun _ ↦
    (keeps_argument _).bind fun _ ↦ keeps_change

theorem keeps_changeIf {α : Type} (x : Option α) {f : α → Machine C → Machine C}
    {g : α → Machine D → Machine D}
    (hfg : ∀ a, Keeps S R (Action.change (f a)) (Action.change (g a))) :
    Keeps S R (changeIf (x.map f)) (changeIf (x.map g)) := by
  cases x with
  | none => exact Action.Follows.pure ()
  | some a => exact hfg a

theorem keeps_apply_right (hR : Canvas.Lockstep files R) (name : String) (args : Arguments) :
    Keeps S R (apply resources name args .right) (apply resources name args .right) := by
  refine (keeps_argument _).bind fun columns ↦ keeps_face.bind fun face ↦
    Action.Follows.state_bind ?_
  rintro m _ ⟨canvas, copies, -, -, related⟩
  show Keeps S R
    (Action.change fun after ↦ after.setX (after.margins.left + Single.ofInt (max columns 0) *
      Canvas.textWidth m.canvas "_" face m.style.size))
    (Action.change fun after ↦ after.setX (after.margins.left + Single.ofInt (max columns 0) *
      Canvas.textWidth canvas "_" face m.style.size))
  rw [hR.textWidth related]
  exact keeps_change

theorem keeps_apply_of_moves (hR : Canvas.Lockstep files R) (name : String) (args : Arguments)
    {operation : Operation} (h : operation.moves = true) :
    Keeps S R (apply resources name args operation) (apply resources name args operation) := by
  cases operation with
  | printInit => exact keeps_change
  | up | down => exact (keeps_lineStep name args).bind fun step ↦ keeps_change
  | moveAbsolute =>
    rw [apply_moveAbsolute, apply_moveAbsolute]
    exact (keeps_argument _).bind fun x ↦
      Action.Follows.bind (keeps_changeIf x fun _ ↦ keeps_change) fun _ ↦
        (keeps_argument _).bind fun y ↦ keeps_changeIf y fun _ ↦ keeps_change
  | moveRelative =>
    exact (keeps_argument _).bind fun x ↦ Action.Follows.bind keeps_change fun _ ↦
      (keeps_argument _).bind fun y ↦ keeps_change
  | right => exact keeps_apply_right hR name args
  | _ => cases h

theorem keeps_apply_fontSize (name : String) (args : Arguments) (fixed : Option Float32) :
    Keeps S R (apply resources name args (.fontSize fixed))
      (apply resources name args (.fontSize fixed)) := by
  cases fixed with
  | some size => exact keeps_setSize name size
  | none => exact (keeps_argument _).bind fun size ↦ keeps_setSize name size

theorem keeps_apply_fillColor (hR : Canvas.Lockstep files R) (name : String) (args : Arguments) :
    Keeps S R (apply resources name args .fillColor) (apply resources name args .fillColor) :=
  (keeps_argument _).bind fun red ↦ (keeps_argument _).bind fun green ↦
    (keeps_argument _).bind fun blue ↦ keeps_drawing fun related ↦
      hR.setFillColor related red green blue

theorem keeps_apply_lineWidth (hR : Canvas.Lockstep files R) (name : String) (args : Arguments) :
    Keeps S R (apply resources name args .lineWidth) (apply resources name args .lineWidth) :=
  (keeps_argument _).bind fun width ↦
    keeps_ite_refuse (keeps_drawing fun related ↦ hR.setLineWidth related width)

theorem keeps_apply_copies [Std.Refl S] (name : String) (args : Arguments) :
    Keeps S R (apply resources name args .copies) (apply resources name args .copies) :=
  (keeps_argument _).bind fun _ ↦ keeps_ite_refuse (keeps_ite_refuse (keeps_withCopies _))

theorem keeps_apply_boxStart (name : String) (args : Arguments) :
    Keeps S R (apply resources name args .boxStart) (apply resources name args .boxStart) := by
  apply Action.Follows.state_bind
  rintro m _ ⟨canvas, copies, -, -, -⟩
  exact (Action.Follows.note _ _).bind fun _ ↦ keeps_change

theorem keeps_apply_popPosition (name : String) (args : Arguments) :
    Keeps S R (apply resources name args .popPosition) (apply resources name args .popPosition) := by
  apply Action.Follows.state_bind
  rintro m _ ⟨canvas, copies, -, -, -⟩
  simp only [cursor_withCopies, cursor_withCanvas]
  cases m.cursor.pop? with
  | some cursor => exact keeps_change
  | none => exact Action.Follows.fail _

theorem keeps_apply [Std.Refl S] (hR : Canvas.Lockstep resources.files R) (name : String)
    (args : Arguments) (operation : Operation) :
    Keeps S R (apply resources name args operation) (apply resources name args operation) := by
  cases operation with
  | printInit | up | down | moveAbsolute | moveRelative | right =>
    exact keeps_apply_of_moves hR name args rfl
  | bold | italic | lineStart | pushPosition => exact keeps_change
  | printEnd => exact Action.Follows.pure ()
  | output => exact keeps_output hR _
  | lineEnd => exact keeps_lineEnd
  | newPage => exact keeps_newPage
  | fontSize fixed => exact keeps_apply_fontSize name args fixed
  | fontName => exact (keeps_argument _).bind fun given ↦ keeps_selectFamily hR _
  | fillColor => exact keeps_apply_fillColor hR name args
  | lineWidth => exact keeps_apply_lineWidth hR name args
  | copies => exact keeps_apply_copies name args
  | boxStart => exact keeps_apply_boxStart name args
  | boxEnd corners => exact keeps_boxEnd hR _ corners
  | lineStop => exact keeps_lineStop hR _
  | picture => exact keeps_picture hR name args
  | leftMargin => exact keeps_setLeftMargin name args
  | popPosition => exact keeps_apply_popPosition name args

theorem keeps_execute [Std.Refl S] (hR : Canvas.Lockstep resources.files R) (command : Command) :
    Keeps S R (execute resources command) (execute resources command) := by
  cases command with
  | literal text => exact keeps_output hR text
  | newline => exact keeps_lineEnd
  | invoke name args =>
    simp only [execute]
    cases Operation.named? name with
    | some operation => exact keeps_apply hR name args operation
    | none => exact Action.Follows.fail _

/-! ### Runs -/

theorem keeps_executeAt [Std.Refl S] (hR : Canvas.Lockstep resources.files R) (index : Nat)
    (command : Command) :
    Keeps S R (executeAt resources index command) (executeAt resources index command) := by
  intro m n h
  obtain ⟨hok, herror⟩ := keeps_execute hR command h
  constructor
  · intro u n' hn
    obtain ⟨m', hm, h'⟩ := hok u n' (yields_executeAt.mp hn)
    exact ⟨m', yields_executeAt.mpr hm, h'⟩
  · intro e he
    obtain ⟨cause, hcause, rfl⟩ := fails_executeAt.mp he
    exact (herror cause hcause).imp id fun hm ↦ fails_executeAt.mpr ⟨cause, hm, rfl⟩

theorem keeps_runFrom [Std.Refl S] (hR : Canvas.Lockstep resources.files R) (commands : List Command) :
    ∀ index, Keeps S R (runFrom resources index commands) (runFrom resources index commands) := by
  induction commands with
  | nil => exact fun index ↦ Action.Follows.pure ()
  | cons command rest ih =>
    exact fun index ↦ (keeps_executeAt hR index command).bind fun _ ↦ ih (index + 1)

/-- **Runs keep step.** From machines that are related, a run on the second canvas is repeated on
the first, command by command. -/
theorem keeps_run [Std.Refl S] (hR : Canvas.Lockstep resources.files R) (commands : List Command) :
    Keeps S R (run resources commands) (run resources commands) := keeps_runFrom hR commands 0

theorem related_start [Std.Refl S] (hR : Canvas.Lockstep resources.files R) {c : C} {d : D}
    (h : R .builtin c d) (setup : PageSetup) :
    (∀ n, (start resources d setup).result = .ok n →
      ∃ m, (start resources c setup).result = .ok m ∧ Related S R m n) ∧
    ∀ e, (start resources d setup).result = .error e →
      e.IsOfCanvas ∨ (start resources c setup).result = .error e := by
  have hblank : Related S R (blank c setup) (blank d setup) := ⟨d, 1, rfl, refl_of S 1, h⟩
  obtain ⟨hok, herror⟩ := keeps_selectFamily hR setup.family hblank
  constructor
  · intro n hn
    obtain ⟨hsize, hselect⟩ := result_start_eq_ok.mp hn
    obtain ⟨m, hm, h'⟩ := hok () n hselect
    exact ⟨m, result_start_eq_ok.mpr ⟨hsize, hm⟩, h'⟩
  · intro e he
    rcases result_start_eq_error.mp he with hsize | ⟨hsize, hselect⟩
    · exact Or.inr (result_start_eq_error.mpr (Or.inl hsize))
    · exact (herror e hselect).imp id fun hm ↦ result_start_eq_error.mpr (Or.inr ⟨hsize, hm⟩)

end Parts

end Machine

end ReportPress
