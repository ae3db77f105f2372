import Mathlib.Data.List.Induction
import Mathlib.Logic.Unique
import ReportPress.Proofs.Font.Registry
import ReportPress.Proofs.Page.Break
import ReportPress.Render.Machine

/-!
# What the parts of a machine come to

The parts that commands are made of, each with the machine that it leaves behind when it succeeds.
Going to the next page or line cannot fail, so these are functions on machines; text, boxes, lines,
pictures and families ask something of the canvas, and succeed when the canvas does.
-/

/-! ## Entries by name -/

namespace ReportPress

theorem lookup_filter_of_ne {α : Type} {name other : String} (h : other ≠ name)
    (entries : List (String × α)) :
    (entries.filter (·.1 ≠ name)).lookup other = entries.lookup other := by
  induction entries with
  | nil => rfl
  | cons entry rest ih =>
    by_cases hname : entry.1 = name
    · rw [List.filter_cons_of_neg (by simpa using hname), ih, List.lookup_cons,
        beq_false_of_ne (hname ▸ h)]
    · rw [List.filter_cons_of_pos (by simpa using hname), List.lookup_cons, List.lookup_cons, ih]

theorem Anchors.lookup_put (anchors : Anchors) (name other : String) (point : Point) :
    (anchors.put name point).lookup other
      = if other = name then some point else anchors.lookup other := by
  rw [put, List.lookup_cons]
  by_cases h : other = name
  · simp [h]
  · rw [beq_false_of_ne h, if_neg h]
    exact lookup_filter_of_ne h _

theorem lookup_eq_some_iff_mem {α : Type} {entries : List (String × α)}
    (hnodup : (entries.map Prod.fst).Nodup) {name : String} {a : α} :
    entries.lookup name = some a ↔ (name, a) ∈ entries := by
  rw [List.lookup_eq_some_iff]
  constructor
  · rintro ⟨front, back, rfl, -⟩
    exact List.mem_append_right front List.mem_cons_self
  · intro hmem
    obtain ⟨front, back, rfl⟩ := List.mem_iff_append.mp hmem
    refine ⟨front, back, rfl, fun entry hentry ↦ ?_⟩
    rw [List.map_append, List.nodup_append] at hnodup
    exact bne_iff_ne.mpr (hnodup.2.2 _ (List.mem_map_of_mem hentry) _ List.mem_cons_self).symm

theorem Operation.named?_eq_some_iff {name : String} {operation : Operation} :
    named? name = some operation ↔ (name, operation) ∈ vocabulary :=
  lookup_eq_some_iff_mem (by decide)

/-- Whether all that an operation does is to move the cursor. -/
def Operation.moves : Operation → Bool
  | .printInit | .up | .down | .moveAbsolute | .moveRelative | .right => true
  | _ => false

end ReportPress

namespace ReportPress.Machine

open Number

variable {C D Output : Type} [Canvas C Output] {m m' : Machine C}

def withCanvas (m : Machine C) (canvas : D) : Machine D :=
  { m with pages := { m.pages with canvas } }

def withCopies (m : Machine C) (copies : UInt32) : Machine C := { m with copies }

def opened (m : Machine C) : Machine C := { m with pages := m.pages.opened }

@[simp] theorem canvas_withCanvas (m : Machine C) (canvas : D) :
    (m.withCanvas canvas).canvas = canvas := rfl

@[simp] theorem boxes_withCanvas (m : Machine C) (canvas : D) :
    (m.withCanvas canvas).boxes = m.boxes := rfl

@[simp] theorem lines_withCanvas (m : Machine C) (canvas : D) :
    (m.withCanvas canvas).lines = m.lines := rfl

@[simp] theorem cursor_withCanvas (m : Machine C) (canvas : D) :
    (m.withCanvas canvas).cursor = m.cursor := rfl

@[simp] theorem boxes_withCopies (m : Machine C) (copies : UInt32) :
    (m.withCopies copies).boxes = m.boxes := rfl

@[simp] theorem lines_withCopies (m : Machine C) (copies : UInt32) :
    (m.withCopies copies).lines = m.lines := rfl

@[simp] theorem cursor_withCopies (m : Machine C) (copies : UInt32) :
    (m.withCopies copies).cursor = m.cursor := rfl

@[simp] theorem cursor_opened (m : Machine C) : m.opened.cursor = m.cursor := rfl

/-- The machine with a break asked for, on the first line. -/
def atNextPage (m : Machine C) : Machine C := { m with pages := m.pages.broken }.moveTo m.topLeft

@[simp] theorem registry_atNextPage (m : Machine C) : m.atNextPage.registry = m.registry := rfl

@[simp] theorem style_atNextPage (m : Machine C) : m.atNextPage.style = m.style := rfl

/-- The machine at the start of the next line, which is on the next page if it has to be. -/
def atNextLine (m : Machine C) : Machine C :=
  let next := m.cursor.point.y - m.style.size
  if lineFits next m.style.size m.margins.bottom then m.moveTo ⟨m.margins.left, next⟩
  else m.atNextPage

/-- The machine where there is room for a line of text, unless a page has none. -/
def withRoom (m : Machine C) : Machine C :=
  if lineFits m.cursor.point.y m.style.size m.margins.bottom then m else m.atNextPage

/-! ## Values -/

@[simp] theorem yields_argument {α : Type} {value : Except ArgumentError α} {a : α} :
    (argument value : Work C α).Yields m a m' ↔ value = .ok a ∧ m' = m := by
  cases value <;> simp [argument]

@[simp] theorem not_yields_refuse {α : Type} {command value : String} {complaint : Complaint}
    {a : α} : ¬(refuse command value complaint : Work C α).Yields m a m' :=
  Action.not_yields_fail

@[simp] theorem yields_face {name : String} :
    (face : Work C String).Yields m name m' ↔
      m.registry.resolve m.style.family m.style.bold m.style.italic = .ok name ∧ m' = m := by
  cases h : m.registry.resolve m.style.family m.style.bold m.style.italic <;>
    simp [face, and_assoc, h]

@[simp] theorem yields_lineStep {name : String} {args : Arguments} {step : Float32} :
    (lineStep name args : Work C Float32).Yields m step m' ↔
      ∃ count size, args.integer name 0 "lines" = .ok count ∧
        args.number? name 1 "fsize" = .ok size ∧
        step = Single.ofInt count * size.getD m.style.size ∧ m' = m := by
  simp [lineStep, and_assoc, and_comm]

/-! ## Lines and pages -/

@[simp] theorem yields_onPages_beforeDraw {emitted : Bool} :
    (onPages Pages.beforeDraw : Work C Bool).Yields m emitted m' ↔
      emitted = m.pages.endsPage ∧ m' = m.opened := by
  simp [onPages, opened, and_assoc]

@[simp] theorem yields_newPage {u : Unit} :
    (newPage : Work C Unit).Yields m u m' ↔ m' = m.atNextPage := by
  simp [newPage, onPages, atNextPage, topLeft, moveTo]

@[simp] theorem yields_lineEnd {u : Unit} :
    (lineEnd : Work C Unit).Yields m u m' ↔ m' = m.atNextLine := by
  unfold lineEnd atNextLine
  by_cases h : lineFits (m.cursor.point.y - m.style.size) m.style.size m.margins.bottom = true
  · simp [and_assoc, h]
  · simp [and_assoc, h]

/-! ## Text -/

@[simp] theorem yields_onCanvas {α : Type} {work : Action C CanvasError α} {a : α} :
    (onCanvas work : Work C α).Yields m a m' ↔
      ∃ canvas, work.Yields m.canvas a canvas ∧ m' = m.withCanvas canvas :=
  Action.yields_within

@[simp] theorem fails_onCanvas {α : Type} {work : Action C CanvasError α} {e : RenderError} :
    (onCanvas work : Work C α).Fails m e ↔ ∃ cause, work.Fails m.canvas cause ∧ e = .canvas cause :=
  Action.fails_within

/-- Drawing text at the cursor, where there is room for it. -/
def placeText (text : String) (size : Float32) : Work C Float32 := do
  let face ← face
  let _ ← onPages Pages.beforeDraw
  let point := (← Action.state).cursor.point
  onCanvas (Canvas.drawText ⟨point.x, baseline point.y size⟩ text face size)
  return Canvas.textWidth (← Action.state).canvas text face size

theorem drawText_eq (text : String) :
    (drawText text : Work C Float32) = if text = "" then pure 0 else (do
      let m ← Action.state
      if lineFits m.cursor.point.y m.style.size m.margins.bottom then placeText text m.style.size
      else do
        Action.note (.noRoomForText m.style.size m.cursor.point.y)
        newPage
        placeText text m.style.size) := rfl

theorem yields_placeText {text : String} {size width : Float32} :
    (placeText text size : Work C Float32).Yields m width m' ↔
      ∃ face canvas, m.registry.resolve m.style.family m.style.bold m.style.italic = .ok face ∧
        (Canvas.drawText ⟨m.cursor.point.x, baseline m.cursor.point.y size⟩ text face size).Yields
          m.opened.canvas () canvas ∧
        m' = m.opened.withCanvas canvas ∧ width = Canvas.textWidth canvas text face size := by
  simp [placeText, and_assoc, Unique.exists_iff]

theorem yields_drawText {text : String} {width : Float32} (h : text ≠ "") :
    (drawText text : Work C Float32).Yields m width m' ↔
      ∃ face canvas, m.registry.resolve m.style.family m.style.bold m.style.italic = .ok face ∧
        (Canvas.drawText ⟨m.withRoom.cursor.point.x, baseline m.withRoom.cursor.point.y m.style.size⟩
          text face m.style.size).Yields m.withRoom.opened.canvas () canvas ∧
        m' = m.withRoom.opened.withCanvas canvas ∧
        width = Canvas.textWidth canvas text face m.style.size := by
  rw [drawText_eq, if_neg h, withRoom]
  split
  · simp [yields_placeText, and_assoc, *]
  · simp [yields_placeText, and_assoc, *]

/-- Text that ends its line goes without its line feed; other text moves the cursor on. -/
theorem yields_output {text : String} {u : Unit} :
    (output text : Work C Unit).Yields m u m' ↔
      (text = "" ∧ m' = m) ∨
      (∃ body width drawn, withoutLineFeed? text = some body ∧
        (drawText body : Work C Float32).Yields m width drawn ∧ m' = drawn.atNextLine) ∨
      (text ≠ "" ∧ withoutLineFeed? text = none ∧ ∃ width drawn,
        (drawText text : Work C Float32).Yields m width drawn ∧
        m' = drawn.setX (drawn.cursor.point.x + width)) := by
  by_cases hempty : text = ""
  · simp [output, hempty, withoutLineFeed?]
  · cases h : withoutLineFeed? text <;> simp [output, hempty, h]

/-! ## Shapes, pictures and families -/

theorem yields_boxEnd {name : String} {corners : Corners} {u : Unit} :
    (boxEnd name corners : Work C Unit).Yields m u m' ↔
      (m.boxes.lookup name = none ∧ m' = m) ∨
      ∃ start, m.boxes.lookup name = some start ∧
        m' = m.opened.drawing (match corners with
          | .square => Canvas.drawRect start m.cursor.point
          | .rounded => Canvas.drawRoundedRect start m.cursor.point cornerRadius) := by
  cases h : m.boxes.lookup name <;> cases corners <;> simp [boxEnd, and_assoc, h]

theorem yields_lineStop {name : String} {u : Unit} :
    (lineStop name : Work C Unit).Yields m u m' ↔
      (m.lines.lookup name = none ∧ m' = m) ∨
      ∃ start, m.lines.lookup name = some start ∧
        m' = m.opened.drawing (Canvas.drawLine start m.cursor.point) := by
  cases h : m.lines.lookup name <;> simp [lineStop, and_assoc, h]

theorem yields_picture {resources : Resources} {name : String} {args : Arguments} {u : Unit} :
    (picture resources name args : Work C Unit).Yields m u m' ↔
      ∃ file path width height canvas, args.text name 0 "fname" = .ok file ∧
        (resources.locate file).result = .ok path ∧ args.number? name 1 "imgwidth" = .ok width ∧
        args.number? name 2 "imgheight" = .ok height ∧
        (Canvas.drawImage resources.files path
          ⟨m.cursor.point.x, m.cursor.point.y - height.getD 0⟩ width height).Yields
            m.opened.canvas u canvas ∧
        m' = m.opened.withCanvas canvas := by
  simp [picture, and_assoc]

def inFamily (m : Machine C) (family : String) : Machine C :=
  { m with style := { m.style with family } }

def withRegistry (m : Machine C) (registry : FontRegistry) : Machine C := { m with registry }

@[simp] theorem canvas_withRegistry (m : Machine C) (registry : FontRegistry) :
    (m.withRegistry registry).canvas = m.canvas := rfl

@[simp] theorem registry_withRegistry (m : Machine C) (registry : FontRegistry) :
    (m.withRegistry registry).registry = registry := rfl

theorem selectFamily_eq (resources : Resources) (family : String) :
    (selectFamily resources family : Work C Unit) = (do
      let file ← Action.within registry (fun registry m ↦ m.withRegistry registry) .notFound
        (FontRegistry.ensure resources family)
      match file with
      | some path =>
        let m ← Action.state
        let face ← Action.ofExcept ((m.registry.resolve family false false).mapError .unknownFamily)
        onCanvas (Canvas.registerFont resources.files face path)
        Action.change (inFamily · family)
      | none => Action.change (inFamily · family)) := by
  unfold selectFamily
  congr 1
  funext file
  cases file <;> rfl

/-- A family that is known is only selected; for a new one the canvas reads a face first. -/
theorem yields_selectFamily {resources : Resources} {family : String} {u : Unit} :
    (selectFamily resources family : Work C Unit).Yields m u m' ↔
      (m.registry.isKnown family = true ∧ m' = m.inFamily family) ∨
      (m.registry.isKnown family = false ∧ ∃ path canvas,
        (resources.locate family).result = .ok path ∧
        (Canvas.registerFont resources.files (FontRegistry.faceName family) path).Yields
          m.canvas () canvas ∧
        m' = ((m.withRegistry (m.registry.add family (FontRegistry.faceName family))).withCanvas
          canvas).inFamily family) := by
  rw [selectFamily_eq]
  by_cases hknown : m.registry.isKnown family = true
  · simp [FontRegistry.yields_ensure, and_assoc, hknown, withRegistry]
  · rw [Bool.not_eq_true] at hknown
    have hresolve := FontRegistry.resolve_add_self hknown (FontRegistry.faceName family) false false
    simp [FontRegistry.yields_ensure, and_assoc, hknown, hresolve, Unique.exists_iff]

theorem fails_selectFamily {resources : Resources} {family : String} {e : RenderError} :
    (selectFamily resources family : Work C Unit).Fails m e ↔
      m.registry.isKnown family = false ∧
      ((∃ cause, (resources.locate family).result = .error cause ∧ e = .notFound cause) ∨
        ∃ path cause, (resources.locate family).result = .ok path ∧
          (Canvas.registerFont resources.files (FontRegistry.faceName family) path).Fails
            m.canvas cause ∧ e = .canvas cause) := by
  rw [selectFamily_eq]
  by_cases hknown : m.registry.isKnown family = true
  · simp [FontRegistry.yields_ensure, FontRegistry.fails_ensure, and_assoc, hknown]
  · rw [Bool.not_eq_true] at hknown
    have hresolve := FontRegistry.resolve_add_self hknown (FontRegistry.faceName family) false false
    simp [FontRegistry.yields_ensure, FontRegistry.fails_ensure, and_assoc, hknown, hresolve]

/-! ## Moves by coordinates -/

/-- A change that is made if there is one. -/
def changeIf (f : Option (Machine C → Machine C)) : Work C Unit :=
  match f with
  | some f => Action.change f
  | none => pure ()

@[simp] theorem yields_changeIf {f : Option (Machine C → Machine C)} {u : Unit} :
    (changeIf f : Work C Unit).Yields m u m' ↔ m' = (f.map (· m)).getD m := by
  cases f <;> simp [changeIf]

/-- A coordinate that is not given stays as it is. -/
theorem apply_moveAbsolute (resources : Resources) (name : String) (args : Arguments) :
    (apply resources name args .moveAbsolute : Work C Unit) = (do
      let x ← argument (args.number? name 0 "x")
      changeIf (x.map fun x m ↦ m.setX (x * centimetre))
      let y ← argument (args.number? name 1 "y")
      changeIf (y.map fun y m ↦ m.setY (m.pageHeight - y * centimetre))) := by
  refine bind_congr fun x ↦ ?_
  cases x with
  | none => exact bind_congr fun y ↦ by cases y <;> rfl
  | some x => exact bind_congr fun _ ↦ bind_congr fun y ↦ by cases y <;> rfl

/-! ## Runs -/

@[simp] theorem yields_executeAt {resources : Resources} {index : Nat} {command : Command}
    {u : Unit} :
    (executeAt resources index command : Work C Unit).Yields m u m' ↔
      (execute resources command : Work C Unit).Yields m u m' := by
  simp only [executeAt, Action.Yields]
  rcases execute resources command m with ⟨⟨_ | _, journal⟩, after⟩ <;> simp

@[simp] theorem fails_executeAt {resources : Resources} {index : Nat} {command : Command}
    {e : RenderError} :
    (executeAt resources index command : Work C Unit).Fails m e ↔
      ∃ cause, (execute resources command : Work C Unit).Fails m cause ∧
        e = .atCommand index command.label cause := by
  simp only [executeAt, Action.Fails]
  rcases execute resources command m with ⟨⟨_ | _, journal⟩, after⟩ <;> simp [eq_comm]

theorem yields_runFrom_cons {resources : Resources} {index : Nat} {command : Command}
    {rest : List Command} :
    (runFrom resources index (command :: rest) : Work C Unit).Yields m () m' ↔
      ∃ next, (execute resources command : Work C Unit).Yields m () next ∧
        (runFrom resources (index + 1) rest : Work C Unit).Yields next () m' := by
  simp [runFrom, Unique.exists_iff]

/-- Whether a run ends well does not depend on where its commands are counted from. -/
theorem yields_runFrom {resources : Resources} {index : Nat} {commands : List Command} :
    (runFrom resources index commands : Work C Unit).Yields m () m' ↔
      (run resources commands : Work C Unit).Yields m () m' := by
  have hcount : ∀ (commands : List Command) (index other : Nat) (m : Machine C),
      (runFrom resources index commands : Work C Unit).Yields m () m' →
        (runFrom resources other commands : Work C Unit).Yields m () m' := by
    intro commands
    induction commands with
    | nil => exact fun _ _ _ h ↦ h
    | cons command rest ih =>
      intro index other m h
      obtain ⟨next, hexecute, hrest⟩ := yields_runFrom_cons.mp h
      exact yields_runFrom_cons.mpr ⟨next, hexecute, ih _ _ next hrest⟩
  exact ⟨hcount commands index 0 m, hcount commands 0 index m⟩

@[simp] theorem yields_run_nil {resources : Resources} :
    (run resources [] : Work C Unit).Yields m () m' ↔ m' = m := by
  simp [run, runFrom]

theorem yields_run_cons {resources : Resources} {command : Command} {rest : List Command} :
    (run resources (command :: rest) : Work C Unit).Yields m () m' ↔
      ∃ next, (execute resources command : Work C Unit).Yields m () next ∧
        (run resources rest : Work C Unit).Yields next () m' := by
  rw [run, yields_runFrom_cons]
  simp only [yields_runFrom]

theorem yields_run_append {resources : Resources} {front back : List Command} :
    (run resources (front ++ back) : Work C Unit).Yields m () m' ↔
      ∃ between, (run resources front : Work C Unit).Yields m () between ∧
        (run resources back : Work C Unit).Yields between () m' := by
  induction front generalizing m with
  | nil => simp
  | cons command rest ih =>
    rw [List.cons_append, yields_run_cons]
    simp only [ih, yields_run_cons]
    constructor
    · rintro ⟨next, hexecute, between, hrest, hback⟩
      exact ⟨between, ⟨next, hexecute, hrest⟩, hback⟩
    · rintro ⟨between, ⟨next, hexecute, hrest⟩, hback⟩
      exact ⟨next, hexecute, between, hrest, hback⟩

theorem run_induction {resources : Resources} {P : List Command → Machine C → Prop}
    {commands : List Command}
    (hstep : ∀ done command m m', P done m →
      (execute resources command : Work C Unit).Yields m () m' → P (done ++ [command]) m')
    (hinit : P [] m) (h : (run resources commands : Work C Unit).Yields m () m') :
    P commands m' := by
  induction commands using List.reverseRecOn generalizing m' with
  | nil =>
    obtain rfl := yields_run_nil.mp h
    exact hinit
  | append_singleton done command ih =>
    obtain ⟨next, hdone, hlast⟩ := yields_run_append.mp h
    obtain ⟨_, hexecute, hnone⟩ := yields_run_cons.mp hlast
    obtain rfl := yields_run_nil.mp hnone
    exact hstep done command next _ (ih hdone) hexecute

theorem result_start_eq_ok {resources : Resources} {canvas : C} {setup : PageSetup} :
    (start resources canvas setup).result = .ok m ↔
      ¬setup.size ≤ 0 ∧
        (selectFamily resources setup.family : Work C Unit).Yields (blank canvas setup) () m := by
  unfold start Action.Yields
  split
  · simp [Traced.fail, *]
  · rcases selectFamily resources setup.family (blank canvas setup) with ⟨⟨_ | _, journal⟩, after⟩ <;>
      simp [Except.map, *]

theorem result_start_eq_error {resources : Resources} {canvas : C} {setup : PageSetup}
    {e : RenderError} :
    (start resources canvas setup).result = .error e ↔
      (setup.size ≤ 0 ∧ e = .argument (.invalid "setup" (Single.text setup.size) .fontSize)) ∨
      (¬setup.size ≤ 0 ∧
        (selectFamily resources setup.family : Work C Unit).Fails (blank canvas setup) e) := by
  unfold start Action.Fails
  split
  · simp [Traced.fail, eq_comm, *]
  · rcases selectFamily resources setup.family (blank canvas setup) with ⟨⟨_ | _, journal⟩, after⟩ <;>
      simp [Except.map, *]

end ReportPress.Machine
