import ReportPress.File.Formats
import ReportPress.Proofs.Markup.Keywords
import ReportPress.Proofs.Render.Touched
import ReportPress.Proofs.Report.Recorded
import ReportPress.Proofs.Text.Quotes

/-!
# Where boxes and lines begin

A box or a line is drawn by the tag that ends it, from a place where the cursor was when another tag
began it. The two may lie far apart, with page breaks, moves, texts and other shapes between them.
What ties them together is a key: a shape begins at the latest start of its kind that has the key of
its end. Which key that is can be seen from the arguments (`Shape.IsKey`).

The machine remembers these places in two maps, one for boxes and one for lines, and never forgets
one. A map changes only where a shape of its kind begins, so it mirrors the commands that were
carried out: a start puts the cursor under its key (`yields_start`), and no other command changes
what is found there (`lookup_anchors_run`).
-/

namespace ReportPress

open Text

/-! ## Keys -/

/-- Whether arguments have a value under a name or else in the first place. An empty one is none. -/
def Arguments.Gives (args : Arguments) (name value : String) : Prop :=
  value ≠ "" ∧ ((name, value) ∈ args.keyword.entries ∨
    (∀ other, (name, other) ∉ args.keyword.entries) ∧ args.positional.head? = some value)

theorem Arguments.gives_iff {args : Arguments} {name value : String} :
    args.Gives name value ↔ args.value? 0 name = some value := by
  have hfound : ((name, value) ∈ args.keyword.entries ∨
      (∀ other, (name, other) ∉ args.keyword.entries) ∧ args.positional.head? = some value) ↔
      (args.keyword.get? name <|> args.positional[0]?) = some value := by
    simp only [Keywords.mem_entries_iff, ← Option.eq_none_iff_forall_ne_some, List.head?_eq_getElem?]
    cases args.keyword.get? name <;> simp
  rw [Gives, hfound, value?]
  generalize (args.keyword.get? name <|> args.positional[0]?) = found
  split
  · simp [eq_comm]
  · rename_i hne
    exact and_iff_right_of_imp fun hsome hvalue ↦ hne (hvalue ▸ hsome)

/-- The two kinds of shapes that are begun and ended. -/
inductive Shape where
  | box
  | line
  deriving DecidableEq

namespace Shape

def startTags : Shape → List String
  | .box => ["BOXS", "RBOXS"]
  | .line => ["LINES", "L1"]

def endTags : Shape → List String
  | .box => ["BOXE", "RBOXE"]
  | .line => ["LINEE", "L0"]

/-- The name under which the key of a shape is given. -/
def keyName : Shape → String
  | .box => "boxname"
  | .line => "linename"

/-- Whether a shape has a key by the arguments of its tag. -/
inductive IsKey (args : Arguments) (shape : Shape) : String → Prop
  /-- It is given one. A pair of quotes around it does not count. -/
  | given {value key : String} (hvalue : args.Gives shape.keyName value)
      (hkey : Unquotes value.toList key.toList) : IsKey args shape key
  /-- It is given none. -/
  | absent (hnone : ∀ value, ¬args.Gives shape.keyName value) : IsKey args shape "0"

/-- The key that the machine makes of the arguments of a tag. -/
def key (args : Arguments) (shape : Shape) : String := Machine.anchorName args shape.keyName

theorem isKey_iff {args : Arguments} {shape : Shape} {key : String} :
    shape.IsKey args key ↔ key = shape.key args := by
  have hunquotes {value key : String} :
      Unquotes value.toList key.toList ↔ key = unquoted value := by
    rw [unquotes_iff, ← String.toList_inj, unquoted, String.toList_ofList]
  rw [Shape.key, Machine.anchorName]
  constructor
  · rintro (⟨hvalue, hkey⟩ | hnone)
    · rw [Arguments.gives_iff.mp hvalue]
      exact hunquotes.mp hkey
    · simp only [Arguments.gives_iff, ← Option.eq_none_iff_forall_ne_some] at hnone
      rw [hnone]
      rfl
  · rintro rfl
    cases hvalue : args.value? 0 shape.keyName with
    | none => exact .absent fun value hgives ↦ by simp [Arguments.gives_iff.mp hgives] at hvalue
    | some value => exact .given (Arguments.gives_iff.mpr hvalue) (hunquotes.mpr rfl)

/-- What the tag that ends a shape draws between two places. -/
def mark (tag : String) (start stop : Point) : Shape → DrawStep
  | .box => if tag = "RBOXE" then .roundedRect start stop cornerRadius else .rect start stop
  | .line => .line start stop

def start : Shape → Operation
  | .box => .boxStart
  | .line => .lineStart

/-- The part of a machine that holds the places where shapes of a kind began. -/
def part : Shape → Machine.Part
  | .box => .boxes
  | .line => .lines

variable {shape : Shape} {tag : String}

theorem named?_eq_start_iff : Operation.named? tag = some shape.start ↔ tag ∈ shape.startTags := by
  rw [Operation.named?_eq_some_iff]
  cases shape <;> simp [Operation.vocabulary, start, startTags]

theorem part_mem_touches_iff {operation : Operation} :
    shape.part ∈ operation.touches ↔ operation = shape.start := by
  cases shape <;> cases operation <;> simp [part, start, Operation.touches]

end Shape

namespace Command

/-- Whether a command begins a shape of a kind under a key. -/
def Starts (shape : Shape) (key : String) : Command → Prop
  | .invoke tag args => tag ∈ shape.startTags ∧ shape.IsKey args key
  | _ => False

/-- The key of the shape of a kind that a command begins, if it begins one. -/
def started? (shape : Shape) : Command → Option String
  | .invoke tag args => if tag ∈ shape.startTags then some (shape.key args) else none
  | _ => none

/-- Whether a command begins or ends a shape of a kind. -/
def isAbout (shape : Shape) : Command → Bool
  | .invoke tag _ => tag ∈ shape.startTags ++ shape.endTags
  | _ => false

variable {shape : Shape} {command : Command}

theorem starts_iff {key : String} : command.Starts shape key ↔ command.started? shape = some key := by
  cases command with
  | literal | newline => simp [Starts, started?]
  | invoke tag args => simp [Starts, started?, Shape.isKey_iff, eq_comm]

theorem started?_eq_none_of_isAbout {other : Shape} (hother : other ≠ shape)
    (h : command.isAbout other = true) : command.started? shape = none := by
  cases command with
  | literal | newline => rfl
  | invoke tag args =>
    refine if_neg fun hstart ↦ ?_
    simp only [isAbout, decide_eq_true_eq] at h
    cases shape <;> cases other <;> simp_all [Shape.startTags, Shape.endTags]
    all_goals rcases hstart with rfl | rfl <;> simp at h

theorem part_not_mem_touches (h : command.started? shape = none) : shape.part ∉ command.touches := by
  cases command with
  | literal | newline => cases shape <;> simp [Shape.part, touches]
  | invoke tag args =>
    intro hpart
    rw [touches] at hpart
    cases hname : Operation.named? tag with
    | none => simp [hname] at hpart
    | some operation =>
      rw [hname, Option.map_some, Option.getD_some, Shape.part_mem_touches_iff] at hpart
      rw [started?, if_pos (Shape.named?_eq_start_iff.mp (hpart ▸ hname))] at h
      cases h

end Command

namespace Machine

open ReportPress.Action

/-! ## The map of a kind -/

section Map

variable {C Output : Type} [Canvas C Output] {m m' : Machine C} {shape : Shape} {key : String}
  {command : Command} {resources : Resources}

def anchors (m : Machine C) : Shape → Anchors
  | .box => m.boxes
  | .line => m.lines

def withStart (m : Machine C) (key : String) : Shape → Machine C
  | .box => { m with boxes := m.boxes.put key m.cursor.point }
  | .line => { m with lines := m.lines.put key m.cursor.point }

theorem anchors_withStart (m : Machine C) (key : String) (shape : Shape) :
    (m.withStart key shape).anchors shape = (m.anchors shape).put key m.cursor.point := by
  cases shape <;> rfl

theorem yields_start (h : command.started? shape = some key) :
    (execute resources command : Work C Unit).Yields m () m' ↔ m' = m.withStart key shape := by
  cases command with
  | literal | newline => cases h
  | invoke tag args =>
    rw [Command.started?, Option.ite_none_right_eq_some] at h
    obtain ⟨htag, hkey⟩ := h
    obtain rfl := Option.some.inj hkey
    simp only [execute, Shape.named?_eq_start_iff.mpr htag]
    cases shape <;> simp [Shape.start, apply, boxStart, withStart, Shape.key, Shape.keyName]

theorem anchors_execute (h : command.started? shape = none)
    (hexecute : (execute resources command : Work C Unit).Yields m () m') :
    m'.anchors shape = m.anchors shape := by
  have hsame := (touches_execute resources command).leads hexecute _
    (Command.part_not_mem_touches h)
  cases shape <;> exact hsame

/-- Commands that begin no shape of a kind and a key leave what is found under the key. -/
theorem lookup_anchors_run {commands : List Command}
    (hnone : ∀ command ∈ commands, command.started? shape ≠ some key)
    (h : (run resources commands : Work C Unit).Yields m () m') :
    (m'.anchors shape).lookup key = (m.anchors shape).lookup key := by
  induction commands generalizing m with
  | nil =>
    obtain rfl := yields_run_nil.mp h
    rfl
  | cons command rest ih =>
    obtain ⟨hfirst, hrest⟩ := List.forall_mem_cons.mp hnone
    obtain ⟨next, hexecute, hrun⟩ := yields_run_cons.mp h
    rw [ih hrest hrun]
    cases hstarted : command.started? shape with
    | none => rw [anchors_execute hstarted hexecute]
    | some other =>
      obtain rfl := (yields_start hstarted).mp hexecute
      have hother : key ≠ other := fun heq ↦ hfirst (heq ▸ hstarted)
      rw [anchors_withStart, Anchors.lookup_put, if_neg hother]

/-- What a shape begins with is the place of the latest start. -/
theorem lookup_anchors_of_latest {before between : List Command} {opening : Command}
    (hopening : opening.started? shape = some key)
    (hlatest : ∀ command ∈ between, command.started? shape ≠ some key)
    (h : (run resources (before ++ opening :: between) : Work C Unit).Yields m () m') :
    ∃ begun : Machine C, (run resources before : Work C Unit).Yields m () begun ∧
      (m'.anchors shape).lookup key = some begun.cursor.point := by
  obtain ⟨begun, hbefore, hrest⟩ := yields_run_append.mp h
  obtain ⟨next, hexecute, hbetween⟩ := yields_run_cons.mp hrest
  obtain rfl := (yields_start hopening).mp hexecute
  refine ⟨begun, hbefore, ?_⟩
  rw [lookup_anchors_run hlatest hbetween, anchors_withStart, Anchors.lookup_put, if_pos rfl]

theorem anchors_start {canvas : C} {setup : PageSetup}
    (h : (start resources canvas setup).result = .ok m) : m.anchors shape = [] := by
  have hfamily := (touches_selectFamily resources setup.family).leads (result_start_eq_ok.mp h).2
  cases shape with
  | box => exact hfamily .boxes (by decide)
  | line => exact hfamily .lines (by decide)

end Map

/-! ## Ends -/

section End

variable [Decoders] {m m' : Machine Recorder} {shape : Shape} {resources : Resources} {tag : String}
  {args : Arguments}

/-- The machine with one more mark on its pages, once a break that is pending has been carried out.
Everything else is as it was. -/
def withMark (m : Machine Recorder) (mark : DrawStep) : Machine Recorder :=
  { m with pages := {
      canvas := (if m.pages.breakPending && m.pages.isDrawn then Canvas.showPage m.pages.canvas
        else m.pages.canvas).record mark
      breakPending := false
      isDrawn := true
      isFinished := m.pages.isFinished } }

theorem yields_end (h : tag ∈ shape.endTags) :
    (execute resources (.invoke tag args)).Yields m () m' ↔
      ((m.anchors shape).lookup (shape.key args) = none ∧ m' = m) ∨
      ∃ start, (m.anchors shape).lookup (shape.key args) = some start ∧
        m' = m.withMark (shape.mark tag start m.cursor.point) := by
  cases shape with
  | box =>
    have hbox (corners : Corners) :
        (boxEnd (Shape.box.key args) corners : Work Recorder Unit).Yields m () m' ↔ _ := yields_boxEnd
    simp only [Shape.endTags, List.mem_cons, List.not_mem_nil, or_false] at h
    rcases h with rfl | rfl
    · exact hbox .square
    · exact hbox .rounded
  | line =>
    simp only [Shape.endTags, List.mem_cons, List.not_mem_nil, or_false] at h
    rcases h with rfl | rfl <;> exact yields_lineStop

variable {m₀ : Machine Recorder} {width height : Float32} {setup : PageSetup} {front : List Command}

/-- **A shape is drawn from its latest start.** In a report that began with `m₀` and has got to `m`,
the end of a shape draws one mark, from where the cursor was at the latest start with its key to
where it is now. Without such a start it changes nothing. Shapes of one kind do not matter to those
of the other. -/
theorem end_draws_from_latest_start
    (hstart : (start resources (Recorder.new width height) setup).result = .ok m₀)
    (hrun : (run resources front).Yields m₀ () m) (htag : tag ∈ shape.endTags) :
    ∃ key, (∀ other, shape.IsKey args other ↔ other = key) ∧
      (∀ before opening between, front = before ++ opening :: between →
        opening.Starts shape key → (∀ command ∈ between, ¬command.Starts shape key) →
        ∃ begun : Machine Recorder, (run resources before).Yields m₀ () begun ∧
          (execute resources (.invoke tag args)).Yields m ()
            (m.withMark (shape.mark tag begun.cursor.point m.cursor.point))) ∧
      ((∀ command ∈ front, ¬command.Starts shape key) →
        (execute resources (.invoke tag args)).Yields m () m) ∧
      ∀ other ≠ shape, ∀ command m', command.isAbout other = true →
        (execute resources command).Yields m () m' → m'.anchors shape = m.anchors shape := by
  refine ⟨shape.key args, fun _ ↦ Shape.isKey_iff, ?_, ?_, ?_⟩
  · rintro before opening between rfl hopening hlatest
    simp only [Command.starts_iff] at hopening hlatest
    obtain ⟨begun, hbefore, hfound⟩ := lookup_anchors_of_latest hopening hlatest hrun
    exact ⟨begun, hbefore, (yields_end htag).mpr (.inr ⟨_, hfound, rfl⟩)⟩
  · intro hnone
    simp only [Command.starts_iff] at hnone
    have hfound := lookup_anchors_run hnone hrun
    rw [anchors_start hstart] at hfound
    exact (yields_end htag).mpr (.inl ⟨hfound, rfl⟩)
  · intro other hother command m' habout hexecute
    exact anchors_execute (Command.started?_eq_none_of_isAbout hother habout) hexecute

end End

/-- Three boxes and a line. The first box has its key in quotes, the second has none. -/
def threeBoxes : List Command :=
  [.literal "a", .invoke "BOXS" ⟨["'x'"], .empty⟩, .invoke "MR" ⟨["5", "7"], .empty⟩,
    .invoke "RBOXS" .none, .literal "b", .invoke "BOXS" ⟨[], .ofList [("boxname", "y")]⟩,
    .invoke "L1" ⟨["x"], .empty⟩, .invoke "NEWPAGE" .none]

/-- Each box is drawn from its own start, and there is none from a start that never was. The line
under the key of the first box and the page break do not matter. -/
theorem end_draws_from_latest_start_boxes : ∃ m₀ m first second third : Machine Recorder,
    (start .empty (Recorder.new 595.28 841.89) {}).result = .ok m₀ ∧
      (run .empty threeBoxes).Yields m₀ () m ∧
      (run .empty (threeBoxes.take 1)).Yields m₀ () first ∧
      (run .empty (threeBoxes.take 3)).Yields m₀ () second ∧
      (run .empty (threeBoxes.take 5)).Yields m₀ () third ∧
      [first.cursor.point, second.cursor.point, third.cursor.point].Nodup ∧
      (execute .empty (.invoke "RBOXE" ⟨[], .ofList [("boxname", "\x22x\x22")]⟩)).Yields m ()
        (m.withMark (.roundedRect first.cursor.point m.cursor.point cornerRadius)) ∧
      (execute .empty (.invoke "BOXE" ⟨["0"], .empty⟩)).Yields m ()
        (m.withMark (.rect second.cursor.point m.cursor.point)) ∧
      (execute .empty (.invoke "BOXE" ⟨["y"], .empty⟩)).Yields m ()
        (m.withMark (.rect third.cursor.point m.cursor.point)) ∧
      (execute .empty (.invoke "BOXE" ⟨["z"], .empty⟩)).Yields m () m := by
  have hcompute : (start .empty (Recorder.new 595.28 841.89) {}).result.map (fun m₀ ↦ decide
      ((run .empty threeBoxes m₀).1.result = .ok () ∧
        ([1, 3, 5].map fun n ↦ (run .empty (threeBoxes.take n) m₀).2.cursor.point).Nodup))
      = .ok true := by
    decide +kernel
  obtain ⟨m₀, hstart, hfacts⟩ := map_eq_ok.mp hcompute
  obtain ⟨hresult, hdistinct⟩ := of_decide_eq_true hfacts
  let m : Machine Recorder := (run .empty threeBoxes m₀).2
  have hrun : (run .empty threeBoxes).Yields m₀ () m := ⟨hresult, rfl⟩
  -- A box that starts behind the first `n` commands and not again is drawn from there.
  have hbox (tag : String) (args : Arguments) (htag : tag ∈ Shape.box.endTags) {key : String}
      (hkey : Shape.box.key args = key) (n : ℕ) {opening : Command} {between : List Command}
      (hfront : threeBoxes = threeBoxes.take n ++ opening :: between)
      (hopening : opening.started? .box = some key)
      (hlatest : ∀ command ∈ between, command.started? .box ≠ some key) :
      ∃ begun : Machine Recorder, (run .empty (threeBoxes.take n)).Yields m₀ () begun ∧
        (execute .empty (.invoke tag args)).Yields m ()
          (m.withMark (Shape.box.mark tag begun.cursor.point m.cursor.point)) := by
    obtain ⟨_, hunique, hdraws, -⟩ := end_draws_from_latest_start hstart hrun htag
    obtain rfl := (hunique key).mp (Shape.isKey_iff.mpr hkey.symm)
    simp only [Command.starts_iff] at hdraws
    exact hdraws _ _ _ hfront hopening hlatest
  obtain ⟨first, hfirst, hx⟩ := hbox "RBOXE" ⟨[], .ofList [("boxname", "\x22x\x22")]⟩ (by decide)
    (show _ = "x" by decide +kernel) 1 rfl (by decide +kernel) (by decide +kernel)
  obtain ⟨second, hsecond, h0⟩ := hbox "BOXE" ⟨["0"], .empty⟩ (by decide)
    (show _ = "0" by decide +kernel) 3 rfl (by decide +kernel) (by decide +kernel)
  obtain ⟨third, hthird, hy⟩ := hbox "BOXE" ⟨["y"], .empty⟩ (by decide)
    (show _ = "y" by decide +kernel) 5 rfl (by decide +kernel) (by decide +kernel)
  obtain ⟨_, hunique, -, hnothing, -⟩ := @end_draws_from_latest_start _ _ .box .empty "BOXE"
    ⟨["z"], .empty⟩ _ _ _ _ _ hstart hrun (by decide)
  refine ⟨m₀, m, first, second, third, hstart, hrun, hfirst, hsecond, hthird, ?_, hx, h0, hy, ?_⟩
  · rw [← hfirst.2, ← hsecond.2, ← hthird.2]
    exact hdistinct
  · obtain rfl := (hunique "z").mp (Shape.isKey_iff.mpr (by decide +kernel))
    simp only [Command.starts_iff] at hnothing
    exact hnothing (by decide +kernel)

end Machine

end ReportPress
