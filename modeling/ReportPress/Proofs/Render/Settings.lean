import ReportPress.Proofs.Canvas.Recorder
import ReportPress.Proofs.Render.Lockstep

/-!
# Colours, line widths and copies

The commands that set a colour, a line width or a number of copies put a step on record that leaves
no mark, or no step at all. Apart from that they change nothing: they neither carry out a page break
nor move the cursor. So a machine that was given such commands stays in lockstep with one that was
not, as far as marks are concerned (`SameMarks`); the numbers of copies may differ.
-/

namespace ReportPress

/-! ## The same marks -/

def marks (pages : List (List DrawStep)) : List (List DrawStep) :=
  pages.map (List.filter DrawStep.isMark)

@[simp] theorem length_marks (pages : List (List DrawStep)) : (marks pages).length = pages.length :=
  List.length_map _

theorem marks_concat (pages : List (List DrawStep)) (page : List DrawStep) :
    marks (pages ++ [page]) = marks pages ++ [page.filter DrawStep.isMark] :=
  List.map_append

/-- Recorders that measure alike and have the same marks on record. -/
structure SameMarks (recorder other : Recorder) : Prop where
  metrics : recorder.metrics = other.metrics
  ended : marks recorder.log.pages = marks other.log.pages
  current : recorder.current.toList.filter DrawStep.isMark
    = other.current.toList.filter DrawStep.isMark

namespace SameMarks

variable {recorder other : Recorder}

theorem refl (recorder : Recorder) : SameMarks recorder recorder := ⟨rfl, rfl, rfl⟩

theorem record (h : SameMarks recorder other) (step : DrawStep) :
    SameMarks (recorder.record step) (other.record step) where
  metrics := h.metrics
  ended := h.ended
  current := by
    rw [Recorder.current_record, Recorder.current_record, List.filter_append, List.filter_append,
      h.current]

/-- A step without a mark on one of them. -/
theorem prepare (h : SameMarks recorder other) {step : DrawStep} (hstep : step.isMark = false) :
    SameMarks (recorder.record step) other where
  metrics := h.metrics
  ended := h.ended
  current := by
    rw [Recorder.current_record, List.filter_append, List.filter_singleton, hstep, ← h.current]
    exact List.append_nil _

theorem marks_pages (h : SameMarks recorder other) : marks recorder.pages = marks other.pages := by
  rw [Recorder.pages, Recorder.pages, marks_concat, marks_concat, h.ended, h.current]

theorem withMetrics (h : SameMarks recorder other) (metrics : FontMetrics) :
    SameMarks { recorder with metrics } { other with metrics } := ⟨rfl, h.ended, h.current⟩

variable [Decoders]

theorem showPage (h : SameMarks recorder other) :
    SameMarks (Canvas.showPage recorder) (Canvas.showPage other) where
  metrics := h.metrics
  ended := h.marks_pages
  current := rfl

theorem lockstep (files : FileSystem) : Canvas.Lockstep files fun _ ↦ SameMarks where
  textWidth {known recorder other} h text face size := by
    show recorder.metrics.width text face size = other.metrics.width text face size
    rw [h.metrics]
  setFillColor h red green blue := h.record _
  setLineWidth h width := h.record _
  drawRect h a b := h.record _
  drawRoundedRect h a b radius := h.record _
  drawLine h start stop := h.record _
  showPage h := h.showPage
  drawText h start text face size after hafter := by
    obtain rfl := Action.yields_change.mp hafter
    exact ⟨_, Action.yields_change.mpr rfl, h.record _⟩
  drawImage h path corner width height after hafter := by
    obtain rfl := Action.yields_change.mp hafter
    exact ⟨_, Action.yields_change.mpr rfl, h.record _⟩
  registerFont h hnew path after hafter := by
    obtain ⟨bytes, hread, rfl⟩ := Recorder.yields_registerFont.mp hafter
    refine ⟨_, Recorder.yields_registerFont.mpr ⟨bytes, hread, rfl⟩, ?_⟩
    rw [h.metrics]
    exact (h.withMetrics _).record _

end SameMarks

/-! ## Settings -/

/-- The commands that set a colour, a line width or a number of copies, with arguments that will
do. -/
inductive Command.IsSetting : Command → Prop
  /-- Three numbers are a colour. -/
  | fillColor {args red green blue} (hred : args.number "SETCOLOR" 0 "r" = .ok red)
      (hgreen : args.number "SETCOLOR" 1 "g" = .ok green)
      (hblue : args.number "SETCOLOR" 2 "b" = .ok blue) : IsSetting (.invoke "SETCOLOR" args)
  /-- A number that is not below zero is a line width. -/
  | lineWidth {name args width} (hname : name = "LW" ∨ name = "LINEWIDTH")
      (hwidth : args.number name 0 "width" = .ok width) (hsign : ¬width < 0) :
      IsSetting (.invoke name args)
  /-- An integer that 32 bits hold without a sign is a number of copies. -/
  | copies {args} {count : Int} (hcount : args.integer "COPIES" 0 "numcopies" = .ok count)
      (hsign : 0 ≤ count) (hsize : count < UInt32.size) : IsSetting (.invoke "COPIES" args)

namespace Machine

variable [Decoders] {m n : Machine Recorder}

/-- Any two numbers of copies. -/
def AnyCopies (_ _ : UInt32) : Prop := True

instance : Std.Refl AnyCopies := ⟨fun _ ↦ trivial⟩

/-- Machines on recorders with the same marks, whatever the copies. -/
abbrev MarkedAlike (m n : Machine Recorder) : Prop := Related AnyCopies (fun _ ↦ SameMarks) m n

/-- A setting succeeds, and leaves marks and machine as they are. -/
theorem exists_yields_setting (resources : Resources) {command : Command}
    (h : command.IsSetting) (hmarks : MarkedAlike m n) :
    ∃ m', (execute resources command).Yields m () m' ∧ MarkedAlike m' n := by
  obtain ⟨canvas, copies, unfinished, -, related⟩ := hmarks
  -- Each of them puts a step on record that is no mark, or changes the copies, which do not matter.
  cases h with
  | @fillColor args red green blue hred hgreen hblue =>
    refine ⟨m.drawing (Canvas.setFillColor red green blue), ?_,
      canvas, copies, unfinished, trivial, related.prepare rfl⟩
    simp [execute, show Operation.named? "SETCOLOR" = some .fillColor from rfl, apply, hred, hgreen,
      hblue]
  | @lineWidth name args width hname hwidth hsign =>
    refine ⟨m.drawing (Canvas.setLineWidth width), ?_,
      canvas, copies, unfinished, trivial, related.prepare rfl⟩
    have hoperation : Operation.named? name = some .lineWidth := by
      rcases hname with rfl | rfl <;> rfl
    simp [execute, hoperation, apply, hwidth, hsign]
  | @copies args count hcount hsign hsize =>
    refine ⟨m.withCopies (UInt32.ofNat count.toNat), ?_,
      canvas, copies, unfinished, trivial, related⟩
    have hbelow : ¬(4294967296 : Int) ≤ count := Int.not_le.mpr hsize
    simp [execute, show Operation.named? "COPIES" = some .copies from rfl, apply, hcount,
      Int.not_lt.mpr hsign, hbelow, withCopies]

theorem exists_yields_settings (resources : Resources) {settings : List Command}
    (h : ∀ command ∈ settings, command.IsSetting) (hmarks : MarkedAlike m n) :
    ∃ m', (run resources settings).Yields m () m' ∧ MarkedAlike m' n := by
  induction settings generalizing m with
  | nil => exact ⟨m, yields_run_nil.mpr rfl, hmarks⟩
  | cons command rest ih =>
    obtain ⟨hfirst, hrest⟩ := List.forall_mem_cons.mp h
    obtain ⟨next, hexecute, hnext⟩ := exists_yields_setting resources hfirst hmarks
    obtain ⟨m', hrun, hm'⟩ := ih hrest hnext
    exact ⟨m', yields_run_cons.mpr ⟨next, hexecute, hrun⟩, hm'⟩

end Machine

end ReportPress
