import ReportPress.Proofs.Canvas.Recorder
import ReportPress.Proofs.Render.Changes
import ReportPress.Proofs.Report.Recorded

/-!
# Commands that are left half done

A command that fails should change nothing, and on a recorder most commands do not: a recorder takes
every text and every picture, the current family always has a face, and arguments are read before
they are used. Four tags are the exception. What they have done when they fail stays done
(`HalfDone`), and there are no others (`Reachable.unchanged_or_halfDone`).
-/

namespace ReportPress.Machine

open Number ReportPress.Action

variable {canvas : Recorder} {setup : PageSetup} {m m' : Machine Recorder} {resources : Resources}
  {command : Command}

/-- **What failing commands leave behind** on a recorder. -/
inductive HalfDone (resources : Resources) (m : Machine Recorder) : Command → Machine Recorder → Prop
  /-- The cursor has gone sideways to a place, the height of which is no number. -/
  | moveAbsolute {name args x cause} (hname : Operation.named? name = some .moveAbsolute)
      (hx : args.number? name 0 "x" = .ok (some x)) (hy : args.number? name 1 "y" = .error cause) :
      HalfDone resources m (.invoke name args) (m.setX (x * centimetre))
  /-- The cursor has gone sideways by a distance; how far it goes down is no number. -/
  | moveRelative {name args x cause} (hname : Operation.named? name = some .moveRelative)
      (hx : args.number name 0 "x" = .ok x) (hy : args.number name 1 "y" = .error cause) :
      HalfDone resources m (.invoke name args) (m.setX (m.cursor.point.x + x))
  /-- The left margin is remembered as the one to go back to; the new one is no number. -/
  | leftMargin {name args cause} (hname : Operation.named? name = some .leftMargin)
      (hmargin : args.number? name 0 "margin" = .error cause) :
      HalfDone resources m (.invoke name args) m.withMarginKept
  /-- A new family is on the registry; the file that was found for it cannot be read. -/
  | fontName {name args given path cause} (hname : Operation.named? name = some .fontName)
      (hgiven : args.text name 0 "name" = .ok given)
      (hnew : m.registry.isKnown (familyName given) = false)
      (hpath : (resources.locate (familyName given)).result = .ok path)
      (hread : resources.files.read path = .error cause) :
      HalfDone resources m (.invoke name args) (m.withFamily (familyName given))

theorem HalfDone.exists_breaks [Decoders] (h : HalfDone resources m command m') :
    ∃ e, (execute resources command).Breaks m e m' := by
  cases h with
  | @moveAbsolute name args x cause hname hx hy =>
    exact ⟨.argument cause, by simp [execute, hname, apply, hx, hy]⟩
  | @moveRelative name args x cause hname hx hy =>
    exact ⟨.argument cause, by simp [execute, hname, apply, hx, hy]⟩
  | @leftMargin name args cause hname hmargin =>
    exact ⟨.argument cause, by simp [execute, hname, apply, breaks_setLeftMargin, hmargin]⟩
  | @fontName name args given path cause hname hgiven hnew hpath hread =>
    have hselect : (selectFamily resources (familyName given)).Breaks m
        (.canvas (.unreadable cause)) (m.withFamily (familyName given)) :=
      breaks_selectFamily.mpr ⟨hnew, .inr ⟨path, _, m.canvas, hpath,
        Recorder.breaks_registerFont.mpr ⟨cause, hread, rfl, rfl⟩, rfl, rfl⟩⟩
    exact ⟨_, by simpa [execute, hname, apply, hgiven] using hselect⟩

/-- With a family that is known, a command on a recorder that fails changes nothing unless it is
left half done. -/
theorem Breakdown.eq_or_halfDone [Decoders] {e : RenderError} (h : Breakdown resources m command e m')
    (hfamily : FamilyKnown m) : m' = m ∨ HalfDone resources m command m' := by
  cases h with
  | refused he => exact .inl rfl
  | moveAbsolute hname hx hy => exact .inr (.moveAbsolute hname hx hy)
  | moveRelative hname hx hy => exact .inr (.moveRelative hname hx hy)
  | leftMargin hname hmargin => exact .inr (.leftMargin hname hmargin)
  | fontName hname hgiven hnew hpath hbreaks =>
    obtain ⟨cause, hread, -, rfl⟩ := Recorder.breaks_registerFont.mp hbreaks
    exact .inr (.fontName hname hgiven hnew hpath hread)
  | faceless hface => exact absurd hface hfamily.face?_ne_error
  | drawText hface hbreaks => exact absurd hbreaks not_breaks_change
  | drawImage hbreaks => exact absurd hbreaks not_breaks_change

/-- **A failing command changes nothing, apart from the four that are left half done.** In every
state that commands lead to, a command that fails leaves the whole machine as it was, or it is left
half done; and the commands that are left half done do fail. -/
theorem Reachable.unchanged_or_halfDone [Decoders] (h : Reachable canvas setup m) (resources : Resources)
    (command : Command) (m' : Machine Recorder) :
    (∀ e, (execute resources command).Breaks m e m' → m' = m ∨ HalfDone resources m command m') ∧
      (HalfDone resources m command m' → ∃ e, (execute resources command).Breaks m e m') :=
  ⟨fun _ hbreaks ↦ (breakdown_of_breaks hbreaks).eq_or_halfDone h.familyKnown,
    HalfDone.exists_breaks⟩

/-- A place one centimetre from the left, the height of which is no number. -/
def halfPlace : Command := .invoke "MA" ⟨["1", "abc"], .empty⟩

theorem halfDone_halfPlace (m : Machine Recorder) :
    HalfDone .empty m halfPlace (m.setX (1 * centimetre)) := by
  have hy : Arguments.number? ⟨["1", "abc"], .empty⟩ "MA" 1 "y"
      = .error (.invalid "MA" "abc" (.numeral .malformedDecimal)) := by decide +kernel
  exact .moveAbsolute rfl (by decide +kernel) hy

/-- At the beginning of a report the cursor is at the left margin, and not at one centimetre. -/
theorem exists_start_left : ∃ m : Machine Recorder,
    (start .empty (Recorder.new 595.28 841.89) {}).result = .ok m ∧
      m.cursor.point.x ≠ 1 * centimetre := by
  obtain ⟨m, hstart, hx⟩ := map_eq_ok.mp
    (show (start .empty (Recorder.new 595.28 841.89) {}).result.map
      (fun m ↦ decide (m.cursor.point.x = 1 * centimetre)) = .ok false by decide +kernel)
  exact ⟨m, hstart, of_decide_eq_false hx⟩

theorem Reachable.unchanged_or_halfDone_halfPlace : ∃ m m' : Machine Recorder,
    Reachable (Recorder.new 595.28 841.89) {} m ∧ ∃ e, (execute .empty halfPlace).Breaks m e m' := by
  obtain ⟨m, hstart, -⟩ := exists_start_left
  have hreachable : Reachable (Recorder.new 595.28 841.89) {} m := .start hstart
  exact ⟨m, _, hreachable,
    (hreachable.unchanged_or_halfDone .empty halfPlace _).2 (halfDone_halfPlace m)⟩

/-- A failing command does not always leave the cursor where it was. -/
theorem exists_cursor_changed : ∃ m m' : Machine Recorder,
    Reachable (Recorder.new 595.28 841.89) {} m ∧
      (∃ e, (execute .empty halfPlace).Breaks m e m') ∧ m'.cursor ≠ m.cursor := by
  obtain ⟨m, hstart, hx⟩ := exists_start_left
  refine ⟨m, _, .start hstart, (halfDone_halfPlace m).exists_breaks, fun hcursor ↦ hx ?_⟩
  exact (congrArg (·.point.x) hcursor).symm

end ReportPress.Machine
