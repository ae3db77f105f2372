import ReportPress.Proofs.Render.Changes
import ReportPress.Proofs.Render.Given
import ReportPress.Proofs.Report.Recorded

/-!
# The left margin

The margin that lines begin at is that of the last tag to set it, in centimetres, or that of the
page setup if it was never set or was set back. The machine does not keep the setup: the first tag
that sets the margin remembers it, before it is clear that the tag can be carried out. What makes
this right is that the remembered margin, or the margin itself as long as none is remembered, is
that of the setup in every state (`MarginKnown`), whatever was set, set back or failed before.

Every way to begin a line goes to the margin that is current: line ends, moves by lines, new pages,
and page breaks that nobody asked for.
-/

namespace ReportPress

open Number ReportPress.Action

/-! ## Setting the margin -/

/-- What a command that sets the left margin sets it to: a length, or none to set it back. -/
def Command.leftMargin? : Command → Option (Option Float32) :=
  ofTag fun name args ↦
    if name = "LMARGIN" then (args.number? name 0 "margin").toOption else none

/-- The left margin behind commands that succeeded: as it was set last. -/
def leftMarginAfter (setup : PageSetup) (done : List Command) : Float32 :=
  match (done.filterMap Command.leftMargin?).getLastD none with
  | some length => length * centimetre
  | none => setup.leftMargin

theorem Operation.named?_eq_some_leftMargin {name : String} :
    named? name = some .leftMargin ↔ name = "LMARGIN" := by
  rw [named?_eq_some_iff]
  simp [vocabulary]

theorem Command.leftMargin?_invoke_eq_some_iff {name : String} {args : Arguments}
    {given : Option Float32} :
    leftMargin? (.invoke name args) = some given ↔
      Operation.named? name = some .leftMargin ∧ args.number? name 0 "margin" = .ok given := by
  rw [Operation.named?_eq_some_leftMargin]
  by_cases h : name = "LMARGIN"
  · subst h
    cases hgiven : args.number? "LMARGIN" 0 "margin" <;>
      simp [leftMargin?, ofTag, hgiven, Except.toOption]
  · simp [leftMargin?, ofTag, h]

theorem leftMarginAfter_concat (setup : PageSetup) (done : List Command) (command : Command) :
    leftMarginAfter setup (done ++ [command]) =
      match command.leftMargin? with
      | some (some length) => length * centimetre
      | some none => setup.leftMargin
      | none => leftMarginAfter setup done := by
  rw [leftMarginAfter, getLastD_filterMap_concat]
  rcases command.leftMargin? with _ | _ | length <;> rfl

/-! ## Beginning lines -/

def lineTags : List String := ["LEND", "newline", "UP", "DOWN", "NEWPAGE", "PRINTINIT"]

/-- Whether a command goes to the beginning of a line. -/
inductive Command.BeginsLine : Command → Prop
  | newline : BeginsLine .newline
  | tag {name args} (hname : name ∈ lineTags) : BeginsLine (.invoke name args)
  /-- A text with the end of its line. -/
  | text {command text body} (htext : command.text? = some text)
      (hbody : Machine.withoutLineFeed? text = some body) : BeginsLine command

theorem Operation.exists_named?_of_mem_lineTags {name : String} (h : name ∈ lineTags) :
    ∃ operation, named? name = some operation ∧
      operation ∈ [Operation.printInit, .lineEnd, .newPage, .up, .down] := by
  simp only [lineTags, List.mem_cons, List.not_mem_nil, or_false] at h
  rcases h with rfl | rfl | rfl | rfl | rfl | rfl <;> exact ⟨_, rfl, by decide⟩

namespace Machine

variable {C Output : Type} [Canvas C Output]

/-! ## Pasts -/

/-- The machines of a report that commands lead to, with those that succeeded on the way. -/
inductive Past (canvas : C) (setup : PageSetup) : List Command → Machine C → Prop
  | start {resources m} (h : (start resources canvas setup).result = .ok m) :
      Past canvas setup [] m
  | succeeded {done m m' resources command} (h : Past canvas setup done m)
      (hexecute : (execute resources command : Work C Unit).Yields m () m') :
      Past canvas setup (done ++ [command]) m'
  | failed {done m m' resources command e} (h : Past canvas setup done m)
      (hexecute : (execute resources command : Work C Unit).Breaks m e m') :
      Past canvas setup done m'

variable {canvas : C} {setup : PageSetup} {done : List Command} {m m' : Machine C}
  {resources : Resources} {command : Command} {e : RenderError}

theorem Past.reachable (h : Past canvas setup done m) : Reachable canvas setup m := by
  induction h with
  | start h => exact .start h
  | succeeded _ hexecute ih => exact hexecute.2 ▸ ih.step _ _
  | failed _ hexecute ih => exact hexecute.2 ▸ ih.step _ _

theorem Reachable.exists_past (h : Reachable canvas setup m) : ∃ done, Past canvas setup done m := by
  induction h with
  | start h => exact ⟨[], .start h⟩
  | @step m _ resources command ih =>
    obtain ⟨done, hpast⟩ := ih
    rcases exists_yields_or_breaks (execute resources command) m with ⟨u, hyields⟩ | ⟨e, hbreaks⟩
    · exact ⟨_, hpast.succeeded hyields⟩
    · exact ⟨_, hpast.failed hbreaks⟩

/-! ## The margin in every state -/

/-- Whether the left margin is as it was set last, and that of the setup can be found again. -/
structure MarginKnown (setup : PageSetup) (done : List Command) (m : Machine C) : Prop where
  left : m.margins.left = leftMarginAfter setup done
  /-- What the margin would be set back to is the margin of the setup. -/
  leftDefault : m.margins.leftDefault.getD m.margins.left = setup.leftMargin

theorem yields_setLeftMargin {name : String} {args : Arguments} {u : Unit} :
    (setLeftMargin name args : Work C Unit).Yields m u m' ↔
      ∃ given, args.number? name 0 "margin" = .ok given ∧
        m' = { m.withMarginKept with margins.left := match given with
          | some length => length * centimetre
          | none => m.margins.leftDefault.getD m.margins.left } := by
  constructor
  · intro h
    obtain ⟨_, _, hkeep, hrest⟩ := yields_bind.mp h
    obtain rfl := yields_change.mp hkeep
    obtain ⟨given, _, hread, hset⟩ := yields_bind.mp hrest
    obtain ⟨hgiven, rfl⟩ := yields_argument.mp hread
    exact ⟨given, hgiven, yields_change.mp hset⟩
  · rintro ⟨given, hgiven, rfl⟩
    exact yields_bind.mpr ⟨(), m.withMarginKept, yields_change.mpr rfl,
      yields_bind.mpr ⟨given, _, yields_argument.mpr ⟨hgiven, rfl⟩, yields_change.mpr rfl⟩⟩

theorem MarginKnown.start (h : (Machine.start resources canvas setup).result = .ok m) :
    MarginKnown setup [] m := by
  obtain ⟨-, hselect⟩ := result_start_eq_ok.mp h
  have hmargins : m.margins = (blank canvas setup).margins :=
    (touches_selectFamily resources setup.family).leads hselect .margins (by decide)
  exact ⟨congrArg Margins.left hmargins, by rw [hmargins]; rfl⟩

theorem MarginKnown.succeeded (hm : MarginKnown setup done m)
    (h : (execute resources command : Work C Unit).Yields m () m') :
    MarginKnown setup (done ++ [command]) m' := by
  -- Of the commands that succeed, only the tag for the left margin touches the margins.
  by_cases hpart : .margins ∈ command.touches
  · obtain ⟨name, args, operation, rfl, hname, hpart, happly⟩ :=
      exists_apply_of_mem_touches (by decide) hpart h
    cases operation with
    | leftMargin =>
      obtain ⟨given, hgiven, rfl⟩ := yields_setLeftMargin.mp happly
      have hset := Command.leftMargin?_invoke_eq_some_iff.mpr ⟨hname, hgiven⟩
      refine ⟨?_, hm.leftDefault⟩
      rw [leftMarginAfter_concat, hset]
      cases given with
      | some length => rfl
      | none => exact hm.leftDefault
    | _ => simp [Operation.touches] at hpart
  · have hmargins : m'.margins = m.margins :=
      (touches_execute resources command).leads h .margins hpart
    have hnone : command.leftMargin? = none :=
      Command.eq_none_of_not_mem_touches (fun _ ↦ rfl) rfl
        (fun hgiven ↦ ⟨_, (Command.leftMargin?_invoke_eq_some_iff.mp hgiven).1, by decide⟩) hpart
    refine ⟨?_, by rw [hmargins, hm.leftDefault]⟩
    rw [leftMarginAfter_concat, hnone, hmargins, hm.left]

theorem canvas_atNextLine (m : Machine C) : m.atNextLine.canvas = m.canvas := by
  simp only [atNextLine]
  split <;> rfl

theorem margins_withRoom (m : Machine C) : m.withRoom.margins = m.margins := by
  rw [withRoom]
  split <;> rfl

/-- A command that fails leaves the margin as it was. It may have remembered it. -/
theorem MarginKnown.failed (hm : MarginKnown setup done m) (hfamily : FamilyKnown m)
    (h : (execute resources command : Work C Unit).Breaks m e m') : MarginKnown setup done m' := by
  cases breakdown_of_breaks h with
  | refused | moveAbsolute | moveRelative | fontName | drawImage => exact ⟨hm.left, hm.leftDefault⟩
  | leftMargin => exact ⟨hm.left, hm.leftDefault⟩
  | faceless hface => exact absurd hface hfamily.face?_ne_error
  | drawText =>
    have hmargins := margins_withRoom m
    exact ⟨by rw [← hm.left, ← hmargins]; rfl, by rw [← hm.leftDefault, ← hmargins]; rfl⟩

theorem Past.marginKnown (h : Past canvas setup done m) : MarginKnown setup done m := by
  induction h with
  | start h => exact .start h
  | succeeded _ hexecute ih => exact ih.succeeded hexecute
  | failed h hexecute ih => exact ih.failed h.reachable.familyKnown hexecute

/-! ## Where lines begin -/

def AtMargin (m : Machine C) : Prop := m.cursor.point.x = m.margins.left

theorem atMargin_atNextPage (m : Machine C) : m.atNextPage.AtMargin := rfl

theorem atMargin_atNextLine (m : Machine C) : m.atNextLine.AtMargin := by
  simp only [atNextLine]
  split <;> rfl

theorem atMargin_apply {name : String} {args : Arguments} {operation : Operation}
    (hoperation : operation ∈ [Operation.printInit, .lineEnd, .newPage, .up, .down])
    (h : (apply resources name args operation : Work C Unit).Yields m () m') : m'.AtMargin := by
  simp only [List.mem_cons, List.not_mem_nil, or_false] at hoperation
  rcases hoperation with rfl | rfl | rfl | rfl | rfl
  · obtain rfl := yields_change.mp h
    rfl
  · obtain rfl := yields_lineEnd.mp h
    exact atMargin_atNextLine m
  · obtain rfl := yields_newPage.mp h
    exact atMargin_atNextPage m
  all_goals
    obtain ⟨step, _, hstep, hmove⟩ := yields_bind.mp h
    obtain ⟨_, _, -, -, -, rfl⟩ := yields_lineStep.mp hstep
    obtain rfl := yields_change.mp hmove
    rfl

theorem atMargin_execute (hcommand : command.BeginsLine)
    (h : (execute resources command : Work C Unit).Yields m () m') : m'.AtMargin := by
  cases hcommand with
  | newline =>
    obtain rfl := yields_lineEnd.mp h
    exact atMargin_atNextLine m
  | tag hname =>
    obtain ⟨operation, hoperation, hmem⟩ := Operation.exists_named?_of_mem_lineTags hname
    rw [execute, hoperation] at h
    exact atMargin_apply hmem h
  | text htext hbody =>
    rw [execute_of_text? resources htext] at h
    rcases yields_output.mp h with ⟨rfl, -⟩ | ⟨_, _, drawn, -, -, rfl⟩ | ⟨-, hnone, -⟩
    · cases hbody
    · exact atMargin_atNextLine drawn
    · rw [hbody] at hnone
      cases hnone

/-! ## Page breaks that nobody asked for -/

/-- Whether a line of text does not fit where the cursor is. -/
def Full (m : Machine C) : Prop :=
  lineFits m.cursor.point.y m.style.size m.margins.bottom = false

theorem Full.withRoom_eq (hfull : m.Full) : m.withRoom = m.atNextPage :=
  if_neg (by rw [hfull]; decide)

theorem yields_drawText_of_full {text : String} {width : Float32} (hfull : m.Full) (htext : text ≠ "")
    (h : (drawText text : Work C Float32).Yields m width m') :
    ∃ face canvas, m.face? = .ok face ∧
      (Canvas.drawText ⟨m.margins.left, baseline m.topLeft.y m.style.size⟩ text face
        m.style.size).Yields m.atNextPage.opened.canvas () canvas ∧ m'.canvas = canvas := by
  obtain ⟨face, canvas, hface, hdraw, rfl, -⟩ := (yields_drawText htext).mp h
  rw [hfull.withRoom_eq] at hdraw
  exact ⟨face, canvas, hface, hdraw, rfl⟩

/-- A text for which there is no room is drawn at the margin of a new page. -/
theorem yields_output_of_full {text : String} (hfull : m.Full) (htext : withoutLineFeed text ≠ "")
    (h : (output text : Work C Unit).Yields m () m') :
    ∃ face canvas, m.face? = .ok face ∧
      (Canvas.drawText ⟨m.margins.left, baseline m.topLeft.y m.style.size⟩ (withoutLineFeed text) face
        m.style.size).Yields m.atNextPage.opened.canvas () canvas ∧ m'.canvas = canvas := by
  rcases yields_output.mp h with
    ⟨rfl, -⟩ | ⟨body, width, drawn, hbody, hdraw, rfl⟩ | ⟨-, hbody, width, drawn, hdraw, rfl⟩
  · exact absurd rfl htext
  · rw [withoutLineFeed, hbody] at htext ⊢
    rw [canvas_atNextLine]
    exact yields_drawText_of_full hfull htext hdraw
  · rw [withoutLineFeed, hbody] at htext ⊢
    -- Going on by the width of the text leaves the canvas alone.
    exact show ∃ face canvas, _ ∧ _ ∧ drawn.canvas = canvas from
      yields_drawText_of_full hfull htext hdraw

/-- If it cannot be drawn there, the cursor is at the margin nonetheless. -/
theorem breaks_output_of_full {text : String} (hfull : m.Full) (hfamily : FamilyKnown m)
    (h : (output text : Work C Unit).Breaks m e m') : m'.cursor.point.x = m.margins.left := by
  obtain ⟨body, hbody⟩ := breaks_output h
  rcases breaks_drawText hbody with ⟨cause, hface, -⟩ | ⟨_, _, _, _, -, -, -, rfl⟩
  · exact absurd hface hfamily.face?_ne_error
  · rw [hfull.withRoom_eq]
    rfl

/-! ## The left margin of a report -/

/-- **Lines begin at the margin that was set last.** Every state that commands lead to, whether they
succeed or fail, has a past. Whatever its past is, the left margin is as the last tag that succeeded
set it, and that of the page setup if the tag set it back or there was none. It can be set back at
any time. A command that begins a line leaves the cursor at the margin, and a text for which there
is no room is drawn at the margin of a new page; if it cannot be drawn, the cursor is there all the
same. -/
theorem Reachable.left_margin_is_last_set (hreachable : Reachable canvas setup m) :
    (∃ done, Past canvas setup done m) ∧ ∀ done, Past canvas setup done m →
      m.margins.left = leftMarginAfter setup done ∧
      (∀ resources args, args.value? 0 "margin" = none →
        ∃ m', (execute resources (.invoke "LMARGIN" args) : Work C Unit).Yields m () m' ∧
          m'.margins.left = setup.leftMargin) ∧
      (∀ resources command m', command.BeginsLine →
        (execute resources command : Work C Unit).Yields m () m' →
          m'.cursor.point.x = leftMarginAfter setup (done ++ [command])) ∧
      ∀ resources command text, command.text? = some text → withoutLineFeed text ≠ "" → m.Full →
        (∀ m', (execute resources command : Work C Unit).Yields m () m' →
          ∃ face canvas, m.face? = .ok face ∧
            (Canvas.drawText ⟨leftMarginAfter setup done, baseline m.topLeft.y m.style.size⟩
              (withoutLineFeed text) face m.style.size).Yields m.atNextPage.opened.canvas () canvas ∧
            m'.canvas = canvas) ∧
        ∀ e m', (execute resources command : Work C Unit).Breaks m e m' →
          m'.cursor.point.x = leftMarginAfter setup done := by
  refine ⟨hreachable.exists_past, fun done hpast ↦ ?_⟩
  have hleft := hpast.marginKnown.left
  refine ⟨hleft, fun resources args hnone ↦ ?_, fun resources command m' hcommand hexecute ↦ ?_,
    fun resources command text htext hne hfull ↦ ?_⟩
  · have hread : args.number? "LMARGIN" 0 "margin" = .ok none := by
      rw [Arguments.number?, hnone]
    exact ⟨_, yields_setLeftMargin.mpr ⟨none, hread, rfl⟩, hpast.marginKnown.leftDefault⟩
  · rw [← (hpast.succeeded hexecute).marginKnown.left]
    exact atMargin_execute hcommand hexecute
  · rw [execute_of_text? resources htext, ← hleft]
    exact ⟨fun m' ↦ yields_output_of_full hfull hne,
      fun e m' ↦ breaks_output_of_full hfull hreachable.familyKnown⟩

theorem Reachable.left_margin_is_last_set_two :
    ∃ m : Machine Recorder,
      Past (Recorder.new 595.28 841.89) {} [.invoke "LMARGIN" ⟨["2"], .empty⟩] m ∧
      m.margins.left = 2 * centimetre ∧
      ∃ m', (execute .empty (.invoke "LMARGIN" .none)).Yields m () m' ∧
        m'.margins.left = 0.7 * centimetre := by
  obtain ⟨m, hstart, -⟩ := map_eq_ok.mp
    (show (Machine.start .empty (Recorder.new 595.28 841.89) {}).result.map (·.copies) = .ok 1 by
      decide +kernel)
  have htwo : Arguments.number? ⟨["2"], .empty⟩ "LMARGIN" 0 "margin" = .ok (some 2) := by
    decide +kernel
  have habc : Arguments.number? ⟨["abc"], .empty⟩ "LMARGIN" 0 "margin"
      = .error (.invalid "LMARGIN" "abc" (.numeral .malformedDecimal)) := by
    decide +kernel
  have hset := (Past.start hstart).succeeded <|
    show (execute .empty (.invoke "LMARGIN" ⟨["2"], .empty⟩)).Yields m () _ from
      yields_setLeftMargin.mpr ⟨some 2, htwo, rfl⟩
  -- A tag that fails is not among the commands that count.
  have hfailed := hset.failed <|
    show (execute .empty (.invoke "LMARGIN" ⟨["abc"], .empty⟩)).Breaks _ _ _ from
      breaks_setLeftMargin.mpr ⟨_, habc, rfl, rfl⟩
  obtain ⟨hleft, hback, -⟩ := hfailed.reachable.left_margin_is_last_set.2 _ hfailed
  obtain ⟨m', hexecute, hm'⟩ := hback .empty .none rfl
  exact ⟨_, hfailed, hleft, m', hexecute, hm'⟩

end Machine

end ReportPress
