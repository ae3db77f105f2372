import Mathlib
import ReportPress.Proofs.Number.Value
import ReportPress.Proofs.Page.Layout
import ReportPress.Proofs.Render.Pages
import ReportPress.Proofs.Render.Writing
import ReportPress.Proofs.Report.Recorded

/-!
# Pages that are filled

A report of plain lines fills its pages. The state of the machine is tied to a layout (`Filled`):
the texts on record are the lines of the layout, each at its place, the cursor is where the next
line goes, and a break is pending exactly when the last page is full. A line keeps this, so the
layout of all lines is what a run leaves behind.

How many lines a page holds is a question to the fit test, one for each line; where the numbers of
the page setup are exact, the answer is a quotient (`holds_of_value?`).
-/

namespace ReportPress

open Number Number.Single

/-! ## Lines of a page -/

namespace PageSetup

variable {setup : PageSetup} {k : ℕ}

/-- The upper edge of the line with the given number, counted from zero. -/
def lineTop (setup : PageSetup) : ℕ → Float32
  | 0 => setup.height - setup.topMargin
  | i + 1 => setup.lineTop i - setup.size

/-- Whether the line with the given number has room on a page. -/
def fits (setup : PageSetup) (i : ℕ) : Bool :=
  lineFits (setup.lineTop i) setup.size setup.bottomMargin

/-- Whether a page holds a number of lines, and no more. -/
structure Holds (setup : PageSetup) (k : ℕ) : Prop where
  pos : 0 < k
  fits : ∀ i < k, setup.fits i = true
  /-- The next has none. -/
  ends : setup.fits k = false

/-- The text on the line with the given number. -/
def textAt (setup : PageSetup) (face : String) (i : ℕ) (content : String) : DrawStep :=
  .text ⟨setup.leftMargin, baseline (setup.lineTop i) setup.size⟩ content face setup.size

def textsOn (setup : PageSetup) (face : String) (page : List String) : List DrawStep :=
  page.mapIdx (setup.textAt face)

theorem textsOn_concat (face : String) (page : List String) (line : String) :
    setup.textsOn face (page ++ [line])
      = setup.textsOn face page ++ [setup.textAt face page.length line] := by
  simp [textsOn, List.mapIdx_append]

/-! ### Exact numbers -/

section Exact

variable {height top bottom size : ℚ}

/-- As long as the subtractions are exact, the lines are at multiples of the size below the
first. -/
theorem value?_lineTop (hheight : value? setup.height = some height)
    (htop : value? setup.topMargin = some top) (hsize : value? setup.size = some size)
    {i : ℕ} (hexact : ∀ j ≤ i, IsValue (height - top - j * size)) :
    value? (setup.lineTop i) = some (height - top - i * size) := by
  induction i with
  | zero =>
    have hvalue := hexact 0 le_rfl
    simp only [Nat.cast_zero, zero_mul, sub_zero] at hvalue ⊢
    exact value?_sub hheight htop hvalue
  | succ i ih =>
    have hvalue := hexact (i + 1) le_rfl
    have hnext : height - top - (i + 1 : ℕ) * size = height - top - i * size - size := by
      push_cast
      ring
    rw [hnext] at hvalue ⊢
    exact value?_sub (ih fun j hj ↦ hexact j (Nat.le_succ_of_le hj)) hsize hvalue

/-- **A page holds the quotient of its height between the margins and the font size**, rounded
down. -/
theorem holds_of_value? (hheight : value? setup.height = some height)
    (htop : value? setup.topMargin = some top) (hbottom : value? setup.bottomMargin = some bottom)
    (hsize : value? setup.size = some size) (hpos : 0 < size)
    (hk : k = ⌊(height - top - bottom) / size⌋₊) (hone : 1 ≤ k)
    (hexact : ∀ j ≤ k + 1, IsValue (height - top - j * size)) : setup.Holds k := by
  have hfits : ∀ i ≤ k, setup.fits i = true ↔ i < k := by
    intro i hi
    have hnext : value? (setup.lineTop i - setup.size) = some (height - top - (i + 1 : ℕ) * size) :=
      value?_lineTop (i := i + 1) hheight htop hsize fun j hj ↦ hexact j (by omega)
    rw [fits, lineFits, decide_eq_true_iff, ge_iff_le, le_iff hbottom hnext]
    calc bottom ≤ height - top - (i + 1 : ℕ) * size
        ↔ (i + 1 : ℕ) * size ≤ height - top - bottom := by
          constructor <;> intro h <;> linarith
      _ ↔ ((i + 1 : ℕ) : ℚ) ≤ (height - top - bottom) / size := (le_div_iff₀ hpos).symm
      _ ↔ i + 1 ≤ k := by rw [hk, Nat.le_floor_iff' (Nat.succ_ne_zero i)]
  refine ⟨hone, fun i hi ↦ (hfits i hi.le).mpr hi, ?_⟩
  rw [Bool.eq_false_iff]
  exact fun h ↦ lt_irrefl k ((hfits k le_rfl).mp h)

end Exact

end PageSetup

/-! ## Machines that fill pages -/

def DrawStep.isText : DrawStep → Bool
  | .text .. => true
  | _ => false

def Command.ofLines (lines : List String) : List Command :=
  lines.flatMap fun line ↦ [.literal line, .newline]

namespace Machine

variable {setup : PageSetup} {face : String} {k : ℕ} {layout : Layout} {m : Machine Recorder}
  {resources : Resources} {line : String} {lines : List String}

/-- Whether a machine has put lines on pages of `k` lines as a layout has them. -/
structure Filled (setup : PageSetup) (face : String) (k : ℕ) (layout : Layout)
    (m : Machine Recorder) : Prop where
  left : m.margins.left = setup.leftMargin
  topLeft : m.topLeft = ⟨setup.leftMargin, setup.lineTop 0⟩
  bottom : m.margins.bottom = setup.bottomMargin
  size : m.style.size = setup.size
  resolve : m.registry.resolve m.style.family m.style.bold m.style.italic = .ok face
  isFinished : m.pages.isFinished = false
  /-- The cursor is where the next line goes. -/
  cursor : m.cursor.point = ⟨setup.leftMargin, setup.lineTop (layout.turned k).last.length⟩
  /-- A break is pending when the last page is full. -/
  breakPending : m.pages.breakPending = decide (layout.last.length = k)
  /-- The last page counts as drawn on when it has a line. -/
  isDrawn : m.pages.isDrawn = !layout.last.isEmpty
  ended : m.canvas.log.pages.map (·.filter DrawStep.isText) = layout.ended.map (setup.textsOn face)
  last : m.canvas.current.toList.filter DrawStep.isText = setup.textsOn face layout.last

theorem filled_empty {registry : FontRegistry} {recorder : Recorder}
    (hk : 0 < k) (hresolve : registry.resolve setup.family false false = .ok face)
    (hended : recorder.log.pages = [])
    (hlast : recorder.current.toList.filter DrawStep.isText = []) :
    Filled setup face k .empty
      (((blank recorder setup).withRegistry registry).inFamily setup.family) where
  left := rfl
  topLeft := rfl
  bottom := rfl
  size := rfl
  resolve := hresolve
  isFinished := rfl
  cursor := by
    rw [Layout.turned_of_length_ne (show Layout.empty.last.length ≠ k from hk.ne)]
    rfl
  breakPending := (decide_eq_false hk.ne).symm
  isDrawn := rfl
  ended := congrArg _ hended
  last := hlast

/-- A machine that has just started has filled nothing. -/
theorem exists_filled_empty [Decoders] {width height : Float32} (hk : 0 < k)
    (h : (start resources (Recorder.new width height) setup).result = .ok m) :
    ∃ face, Filled setup face k .empty m := by
  obtain ⟨-, hselect⟩ := result_start_eq_ok.mp h
  rcases yields_selectFamily.mp hselect with
    ⟨hknown, rfl⟩ | ⟨hknown, path, canvas, -, hregister, rfl⟩
  · obtain ⟨faces, hfaces⟩ := Option.isSome_iff_exists.mp hknown
    have hresolve : FontRegistry.builtin.resolve setup.family false false
        = .ok (faces.choose false false) := by
      rw [FontRegistry.resolve, show FontRegistry.builtin.faces? setup.family = _ from hfaces]
    exact ⟨_, filled_empty hk hresolve rfl rfl⟩
  · obtain ⟨bytes, -, rfl⟩ := Recorder.yields_registerFont.mp hregister
    have hresolve := FontRegistry.resolve_add_self hknown (FontRegistry.faceName setup.family)
      false false
    exact ⟨_, filled_empty hk hresolve rfl rfl⟩

/-! ### A line -/

/-- A full page is ended for the next line, and only then. -/
theorem Filled.endsPage (h : Filled setup face k layout m) (hk : 0 < k) :
    m.pages.endsPage = decide (layout.last.length = k) := by
  rw [Pages.endsPage, h.breakPending, h.isDrawn, Bool.and_eq_left_iff_imp, decide_eq_true_iff]
  intro hlast
  cases hpage : layout.last with
  | nil => simp [hpage, hk.ne] at hlast
  | cons => rfl

/-- Then the machine has filled the pages of the layout that is turned. -/
theorem Filled.opened [Decoders] (h : Filled setup face k layout m) (hk : 0 < k) :
    m.opened.canvas.log.pages.map (·.filter DrawStep.isText)
        = (layout.turned k).ended.map (setup.textsOn face) ∧
      m.opened.canvas.current.toList.filter DrawStep.isText
        = setup.textsOn face (layout.turned k).last := by
  have hcanvas : m.opened.canvas
      = if m.pages.endsPage then Canvas.showPage m.canvas else m.canvas := rfl
  rw [hcanvas, h.endsPage hk]
  by_cases hlast : layout.last.length = k
  · simp [Layout.turned_of_length_eq hlast, hlast, Recorder.pages, Layout.pages, h.ended, h.last,
      PageSetup.textsOn]
  · simp [Layout.turned_of_length_ne hlast, hlast, h.ended, h.last]

theorem Filled.withRoom (h : Filled setup face k layout m) (hfull : layout.Full k)
    (hholds : setup.Holds k) : m.withRoom = m := by
  have hfits := hholds.fits _ (hfull.turned hholds.pos).2
  rw [Machine.withRoom, h.cursor, h.size, h.bottom]
  exact if_pos hfits

/-- Once its text is drawn, a line is ended. -/
theorem Filled.next [Decoders] (h : Filled setup face k layout m) (hfull : layout.Full k)
    (hholds : setup.Holds k) (x : Float32) :
    Filled setup face k (layout.add k line)
      ((m.opened.withCanvas (m.opened.canvas.record
        (setup.textAt face (layout.turned k).last.length line))).setX x).atNextLine := by
  obtain ⟨hended, hlast⟩ := h.opened hholds.pos
  obtain ⟨-, hlt⟩ := hfull.turned hholds.pos
  set text := (m.opened.withCanvas (m.opened.canvas.record
    (setup.textAt face (layout.turned k).last.length line))).setX x with htext
  have hnext : text.cursor.point.y - text.style.size
      = setup.lineTop ((layout.turned k).last.length + 1) := by
    show m.cursor.point.y - m.style.size = _
    rw [h.cursor, h.size]
    rfl
  have hlength : (layout.add k line).last.length = (layout.turned k).last.length + 1 := by simp
  have hcurrent : text.canvas.current.toList.filter DrawStep.isText
      = setup.textsOn face (layout.add k line).last := by
    show ((m.opened.canvas.record _).current.toList.filter _) = _
    rw [Recorder.current_record, List.filter_append, hlast, Layout.last_add,
      PageSetup.textsOn_concat]
    rfl
  have hroom : lineFits (text.cursor.point.y - text.style.size) text.style.size text.margins.bottom
      = setup.fits ((layout.turned k).last.length + 1) := by
    rw [hnext, show text.style.size = _ from h.size, show text.margins.bottom = _ from h.bottom]
    rfl
  have hdrawn : true = !(layout.add k line).last.isEmpty := by simp
  -- The line end asks for a break exactly when the page is full now.
  by_cases hmore : (layout.turned k).last.length + 1 < k
  · have hfits := hholds.fits _ hmore
    have hadd := Layout.turned_of_length_ne (show (layout.add k line).last.length ≠ k by omega)
    rw [atNextLine, if_pos (hroom.trans hfits), hnext]
    exact
      { h with
        cursor := by rw [hadd, hlength, ← h.left]; rfl
        breakPending := (decide_eq_false (by omega)).symm
        isDrawn := hdrawn
        ended := hended
        last := hcurrent }
  · have hfull : (layout.add k line).last.length = k := by omega
    have hadd := Layout.turned_of_length_eq hfull
    have hfits := hholds.ends
    rw [show k = (layout.turned k).last.length + 1 by omega] at hfits
    rw [atNextLine, if_neg (Bool.eq_false_iff.mp (hroom.trans hfits))]
    exact
      { h with
        cursor := by rw [hadd]; exact h.topLeft
        breakPending := (decide_eq_true hfull).symm
        isDrawn := hdrawn
        ended := hended
        last := hcurrent }

theorem withoutLineFeed?_eq_none {text : String} (h : '\n' ∉ text.toList) :
    withoutLineFeed? text = none := by
  rw [← Option.not_isSome_iff_eq_none, Option.isSome_iff_exists]
  rintro ⟨body, hbody⟩
  rw [withoutLineFeed?_eq_some.mp hbody] at h
  simp [show "\n".toList = ['\n'] from rfl] at h

/-- **A line is put on its place.** -/
theorem Filled.add [Decoders] (h : Filled setup face k layout m) (resources : Resources)
    (hfull : layout.Full k) (hholds : setup.Holds k) (hne : line ≠ "") (hline : '\n' ∉ line.toList) :
    ∃ text next, (execute resources (.literal line) : Work Recorder Unit).Yields m () text ∧
      (execute resources .newline : Work Recorder Unit).Yields text () next ∧
      Filled setup face k (layout.add k line) next := by
  have hnone := withoutLineFeed?_eq_none hline
  have hdraw := (yields_drawText hne).mpr ⟨face, _, h.resolve, Action.yields_change.mpr rfl, rfl, rfl⟩
  rw [h.withRoom hfull hholds, h.cursor, h.size] at hdraw
  exact ⟨_, _, yields_output.mpr (.inr (.inr ⟨hne, hnone, _, _, hdraw, rfl⟩)),
    yields_lineEnd.mpr rfl, h.next hfull hholds _⟩

/-! ### Lines in a row -/

/-- From wherever lines are put out, they end up on pages one after the other. -/
theorem Filled.runFrom [Decoders] (hholds : setup.Holds k)
    (hlines : ∀ line ∈ lines, line ≠ "" ∧ '\n' ∉ line.toList) :
    ∀ {layout : Layout} {m : Machine Recorder} (index : ℕ), layout.Full k →
      Filled setup face k layout m →
      ∃ m', (runFrom resources index (Command.ofLines lines) : Work Recorder Unit).Yields m () m' ∧
        Filled setup face k (lines.foldl (Layout.add k) layout) m' := by
  induction lines with
  | nil => exact fun index hfull h ↦ ⟨_, Action.yields_pure.mpr ⟨rfl, rfl⟩, h⟩
  | cons line rest ih =>
    intro layout m index hfull h
    obtain ⟨⟨hne, hline⟩, hrest⟩ := List.forall_mem_cons.mp hlines
    obtain ⟨text, next, htext, hnext, hadd⟩ := h.add resources hfull hholds hne hline
    obtain ⟨m', hrun, hfilled⟩ := ih hrest (index + 1 + 1) (hfull.add hholds.pos line) hadd
    exact ⟨m', yields_runFrom_cons.mpr ⟨text, htext, yields_runFrom_cons.mpr ⟨next, hnext, hrun⟩⟩,
      hfilled⟩

/-- **Lines fill pages.** A run of lines leaves the layout of all of them. -/
theorem exists_filled_run [Decoders] {width height : Float32} (hholds : setup.Holds k)
    (hstart : (start resources (Recorder.new width height) setup).result = .ok m)
    (hlines : ∀ line ∈ lines, line ≠ "" ∧ '\n' ∉ line.toList) :
    ∃ face m', (run resources (Command.ofLines lines) : Work Recorder Unit).Yields m () m' ∧
      Filled setup face k (.ofLines k lines) m' := by
  obtain ⟨face, hempty⟩ := exists_filled_empty hholds.pos hstart
  obtain ⟨m', hrun, hfilled⟩ := Filled.runFrom hholds hlines 0 (Layout.full_ofLines hholds.pos [])
    hempty
  exact ⟨face, m', hrun, hfilled⟩

/-! ## Finished reports -/

theorem Filled.pages_finish [Decoders] (h : Filled setup face k layout m) :
    m.finish.1.output.pages.map (·.filter DrawStep.isText)
      = layout.pages.map (setup.textsOn face) := by
  rw [output_pages_finish h.isFinished, Recorder.pages, Layout.pages, List.map_append, h.ended,
    List.map_append, List.map_singleton, h.last, List.map_singleton]

end Machine

theorem textsOf_ofLines {lines : List String} (h : ∀ line ∈ lines, line ≠ "" ∧ '\n' ∉ line.toList) :
    textsOf (Command.ofLines lines) = lines := by
  induction lines with
  | nil => rfl
  | cons line rest ih =>
    obtain ⟨⟨hne, hline⟩, hrest⟩ := List.forall_mem_cons.mp h
    have hsplit : Command.ofLines (line :: rest)
        = [.literal line, .newline] ++ Command.ofLines rest := rfl
    rw [hsplit, textsOf_append, ih hrest]
    simp [textsOf, Command.text?, withoutLineFeed, Machine.withoutLineFeed?_eq_none hline, hne]

/-- **Lines fill the pages of a report**, `k` to a page, with their upper edges at given heights. -/
structure FillsPages (setup : PageSetup) (top : ℕ → ℚ) (k : ℕ) (lines : List String)
    (report : Rendered DrawLog) : Prop where
  pages : report.pages = lines.length ⌈/⌉ k
  logPages : report.output.pages.length = lines.length ⌈/⌉ k
  /-- The texts are the lines. -/
  texts : report.output.texts = lines
  /-- Every page but the last has `k` of them. -/
  full : ∀ i page, i + 1 < lines.length ⌈/⌉ k → report.output.pages[i]? = some page →
    (page.filter DrawStep.isText).length = k
  rest : ∀ page, report.output.pages.getLast? = some page →
    (page.filter DrawStep.isText).length = lines.length - k * (lines.length ⌈/⌉ k - 1)
  /-- They start at the left margin, one below the other. -/
  place : ∀ page ∈ report.output.pages, ∀ i step, (page.filter DrawStep.isText)[i]? = some step →
    ∃ y content face, value? y = some (top i) ∧
      step = .text ⟨setup.leftMargin, baseline y setup.size⟩ content face setup.size

namespace Machine

variable {setup : PageSetup} {face : String} {k : ℕ} {layout : Layout} {m : Machine Recorder}
  {lines : List String}

theorem Filled.exists_page [Decoders] (h : Filled setup face k layout m) {i : ℕ} {page : List DrawStep}
    (hpage : m.finish.1.output.pages[i]? = some page) :
    ∃ hi : i < layout.pages.length,
      page.filter DrawStep.isText = setup.textsOn face layout.pages[i] := by
  have hmap := congrArg (·[i]?) h.pages_finish
  simp only [List.getElem?_map, hpage, Option.map_some] at hmap
  obtain ⟨texts, htexts, hsame⟩ := Option.map_eq_some_iff.mp hmap.symm
  obtain ⟨hi, rfl⟩ := List.getElem?_eq_some_iff.mp htexts
  exact ⟨hi, hsame.symm⟩

theorem Filled.fillsPages [Decoders] {top : ℕ → ℚ} (h : Filled setup face k (.ofLines k lines) m) (hk : 0 < k)
    (hne : lines ≠ []) (htexts : m.finish.1.output.texts = lines)
    (htop : ∀ i < k, value? (setup.lineTop i) = some (top i)) :
    FillsPages setup top k lines m.finish.1 := by
  have hpages : m.finish.1.pages = m.finish.1.output.pages.length := by
    rw [output_pages_finish h.isFinished]
    simp only [Machine.finish, Pages.finish, h.isFinished]
    rfl
  have hlayout := Layout.length_pages_ofLines hk hne
  have hlength : m.finish.1.output.pages.length = lines.length ⌈/⌉ k := by
    rw [← hlayout, ← List.length_map (setup.textsOn face), ← h.pages_finish, List.length_map]
  -- The pages of the report and of the layout are the same up to what is no text.
  have hcount {i : ℕ} {page : List DrawStep} (hpage : m.finish.1.output.pages[i]? = some page) :
      (page.filter DrawStep.isText).length = if i + 1 < lines.length ⌈/⌉ k then k
        else lines.length - k * (lines.length ⌈/⌉ k - 1) := by
    obtain ⟨hi, hsame⟩ := h.exists_page hpage
    rw [hsame, PageSetup.textsOn, List.length_mapIdx, Layout.length_getElem_pages_ofLines hk lines hi,
      hlayout]
  refine
    { pages := hpages.trans hlength
      logPages := hlength
      texts := htexts
      full := fun i page hi hpage ↦ (hcount hpage).trans (if_pos hi)
      rest := ?_
      place := ?_ }
  · intro page hlast
    rw [List.getLast?_eq_getElem?, hlength] at hlast
    exact (hcount hlast).trans (if_neg (by omega))
  · intro page hpage i step hstep
    obtain ⟨number, hnumber⟩ := List.getElem?_of_mem hpage
    obtain ⟨hi, hsame⟩ := h.exists_page hnumber
    rw [hsame, PageSetup.textsOn, List.getElem?_mapIdx] at hstep
    obtain ⟨content, hcontent, rfl⟩ := Option.map_eq_some_iff.mp hstep
    obtain ⟨hline, -⟩ := List.getElem?_eq_some_iff.mp hcontent
    have hfull := (Layout.full_ofLines hk lines).length_le _ (List.getElem_mem hi)
    exact ⟨_, content, face, htop i (hline.trans_le hfull), rfl⟩

/-- **Lines fill pages exactly.** Where the heights of the lines are exact, as they are for whole
numbers that are not too large, a page holds as many lines as fit between the margins, `k` of them.
A run of lines then takes `k` to a page, and a page that is full is left only for a line that comes
after it: until then a break is pending and no page is ended. -/
theorem run_fillsPages [Decoders] {resources : Resources} {width height : Float32} {H t b S : ℚ}
    (hheight : value? setup.height = some H) (htop : value? setup.topMargin = some t)
    (hbottom : value? setup.bottomMargin = some b) (hsize : value? setup.size = some S)
    (hpos : 0 < S) (hk : k = ⌊(H - t - b) / S⌋₊) (hone : 1 ≤ k)
    (hexact : ∀ j : ℕ, j ≤ k + 1 → IsValue (H - t - j * S))
    (hstart : (start resources (Recorder.new width height) setup).result = .ok m)
    (hne : lines ≠ []) (hlines : ∀ line ∈ lines, line ≠ "" ∧ '\n' ∉ line.toList) :
    ∃ m', (run resources (Command.ofLines lines) : Work Recorder Unit).Yields m () m' ∧
      FillsPages setup (fun i ↦ H - t - i * S) k lines m'.finish.1 ∧
      (lines.length = k → m'.pages.breakPending = true ∧ Canvas.pageCount m'.canvas = 0) := by
  have hholds := PageSetup.holds_of_value? hheight htop hbottom hsize hpos hk hone hexact
  obtain ⟨face, m', hrun, hfilled⟩ := exists_filled_run hholds hstart hlines
  have htexts : m'.finish.1.output.texts = lines := by
    rw [← textsOf_ofLines hlines]
    exact Report.texts_draw_eq (Report.result_draw_eq_ok.mpr ⟨m, m', hstart, hrun, rfl⟩)
  refine ⟨m', hrun, hfilled.fillsPages hone hne htexts fun i hi ↦
    PageSetup.value?_lineTop hheight htop hsize fun j hj ↦ hexact j (by omega), fun hlength ↦ ?_⟩
  have hended := Layout.ended_ofLines_eq_nil hone hne hlength.le
  have hlast := Layout.length_lines hone lines
  rw [hended, List.length_nil, mul_zero, zero_add, hlength] at hlast
  refine ⟨hfilled.breakPending.trans (decide_eq_true hlast.symm), ?_⟩
  have hlog := congrArg List.length hfilled.ended
  rwa [hended, List.length_map, List.map_nil] at hlog

def sixteenLines : PageSetup where
  height := ofInt 200
  topMargin := ofInt 20
  bottomMargin := ofInt 20
  size := ofInt 10

theorem run_fillsPages_sixteen_lines :
    ∃ m m', (start .empty (Recorder.new 200 200) sixteenLines).result = .ok m ∧
      (run .empty (Command.ofLines (List.replicate 16 "x")) : Work Recorder Unit).Yields m () m' ∧
      FillsPages sixteenLines (fun i ↦ 200 - 20 - i * 10) 16 (List.replicate 16 "x") m'.finish.1 ∧
      m'.pages.breakPending = true ∧ Canvas.pageCount m'.canvas = 0 := by
  obtain ⟨m, hstart, -⟩ := map_eq_ok.mp
    (show (start .empty (Recorder.new 200 200) sixteenLines).result.map (·.copies) = .ok 1
      by decide +kernel)
  have hheight : value? sixteenLines.height = some 200 :=
    mod_cast value?_ofInt (n := 200) (by decide)
  have htop : value? sixteenLines.topMargin = some 20 :=
    mod_cast value?_ofInt (n := 20) (by decide)
  have hbottom : value? sixteenLines.bottomMargin = some 20 :=
    mod_cast value?_ofInt (n := 20) (by decide)
  have hsize : value? sixteenLines.size = some 10 := mod_cast value?_ofInt (n := 10) (by decide)
  have hexact : ∀ j : ℕ, j ≤ 16 + 1 → IsValue (200 - 20 - j * 10) := fun j hj ↦
    mod_cast isValue_intCast (n := 200 - 20 - j * 10) (by omega)
  obtain ⟨m', hrun, hfills, hpending⟩ := run_fillsPages hheight htop hbottom hsize (by norm_num)
    (by norm_num) (by norm_num) hexact hstart (show List.replicate 16 "x" ≠ [] by simp) (by simp)
  exact ⟨m, m', hstart, hrun, hfills, hpending rfl⟩

end Machine

end ReportPress
