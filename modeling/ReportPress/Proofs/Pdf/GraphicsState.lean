import Mathlib.Data.List.Induction
import ReportPress.File.Formats
import ReportPress.Proofs.Pdf.Canvas
import ReportPress.Proofs.Pdf.Content

/-!
# The graphics state on a page

What a mark is made with is decided by the content of its page alone. A reader begins every page
with black and a line width of one, goes through the operators, and keeps the colours and the width
that are in force (`inForce`). The canvas, on the other hand, remembers what was set last, on
whichever page. The two agree at every mark (`inForce_eq_latest`), because every page begins by
setting what the canvas remembers.

## The invariant

Behind the page in progress a reader has what the canvas remembers, with nothing put aside
(`Tracks`). A call that draws sets nothing and takes back what it puts aside, so all its marks are
made with what it finds; a call that sets something makes no mark; and ending the page only copies
what the canvas remembers to the next one.
-/

namespace ReportPress

namespace CanvasCall

/-- The colour that a call sets. -/
def fill? : CanvasCall → Option (Float32 × Float32 × Float32)
  | .setFillColor red green blue => some (red, green, blue)
  | _ => none

/-- The line width that a call sets. -/
def lineWidth? : CanvasCall → Option Float32
  | .setLineWidth width => some width
  | _ => none

/-- The colour that was set last, and black before that. -/
def latestFill (calls : List CanvasCall) : Float32 × Float32 × Float32 :=
  (calls.filterMap fill?).getLastD (0, 0, 0)

/-- The line width that was set last, and one point before that. -/
def latestLineWidth (calls : List CanvasCall) : Float32 :=
  (calls.filterMap lineWidth?).getLastD 1

@[simp] theorem latestFill_concat (calls : List CanvasCall) (call : CanvasCall) :
    latestFill (calls ++ [call]) = call.fill?.getD (latestFill calls) :=
  getLastD_filterMap_concat ..

@[simp] theorem latestLineWidth_concat (calls : List CanvasCall) (call : CanvasCall) :
    latestLineWidth (calls ++ [call]) = call.lineWidth?.getD (latestLineWidth calls) :=
  getLastD_filterMap_concat ..

end CanvasCall

namespace Pdf

/-! ## Reading page content -/

/-- What marks are made with. -/
structure GraphicsState where
  /-- The colour of what is filled. -/
  fill : Float32 × Float32 × Float32
  /-- The colour of what is stroked. -/
  stroke : Float32 × Float32 × Float32
  /-- The width of lines. -/
  lineWidth : Float32

/-- What a page begins with: black, and a line width of one. -/
def GraphicsState.initial : GraphicsState := ⟨(0, 0, 0), (0, 0, 0), 1⟩

/-- A reader of page content. -/
structure ContentReader where
  /-- What is in force. -/
  current : GraphicsState
  /-- What was put aside, the latest first. -/
  saved : List GraphicsState

namespace ContentReader

/-- The reader behind an operator. -/
def read (reader : ContentReader) : Operator → ContentReader
  | .fillColor red green blue => { reader with current.fill := (red, green, blue) }
  | .strokeColor red green blue => { reader with current.stroke := (red, green, blue) }
  | .lineWidth width => { reader with current.lineWidth := width }
  | .save => { reader with saved := reader.current :: reader.saved }
  | .restore =>
    match reader.saved with
    | [] => reader
    | state :: saved => ⟨state, saved⟩
  | _ => reader

/-- The reader behind some operators. -/
def readAll (reader : ContentReader) (operators : List Operator) : ContentReader :=
  operators.foldl read reader

@[simp] theorem readAll_nil (reader : ContentReader) : reader.readAll [] = reader := rfl

@[simp] theorem readAll_cons (reader : ContentReader) (operator : Operator)
    (operators : List Operator) :
    reader.readAll (operator :: operators) = (reader.read operator).readAll operators := rfl

@[simp] theorem readAll_append (reader : ContentReader) (operators more : List Operator) :
    reader.readAll (operators ++ more) = (reader.readAll operators).readAll more :=
  List.foldl_append

end ContentReader

/-- What is in force behind the first operators of a page. -/
def inForce (operators : List Operator) : GraphicsState :=
  (ContentReader.readAll ⟨.initial, []⟩ operators).current

namespace Operator

/-- Whether an operator makes a mark: it shows a text, strokes a path or paints an image. -/
def isPainting : Operator → Bool
  | .showText _ | .stroke | .paint _ => true
  | _ => false

/-- Whether an operator sets a colour or the line width. -/
def isSetting : Operator → Bool
  | .fillColor .. | .strokeColor .. | .lineWidth _ => true
  | _ => false

/-- Whether an operator puts the graphics state aside or takes it back. -/
def isKeeping : Operator → Bool
  | .save | .restore => true
  | _ => false

end Operator

namespace ContentReader

variable {reader : ContentReader} {operator : Operator} {operators : List Operator}

theorem read_eq_self (hsetting : operator.isSetting = false) (hkeeping : operator.isKeeping = false) :
    reader.read operator = reader := by
  cases operator with
  | fillColor | strokeColor | lineWidth => cases hsetting
  | save | restore => cases hkeeping
  | _ => rfl

theorem current_readAll (hsetting : ∀ operator ∈ operators, operator.isSetting = false)
    (hsaved : ∀ state ∈ reader.saved, state = reader.current) :
    (reader.readAll operators).current = reader.current := by
  induction operators generalizing reader with
  | nil => rfl
  | cons operator operators ih =>
    obtain ⟨hfirst, hrest⟩ := List.forall_mem_cons.mp hsetting
    rw [readAll_cons]
    cases operator with
    | fillColor | strokeColor | lineWidth => cases hfirst
    | save => exact ih hrest (List.forall_mem_cons.mpr ⟨rfl, hsaved⟩)
    | restore =>
      obtain ⟨current, _ | ⟨state, saved⟩⟩ := reader
      · exact ih hrest hsaved
      · -- What is taken back is what was in force all along.
        obtain ⟨rfl, hsaved⟩ := List.forall_mem_cons.mp hsaved
        exact ih hrest hsaved
    | _ => exact ih hrest hsaved

/-- Strokes stay black as long as no other colour is set for them. -/
theorem stroke_readAll (hstroke : ∀ red green blue, .strokeColor red green blue ∈ operators →
      (red, green, blue) = ((0, 0, 0) : Float32 × Float32 × Float32))
    (hcurrent : reader.current.stroke = (0, 0, 0))
    (hsaved : ∀ state ∈ reader.saved, state.stroke = (0, 0, 0)) :
    (reader.readAll operators).current.stroke = (0, 0, 0) := by
  induction operators generalizing reader with
  | nil => exact hcurrent
  | cons operator operators ih =>
    rw [readAll_cons]
    have hrest := fun red green blue h ↦ hstroke red green blue (List.mem_cons_of_mem _ h)
    cases operator with
    | strokeColor red green blue =>
      exact ih hrest (hstroke red green blue (List.mem_cons_self ..)) hsaved
    | save => exact ih hrest hcurrent (List.forall_mem_cons.mpr ⟨hcurrent, hsaved⟩)
    | restore =>
      obtain ⟨current, _ | ⟨state, saved⟩⟩ := reader
      · exact ih hrest hcurrent hsaved
      · obtain ⟨hstate, hsaved⟩ := List.forall_mem_cons.mp hsaved
        exact ih hrest hstate hsaved
    | _ => exact ih hrest hcurrent hsaved

end ContentReader

/-! ## What calls write -/

/-- Operators that set nothing and leave a reader as it was. -/
structure Inert (operators : List Operator) : Prop where
  /-- Nothing is set. -/
  settings : ∀ operator ∈ operators, operator.isSetting = false
  /-- What is put aside is taken back. -/
  readAll : ∀ reader : ContentReader, reader.readAll operators = reader

theorem Inert.of_forall {operators : List Operator}
    (h : ∀ operator ∈ operators, operator.isSetting = false ∧ operator.isKeeping = false) :
    Inert operators := by
  refine ⟨fun operator hmem ↦ (h operator hmem).1, fun reader ↦ ?_⟩
  induction operators with
  | nil => rfl
  | cons operator operators ih =>
    obtain ⟨⟨hsetting, hkeeping⟩, hrest⟩ := List.forall_mem_cons.mp h
    rw [ContentReader.readAll_cons, ContentReader.read_eq_self hsetting hkeeping, ih hrest]

section Inert

variable [PdfLibrary]

theorem inert_textObject (hlibrary : PdfLibrary.Laws) (start : Point) (font : FontRef)
    (size : Float32) (text : String) :
    Inert (content (Instruction.textObject start font size text)) := by
  obtain ⟨shown, hcontent⟩ := hlibrary.content_textObject start font size text
  rw [hcontent]
  exact .of_forall (by simp [Operator.isSetting, Operator.isKeeping])

theorem inert_placeImage (hlibrary : PdfLibrary.Laws) (image : ImageRef) (placement : Placement) :
    Inert (content [.placeImage image placement]) := by
  obtain ⟨xScale, yScale, hcontent⟩ := hlibrary.placeImage image placement
  rw [content_singleton, hcontent]
  exact ⟨by simp [Operator.isSetting], fun _ ↦ rfl⟩

theorem inert_drawLine (hlibrary : PdfLibrary.Laws) {points : List (OutlinePoint Float32)}
    (h : points ≠ []) (isClosed : Bool) : Inert (content [.drawLine points isClosed]) := by
  obtain ⟨first, rest, rfl⟩ := List.exists_cons_of_ne_nil h
  obtain ⟨middle, hmiddle, hpath⟩ := hlibrary.drawLine first rest isClosed
  have hend : ∀ operator ∈ (if isClosed then [.closePath, .stroke] else [.stroke] : List Operator),
      operator.isSetting = false ∧ operator.isKeeping = false := by
    cases isClosed <;> decide
  rw [content_singleton, hpath]
  refine .of_forall fun operator hmem ↦ ?_
  rcases List.mem_append.mp hmem with hmem | hmem
  · rcases List.mem_cons.mp hmem with rfl | hmem
    · exact ⟨rfl, rfl⟩
    · have hcontinues := hmiddle operator hmem
      cases operator with
      | lineTo | curveTo => exact ⟨rfl, rfl⟩
      | _ => cases hcontinues
  · exact hend operator hmem

end Inert

/-! ## What pages begin with -/

section Opening

variable {before rest : List Operator} {operator : Operator}

theorem eq_black_of_mem_opening {fill : Float32 × Float32 × Float32}
    {lineWidth red green blue : Float32}
    (h : .strokeColor red green blue ∈ opening fill lineWidth) :
    (red, green, blue) = ((0, 0, 0) : Float32 × Float32 × Float32) := by
  simpa [opening] using h

theorem isPainting_of_mem_opening {fill : Float32 × Float32 × Float32} {lineWidth : Float32}
    (h : operator ∈ opening fill lineWidth) : operator.isPainting = false := by
  rcases List.mem_cons.mp h with rfl | h
  · rfl
  rcases List.mem_cons.mp h with rfl | h
  · rfl
  rcases List.mem_singleton.mp h with rfl
  rfl

theorem opening_ne (hpainting : operator.isPainting = true) (fill : Float32 × Float32 × Float32)
    (lineWidth : Float32) : opening fill lineWidth ≠ before ++ operator :: rest := by
  intro hopening
  have hmem : operator ∈ opening fill lineWidth := by simp [hopening]
  rw [isPainting_of_mem_opening hmem] at hpainting
  cases hpainting

end Opening

theorem getElem?_concat_eq_some {α : Type} {page : Nat} {items : List α} {last item : α} :
    (items ++ [last])[page]? = some item ↔
      items[page]? = some item ∨ page = items.length ∧ last = item := by
  grind

namespace PageCanvas

open CanvasCall

section Calls

variable [PdfLibrary] {canvas after : PageCanvas} {call : CanvasCall}

/-- The content of the page in progress. -/
def current (canvas : PageCanvas) : List Operator := content canvas.instructions.toList

/-- The content of every page, with the one in progress. -/
def contents (canvas : PageCanvas) : List (List Operator) :=
  canvas.pages.map Page.content ++ [canvas.current]

theorem current_write (canvas : PageCanvas) (instructions : List Instruction) :
    (canvas.write instructions).current = canvas.current ++ content instructions := by
  rw [current, toList_instructions_write, content_append, current]

theorem current_showPage (hlibrary : PdfLibrary.Laws) (canvas : PageCanvas) :
    canvas.showPage.current = opening canvas.fill canvas.lineWidth :=
  content_preamble hlibrary ..

theorem contents_new (hlibrary : PdfLibrary.Laws) (title : String) (width height : Float32) :
    (new title width height).contents = [opening (0, 0, 0) 1] :=
  congrArg (fun operators ↦ [operators]) (content_preamble hlibrary (0, 0, 0) 1)

theorem contents_showPage (hlibrary : PdfLibrary.Laws) (canvas : PageCanvas) :
    canvas.showPage.contents = canvas.contents ++ [opening canvas.fill canvas.lineWidth] := by
  rw [contents, current_showPage hlibrary, contents, showPage, List.map_append]
  rfl

/-- What the canvas remembers: a colour and a line width, with strokes in black. -/
def remembered (canvas : PageCanvas) : GraphicsState := ⟨canvas.fill, (0, 0, 0), canvas.lineWidth⟩

/-- What a call writes on the page in progress, if it does not end the page. -/
structure Writes (canvas : PageCanvas) (call : CanvasCall) (after : PageCanvas)
    (operators : List Operator) : Prop where
  /-- The finished pages stay. -/
  pages : after.pages = canvas.pages
  /-- The page in progress gets longer. -/
  current : after.current = canvas.current ++ operators
  /-- The colour is the one that the call sets, if it sets one. -/
  fill : after.fill = call.fill?.getD canvas.fill
  /-- So is the line width. -/
  lineWidth : after.lineWidth = call.lineWidth?.getD canvas.lineWidth
  /-- A reader goes along. -/
  reads : ContentReader.readAll ⟨canvas.remembered, []⟩ operators = ⟨after.remembered, []⟩
  /-- Marks are made with what the call finds, if it makes any. -/
  marks : (∀ operator ∈ operators, operator.isPainting = false) ∨ ∀ front, front <+: operators →
    (ContentReader.readAll ⟨canvas.remembered, []⟩ front).current = canvas.remembered
  /-- No stroke colour is set. -/
  strokes : ∀ red green blue, .strokeColor red green blue ∉ operators

theorem Writes.contents (h : Writes canvas call after operators) :
    after.contents = canvas.pages.map Page.content ++ [canvas.current ++ operators] := by
  rw [PageCanvas.contents, h.pages, h.current]

/-- A call that draws, or only reads files, writes operators that set nothing. -/
theorem writes_of_inert {operators : List Operator} (h : Inert operators)
    (hpages : after.pages = canvas.pages) (hcurrent : after.current = canvas.current ++ operators)
    (hcanvas : after.fill = canvas.fill ∧ after.lineWidth = canvas.lineWidth)
    (hcall : call.fill? = none ∧ call.lineWidth? = none) : Writes canvas call after operators where
  pages := hpages
  current := hcurrent
  fill := by rw [hcanvas.1, hcall.1]; rfl
  lineWidth := by rw [hcanvas.2, hcall.2]; rfl
  reads := by rw [h.readAll, remembered, remembered, hcanvas.1, hcanvas.2]
  marks := .inr fun _ hfront ↦ ContentReader.current_readAll
    (fun operator hmem ↦ h.settings operator (hfront.subset hmem)) nofun
  strokes red green blue hmem := by cases h.settings _ hmem

theorem writes_inert {instructions : List Instruction} (h : Inert (content instructions))
    (hcall : call.fill? = none ∧ call.lineWidth? = none) :
    Writes canvas call (canvas.write instructions) (content instructions) :=
  writes_of_inert h rfl (current_write ..) ⟨rfl, rfl⟩ hcall

theorem writes_nil (hcall : call.fill? = none ∧ call.lineWidth? = none) :
    Writes canvas call canvas [] :=
  writes_of_inert (.of_forall nofun) rfl (List.append_nil _).symm ⟨rfl, rfl⟩ hcall

/-! ### What holds behind calls -/

/-- Behind some calls, the canvas remembers what was set last, and a reader of the page in progress
has the same. -/
structure Tracks (calls : List CanvasCall) (canvas : PageCanvas) : Prop where
  /-- The colour was set last. -/
  fill : canvas.fill = latestFill calls
  /-- So was the line width. -/
  lineWidth : canvas.lineWidth = latestLineWidth calls
  /-- A reader has both, and nothing is put aside. -/
  reads : ContentReader.readAll ⟨.initial, []⟩ canvas.current = ⟨canvas.remembered, []⟩

theorem tracks_new (hlibrary : PdfLibrary.Laws) (title : String) (width height : Float32) :
    Tracks [] (new title width height) where
  fill := rfl
  lineWidth := rfl
  reads := by
    rw [current, show (new title width height).instructions = preamble (0, 0, 0) 1 from rfl,
      content_preamble hlibrary]
    rfl

/-- Whether only black is set for strokes. -/
def StrokesBlack (canvas : PageCanvas) : Prop :=
  ∀ content ∈ canvas.contents, ∀ red green blue, .strokeColor red green blue ∈ content →
    (red, green, blue) = ((0, 0, 0) : Float32 × Float32 × Float32)

theorem strokesBlack_new (hlibrary : PdfLibrary.Laws) (title : String) (width height : Float32) :
    StrokesBlack (new title width height) := by
  intro content hcontent red green blue hmem
  rw [contents_new hlibrary] at hcontent
  obtain rfl := List.mem_singleton.mp hcontent
  exact eq_black_of_mem_opening hmem

/-! ### Single calls -/

variable [Decoders]

theorem exists_writes_drawText (hlibrary : PdfLibrary.Laws) (canvas : PageCanvas) (start : Point)
    (text face : String) (size : Float32) : ∃ operators,
      Writes canvas (.drawText start text face size)
        ((CanvasCall.drawText start text face size).perform canvas) operators := by
  rcases perform_drawText canvas start text face size with ⟨font, hafter⟩ | hafter
  · rw [hafter]
    exact ⟨_, writes_inert (inert_textObject hlibrary ..) ⟨rfl, rfl⟩⟩
  · -- The text object has been begun, and nothing was set in it.
    rw [hafter]
    refine ⟨_, writes_inert ?_ ⟨rfl, rfl⟩⟩
    simp only [content_cons, content_nil, hlibrary.beginText, hlibrary.moveText]
    exact .of_forall (by simp [Operator.isSetting, Operator.isKeeping])

theorem exists_writes_drawImage (hlibrary : PdfLibrary.Laws) (canvas : PageCanvas)
    (files : FileSystem) (path : Path) (corner : Point) (width height : Option Float32) :
    ∃ operators, Writes canvas (.drawImage files path corner width height)
      ((CanvasCall.drawImage files path corner width height).perform canvas) operators := by
  rcases perform_drawImage canvas files path corner width height with
    ⟨_, image, placement, rfl | ⟨size, embedded, bytes, rfl⟩, hafter⟩ | hafter
  · rw [hafter]
    exact ⟨_, writes_inert (inert_placeImage hlibrary ..) ⟨rfl, rfl⟩⟩
  · -- The image is a new resource, which leaves the page alone.
    rw [hafter]
    exact ⟨_, writes_of_inert (inert_placeImage hlibrary ..) rfl (current_write ..) ⟨rfl, rfl⟩
      ⟨rfl, rfl⟩⟩
  · rw [hafter]
    exact ⟨[], writes_nil ⟨rfl, rfl⟩⟩

theorem exists_writes_registerFont (canvas : PageCanvas) (files : FileSystem) (face : String)
    (path : Path) : ∃ operators, Writes canvas (.registerFont files face path)
      ((CanvasCall.registerFont files face path).perform canvas) operators := by
  rcases perform_registerFont canvas files face path with ⟨bytes, metrics, -, hafter⟩ | hafter
  · rw [hafter]
    exact ⟨[], writes_of_inert (.of_forall nofun) rfl (List.append_nil _).symm ⟨rfl, rfl⟩
      ⟨rfl, rfl⟩⟩
  · rw [hafter]
    exact ⟨[], writes_nil ⟨rfl, rfl⟩⟩

/-- **A call ends the page or writes on it.** -/
theorem eq_showPage_or_writes (hlibrary : PdfLibrary.Laws) (canvas : PageCanvas)
    (call : CanvasCall) :
    call = .showPage ∨ ∃ operators, Writes canvas call (call.perform canvas) operators := by
  cases call with
  | drawText start text face size =>
    exact .inr (exists_writes_drawText hlibrary canvas start text face size)
  | setFillColor red green blue =>
    refine .inr ⟨[.fillColor red green blue], rfl, ?_, rfl, rfl, rfl,
      .inl (by simp [Operator.isPainting]), by simp⟩
    rw [← hlibrary.fillColor, ← content_singleton]
    exact current_write ..
  | setLineWidth width =>
    refine .inr ⟨[.lineWidth width], rfl, ?_, rfl, rfl, rfl,
      .inl (by simp [Operator.isPainting]), by simp⟩
    rw [← hlibrary.outlineThickness, ← content_singleton]
    exact current_write ..
  | drawRect | drawRoundedRect | drawLine =>
    exact .inr ⟨_, writes_inert (inert_drawLine hlibrary (List.cons_ne_nil _ _) _) ⟨rfl, rfl⟩⟩
  | drawImage files path corner width height =>
    exact .inr (exists_writes_drawImage hlibrary canvas files path corner width height)
  | registerFont files face path => exact .inr (exists_writes_registerFont canvas files face path)
  | showPage => exact .inl rfl

/-! ## Calls in sequence -/

variable {calls : List CanvasCall} {content before rest : List Operator}
  {operator : Operator} {page : Nat}

theorem Tracks.concat (hlibrary : PdfLibrary.Laws) (h : Tracks calls canvas) (call : CanvasCall) :
    Tracks (calls ++ [call]) (call.perform canvas) := by
  rcases eq_showPage_or_writes hlibrary canvas call with rfl | ⟨operators, hwrites⟩
  · constructor
    · rw [latestFill_concat]
      exact h.fill
    · rw [latestLineWidth_concat]
      exact h.lineWidth
    · rw [show CanvasCall.showPage.perform canvas = canvas.showPage from rfl,
        current_showPage hlibrary]
      rfl
  · constructor
    · rw [latestFill_concat, ← h.fill, hwrites.fill]
    · rw [latestLineWidth_concat, ← h.lineWidth, hwrites.lineWidth]
    · rw [hwrites.current, ContentReader.readAll_append, h.reads, hwrites.reads]

/-- **An operator behind a call was there before, or begins a page, or the call writes it.** -/
theorem contents_perform_cases (hlibrary : PdfLibrary.Laws)
    (hpage : (call.perform canvas).contents[page]? = some (before ++ operator :: rest)) :
    (∃ rest', canvas.contents[page]? = some (before ++ operator :: rest')) ∨
    opening canvas.fill canvas.lineWidth = before ++ operator :: rest ∨
    ∃ front back, Writes canvas call (call.perform canvas) (front ++ operator :: back) ∧
      canvas.contents[page]? = some canvas.current ∧ before = canvas.current ++ front := by
  -- Ending the page adds a page to the contents; any other call adds operators to the last one.
  rcases eq_showPage_or_writes hlibrary canvas call with rfl | ⟨operators, hwrites⟩
  · rw [show CanvasCall.showPage.perform canvas = canvas.showPage from rfl,
      contents_showPage hlibrary, getElem?_concat_eq_some] at hpage
    rcases hpage with hpage | ⟨-, hnew⟩
    · exact .inl ⟨rest, hpage⟩
    · exact .inr (.inl hnew)
  · rw [hwrites.contents, getElem?_concat_eq_some] at hpage
    rcases hpage with hpage | ⟨hlast, hcontent⟩
    · exact .inl ⟨rest, getElem?_concat_eq_some.mpr (.inl hpage)⟩
    · have hpage : canvas.contents[page]? = some canvas.current :=
        getElem?_concat_eq_some.mpr (.inr ⟨hlast, rfl⟩)
      rcases List.append_eq_append_iff.mp hcontent with
        ⟨front, hbefore, hoperators⟩ | ⟨written, hbefore, hoperators⟩
      · exact .inr (.inr ⟨front, rest, hoperators ▸ hwrites, hpage, hbefore⟩)
      · -- The operator is the first of those that were written, or one that was there before.
        rcases List.append_eq_cons_iff.mp hoperators.symm with
          ⟨rfl, hoperators⟩ | ⟨rest', rfl, -⟩
        · refine .inr (.inr ⟨[], rest, hoperators ▸ hwrites, hpage, ?_⟩)
          rw [hbefore, List.append_nil, List.append_nil]
        · exact .inl ⟨rest', hbefore ▸ hpage⟩

theorem StrokesBlack.perform (hlibrary : PdfLibrary.Laws) (h : StrokesBlack canvas)
    (call : CanvasCall) : StrokesBlack (call.perform canvas) := by
  intro content hcontent red green blue hmem
  obtain ⟨page, hpage⟩ := List.mem_iff_getElem?.mp hcontent
  obtain ⟨before, rest, rfl⟩ := List.append_of_mem hmem
  rcases contents_perform_cases hlibrary hpage with
    ⟨rest', hold⟩ | hnew | ⟨front, back, hwrites, -, -⟩
  · exact h _ (List.mem_of_getElem? hold) _ _ _ (by simp)
  · exact eq_black_of_mem_opening (hnew ▸ hmem)
  · exact absurd (by simp) (hwrites.strokes red green blue)

theorem tracks_performAll (hlibrary : PdfLibrary.Laws) (title : String) (width height : Float32)
    (calls : List CanvasCall) : Tracks calls (performAll (new title width height) calls) := by
  induction calls using List.reverseRecOn with
  | nil => exact tracks_new hlibrary ..
  | append_singleton calls call ih =>
    rw [performAll_append]
    exact ih.concat hlibrary call

/-- An operator is written by a call: its page was in progress, with nothing on it but what is
before the operator, and behind the call the operator is there. -/
structure WrittenBy (canvas : PageCanvas) (call : CanvasCall) (page : Nat) (before : List Operator)
    (operator : Operator) : Prop where
  /-- Before the call, the operator was not there. -/
  absent : ∃ content, canvas.contents[page]? = some content ∧ content <+: before
  /-- Behind the call it is. -/
  present : ∃ content, (call.perform canvas).contents[page]? = some content ∧
    before ++ [operator] <+: content

/-- By induction on the calls. The last of them found the mark or made it; then it was made with
what the canvas remembered. -/
theorem exists_writtenBy (hlibrary : PdfLibrary.Laws) {title : String} {width height : Float32}
    (hpage : (performAll (new title width height) calls).contents[page]?
      = some (before ++ operator :: rest))
    (hpainting : operator.isPainting = true) :
    ∃ earlier call later, calls = earlier ++ call :: later ∧
      WrittenBy (performAll (new title width height) earlier) call page before operator ∧
        (inForce before).fill = latestFill earlier ∧
          (inForce before).lineWidth = latestLineWidth earlier := by
  induction calls using List.reverseRecOn generalizing rest with
  | nil =>
    rw [performAll_nil, contents_new hlibrary] at hpage
    have hnew := List.mem_singleton.mp (List.mem_of_getElem? hpage)
    exact absurd hnew.symm (opening_ne hpainting _ _)
  | append_singleton calls call ih =>
    rw [performAll_append] at hpage
    rcases contents_perform_cases hlibrary hpage with
      ⟨rest', hold⟩ | hnew | ⟨front, back, hwrites, hcontent, rfl⟩
    · obtain ⟨earlier, writer, later, rfl, hwriter⟩ := ih hold
      exact ⟨earlier, writer, later ++ [call], by simp, hwriter⟩
    · exact absurd hnew (opening_ne hpainting _ _)
    · have htracks := tracks_performAll hlibrary title width height calls
      have hmarks := hwrites.marks.resolve_left fun hnone ↦ by
        rw [hnone operator (by simp)] at hpainting
        cases hpainting
      -- Up to the mark, the last call sets nothing; so what is in force is what the canvas
      -- remembered.
      have hforce : inForce ((performAll (new title width height) calls).current ++ front)
          = (performAll (new title width height) calls).remembered := by
        rw [inForce, ContentReader.readAll_append, htracks.reads]
        exact hmarks front (List.prefix_append _ _)
      refine ⟨calls, call, [], rfl, ⟨⟨_, hcontent, List.prefix_append _ _⟩, ⟨_, hpage, by simp⟩⟩, ?_⟩
      rw [hforce]
      exact ⟨htracks.fill, htracks.lineWidth⟩

/-- **Graphics state survives page breaks.** On every page, every mark is made with the colour and
the line width that were set last before the call that makes it, on whichever page, and all strokes
are black. -/
theorem inForce_eq_latest (hlibrary : PdfLibrary.Laws) (title : String) (width height : Float32)
    (calls : List CanvasCall)
    (hpage : (performAll (new title width height) calls).contents[page]? = some content) :
    (∀ before, before <+: content → (inForce before).stroke = (0, 0, 0)) ∧
    ∀ before operator, before ++ [operator] <+: content → operator.isPainting = true →
      ∃ earlier call later, calls = earlier ++ call :: later ∧
        WrittenBy (performAll (new title width height) earlier) call page before operator ∧
        (inForce before).fill = latestFill earlier ∧
        (inForce before).lineWidth = latestLineWidth earlier := by
  constructor
  · intro before hbefore
    have hblack : StrokesBlack (performAll (new title width height) calls) :=
      performAll_induction (fun _ call h ↦ h.perform hlibrary call) calls
        (strokesBlack_new hlibrary title width height)
    refine ContentReader.stroke_readAll (fun red green blue hmem ↦ ?_) rfl nofun
    exact hblack content (List.mem_of_getElem? hpage) red green blue (hbefore.subset hmem)
  · rintro before operator ⟨rest, rfl⟩ hpainting
    rw [List.append_assoc, List.singleton_append] at hpage
    exact exists_writtenBy hlibrary hpage hpainting

end Calls

/-- A red that is set on the first page fills what is on the second. -/
theorem inForce_eq_latest_red :
    ∃ earlier call later,
      [.setFillColor 1 0 0, .showPage, .drawText ⟨72, 720⟩ "Total" "Courier" 12]
        = earlier ++ call :: later ∧
      WrittenBy (performAll (new "Report" 595.28 841.89) earlier) call 1
        (opening (1, 0, 0) 1
          ++ [.beginText, .moveText ⟨72, 720⟩, .selectFont (.builtin "Courier") 12])
        (.showText (.bytes [0x54, 0x6F, 0x74, 0x61, 0x6C])) ∧
      (1, 0, 0) = latestFill earlier ∧ 1 = latestLineWidth earlier := by
  have hpage : (performAll (new "Report" 595.28 841.89)
      [.setFillColor 1 0 0, .showPage, .drawText ⟨72, 720⟩ "Total" "Courier" 12]).contents[1]?
      = some (opening (1, 0, 0) 1
          ++ [.beginText, .moveText ⟨72, 720⟩, .selectFont (.builtin "Courier") 12,
            .showText (.bytes [0x54, 0x6F, 0x74, 0x61, 0x6C]), .endText]) := by
    decide +kernel
  exact (inForce_eq_latest writer_laws "Report" 595.28 841.89 _ hpage).2 _ _ ⟨[.endText], rfl⟩ rfl

end PageCanvas

end Pdf

end ReportPress
