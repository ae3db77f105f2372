import ReportPress.Proofs.Canvas.Recorder
import ReportPress.Proofs.Pdf.Canvas
import ReportPress.Proofs.Pdf.Translation
import ReportPress.Proofs.Render.Lockstep

/-!
# The page canvas agrees with the recorder

A recorder and a page canvas that get the same calls stay in agreement: page by page, the
instructions are those that every page begins with, followed by the translation of the steps on
record. Both measure with the same faces, and the numbers that the page canvas remembers for its
fonts and images are those under which the resources hold them.

The last point needs that a face is read only once. The canvas alone does not see to that, but the
machine does, since every face that was read belongs to a family that is known.
-/

namespace ReportPress

open Pdf

variable [Decoders]

/-- Whether the instructions on a page show some steps, in a document with these resources, after
the steps of the pages before it: first what every page begins with, for the colour and line width
in force, and then the translation of the steps, one after the other. -/
def Shows (resources : List Resource) (before steps : List DrawStep)
    (instructions : List Instruction) : Prop :=
  ∃ more, translation? resources steps = some more ∧
    instructions =
      (PageCanvas.preamble (fillInForce before) (lineWidthInForce before)).toList ++ more

theorem Shows.push {resources : Array Resource} {before steps : List DrawStep}
    {instructions : List Instruction} (h : Shows resources.toList before steps instructions)
    (resource : Resource) : Shows (resources.push resource).toList before steps instructions := by
  obtain ⟨more, htranslation, rfl⟩ := h
  exact ⟨more, translation?_push htranslation resource, rfl⟩

/-- The page canvas agrees with the recorder. -/
structure Agrees (title : String) (known : FontRegistry) (recorder : Recorder)
    (canvas : PageCanvas) : Prop where
  title : canvas.title = title
  /-- Both measure with the same faces. -/
  metrics : recorder.metrics = canvas.metrics
  length : recorder.log.pages.length = canvas.pages.length
  /-- The finished pages show what is on record. -/
  finished : ∀ i steps page, recorder.log.pages[i]? = some steps → canvas.pages[i]? = some page →
    Shows canvas.resources.toList (recorder.log.pages.take i).flatten steps page.instructions
  /-- The page in progress does, too. -/
  current : Shows canvas.resources.toList recorder.log.pages.flatten recorder.current.toList
    canvas.instructions.toList
  fill : canvas.fill = fillInForce recorder.steps
  lineWidth : canvas.lineWidth = lineWidthInForce recorder.steps
  fonts : ∀ face, canvas.fonts.lookup face
    = (firstResource? (Resource.fontOf? face) canvas.resources.toList).map Prod.fst
  /-- Every font belongs to a family that is known. -/
  fontsKnown : ∀ face number, canvas.fonts.lookup face = some number → known.isKnown face = true
  /-- Images are known by their numbers. -/
  images : ∀ path, (canvas.images.find? (·.path.sameAs path)).map
      (fun image ↦ (image.ref.number, image.ref.size, image.size))
    = firstResource? (Resource.imageOf? path) canvas.resources.toList

namespace Agrees

variable {title : String} {known : FontRegistry} {recorder : Recorder} {canvas : PageCanvas}

theorem new (title : String) (width height : Float32) :
    Agrees title .builtin (Recorder.new width height) (PageCanvas.new title width height) where
  title := rfl
  metrics := rfl
  length := rfl
  finished i steps page h := by simp [Recorder.new, DrawLog.blank] at h
  current := ⟨[], rfl, rfl⟩
  fill := rfl
  lineWidth := rfl
  fonts face := rfl
  fontsKnown face number h := by simp [PageCanvas.new] at h
  images path := rfl

theorem draw (h : Agrees title known recorder canvas) (step : DrawStep)
    {instructions : List Instruction}
    (hstep : step.instructions? canvas.resources.toList = some instructions) :
    Agrees title known (recorder.record step)
      ({ canvas with
          fill := step.fill?.getD canvas.fill
          lineWidth := step.lineWidth?.getD canvas.lineWidth }.write instructions) := by
  obtain ⟨front, hfront, hcurrent⟩ := h.current
  refine { h with
    current := ⟨front ++ instructions, ?_, ?_⟩
    fill := ?_
    lineWidth := ?_ }
  · rw [Recorder.current_record]
    exact translation?_concat hfront hstep
  · simp [PageCanvas.write, hcurrent]
  · rw [Recorder.steps_record, fillInForce_concat, ← h.fill]
    rfl
  · rw [Recorder.steps_record, lineWidthInForce_concat, ← h.lineWidth]
    rfl

theorem showPage (h : Agrees title known recorder canvas) :
    Agrees title known (Canvas.showPage recorder) (Canvas.showPage canvas) := by
  refine { h with
    length := ?_
    finished := ?_
    current := ⟨[], rfl, ?_⟩
    fill := recorder.steps_showPage ▸ h.fill
    lineWidth := recorder.steps_showPage ▸ h.lineWidth }
  · simp [Canvas.showPage, PageCanvas.showPage, h.length]
  · intro i steps page hsteps hpage
    simp only [Canvas.showPage, PageCanvas.showPage] at hsteps hpage ⊢
    -- An earlier page, the page that just ended, or none.
    rcases Nat.lt_trichotomy i recorder.log.pages.length with hi | rfl | hi
    · rw [List.getElem?_append_left hi] at hsteps
      rw [List.getElem?_append_left (h.length ▸ hi)] at hpage
      rw [List.take_append_of_le_length hi.le]
      exact h.finished i steps page hsteps hpage
    · rw [List.getElem?_concat_length] at hsteps
      rw [h.length, List.getElem?_concat_length] at hpage
      obtain rfl := Option.some.inj hsteps
      obtain rfl := Option.some.inj hpage
      rw [List.take_left]
      exact h.current
    · have hnone : (recorder.log.pages ++ [recorder.current.toList])[i]? = none := by
        rw [List.getElem?_eq_none_iff, List.length_append, List.length_singleton]
        omega
      rw [hnone] at hsteps
      cases hsteps
  · show (PageCanvas.preamble canvas.fill canvas.lineWidth).toList = _
    rw [Recorder.pages_log_showPage, ← Recorder.steps, ← h.fill, ← h.lineWidth, List.append_nil]

/-! ## Text and images -/

theorem font?_eq_some {face : String} {font : FontRef} (h : Agrees title known recorder canvas)
    (hfont : canvas.font? face = some font) (start : Point) (text : String) (size : Float32) :
    (DrawStep.text start text face size).instructions? canvas.resources.toList
      = some (Instruction.textObject start font size text) := by
  rw [PageCanvas.font?] at hfont
  simp only [DrawStep.instructions?]
  split at hfont
  · obtain rfl := Option.some.inj hfont
    rw [if_pos ‹_›]
  · rw [if_neg ‹_›]
    rw [h.fonts, Option.map_map] at hfont
    obtain ⟨⟨number, u⟩, hfound, rfl⟩ := Option.map_eq_some_iff.mp hfont
    rw [hfound]
    rfl

theorem drawText (h : Agrees title known recorder canvas) {start : Point} {text face : String}
    {size : Float32} {after : PageCanvas}
    (hafter : (PageCanvas.drawText start text face size).Yields canvas () after) :
    Agrees title known (recorder.record (.text start text face size)) after := by
  obtain ⟨font, hfont, rfl⟩ := PageCanvas.yields_drawText.mp hafter
  exact h.draw (.text start text face size) (h.font?_eq_some hfont start text size)

theorem withImage (h : Agrees title known recorder canvas) {path : Path}
    (hnew : canvas.images.find? (·.path.sameAs path) = none) {size : PixelSize} {bytes : ByteArray}
    (hsize : Decoders.decodeImage bytes = .ok size) (embedded : PixelSize) :
    Agrees title known recorder (canvas.withImage path size embedded bytes) where
  title := h.title
  metrics := h.metrics
  length := h.length
  finished i steps page hsteps hpage := (h.finished i steps page hsteps hpage).push _
  current := h.current.push _
  fill := h.fill
  lineWidth := h.lineWidth
  fonts face := by
    rw [PageCanvas.withImage, h.fonts, firstResource?_push]
    simp [Resource.fontOf?]
  fontsKnown := h.fontsKnown
  images other := by
    rw [PageCanvas.withImage, firstResource?_push, List.find?_cons, ← h.images other]
    cases hsame : path.sameAs other with
    | true =>
      -- The other path stands for the same image, so it was not placed before either.
      have hnone := h.images path
      rw [hnew, Option.map_none, Resource.imageOf?_congr hsame, ← h.images other] at hnone
      rw [← hnone]
      simp [Resource.imageOf?, hsame, hsize, Except.toOption]
    | false => simp [Resource.imageOf?, hsame]

theorem loadImage {files : FileSystem} (h : Agrees title known recorder canvas) {path : Path}
    {image : PlacedImage} {after : PageCanvas}
    (hafter : (PageCanvas.loadImage files path).Yields canvas image after) :
    Agrees title known recorder after ∧
      after.images.find? (·.path.sameAs path) = some image := by
  rcases PageCanvas.yields_loadImage.mp hafter with
    ⟨hfind, rfl⟩ | ⟨hnone, bytes, size, embedded, -, hsize, -, rfl, rfl⟩
  · exact ⟨h, hfind⟩
  · refine ⟨h.withImage hnone hsize embedded, ?_⟩
    exact List.find?_cons_of_pos (decide_eq_true rfl)

theorem drawImage {files : FileSystem} (h : Agrees title known recorder canvas) {path : Path}
    {corner : Point} {width height : Option Float32} {after : PageCanvas}
    (hafter : (PageCanvas.drawImage files path corner width height).Yields canvas () after) :
    Agrees title known (recorder.record (.image path.text corner width height)) after := by
  obtain ⟨image, placed, hload, rfl⟩ := PageCanvas.yields_drawImage.mp hafter
  obtain ⟨hplaced, hfind⟩ := h.loadImage hload
  apply hplaced.draw
  have hnumber := hplaced.images path
  rw [hfind, Option.map_some] at hnumber
  simp only [DrawStep.instructions?, ← hnumber, Option.map_some]

/-! ## Faces -/

/-- The face of a family that was not known is a new resource, and the first of its name. -/
theorem withFont (h : Agrees title known recorder canvas) {family : String}
    (hnew : known.isKnown family = false) (metrics : FontMetrics) (bytes : ByteArray) :
    Agrees title (known.add family (FontRegistry.faceName family)) { recorder with metrics }
      (canvas.withFont metrics (FontRegistry.faceName family) bytes) where
  title := h.title
  metrics := rfl
  length := h.length
  finished i steps page hsteps hpage := (h.finished i steps page hsteps hpage).push _
  current := h.current.push _
  fill := h.fill
  lineWidth := h.lineWidth
  fonts face := by
    rw [PageCanvas.withFont, firstResource?_push, List.lookup_cons]
    by_cases hface : face = FontRegistry.faceName family
    · -- Had the face been read before, its family would be known.
      have hnone : canvas.fonts.lookup face = none := by
        rw [Option.eq_none_iff_forall_ne_some]
        intro number hnumber
        have hknown := h.fontsKnown face number hnumber
        rw [hface, FontRegistry.isKnown_faceName, hnew] at hknown
        cases hknown
      have hfirst := h.fonts face
      rw [hnone, eq_comm, Option.map_eq_none_iff] at hfirst
      rw [hfirst, hface]
      simp [Resource.fontOf?]
    · rw [beq_false_of_ne hface, h.fonts face]
      simp [Resource.fontOf?, Ne.symm hface]
  fontsKnown face number hnumber := by
    rw [PageCanvas.withFont, List.lookup_cons] at hnumber
    by_cases hface : face = FontRegistry.faceName family
    · rw [hface, FontRegistry.isKnown_faceName, FontRegistry.isKnown_add_self]
    · rw [beq_false_of_ne hface] at hnumber
      exact FontRegistry.isKnown_add (h.fontsKnown face number hnumber) _ _
  images path := by
    rw [PageCanvas.withFont, firstResource?_push, ← h.images path]
    simp [Resource.imageOf?]

theorem registerFont {files : FileSystem} (h : Agrees title known recorder canvas) {family : String}
    (hnew : known.isKnown family = false) {path : Path} {after : PageCanvas}
    (hafter : (PageCanvas.registerFont files (FontRegistry.faceName family) path).Yields canvas ()
      after) :
    ∃ recorder', (Recorder.registerFont files (FontRegistry.faceName family) path).Yields recorder ()
        recorder' ∧
      Agrees title (known.add family (FontRegistry.faceName family)) recorder' after := by
  obtain ⟨bytes, metrics, hread, -, hload, rfl⟩ := PageCanvas.yields_registerFont.mp hafter
  refine ⟨_, Recorder.yields_registerFont.mpr ⟨bytes, hread, rfl⟩, ?_⟩
  rw [h.metrics, hload]
  have hdrawn := (h.withFont hnew metrics bytes).draw
    (.registerFont (FontRegistry.faceName family) path.text) rfl
  rwa [PageCanvas.write_nil] at hdrawn

/-- The two canvases go in lockstep: whatever the page canvas is asked for and does, the recorder
does as well, and they agree afterwards. -/
theorem lockstep (title : String) (files : FileSystem) :
    Canvas.Lockstep files (Agrees title) where
  textWidth {known recorder canvas} h text face size := by
    show recorder.metrics.width text face size = canvas.metrics.width text face size
    rw [h.metrics]
  setFillColor h red green blue := h.draw (.fillColor red green blue) rfl
  setLineWidth h width := h.draw (.lineWidth width) rfl
  drawRect h a b := h.draw (.rect a b) rfl
  drawRoundedRect h a b radius := h.draw (.roundedRect a b radius) rfl
  drawLine h start stop := h.draw (.line start stop) rfl
  showPage h := h.showPage
  drawText h start text face size d' hd :=
    ⟨_, Action.yields_change.mpr rfl, h.drawText hd⟩
  drawImage h path corner width height d' hd :=
    ⟨_, Action.yields_change.mpr rfl, h.drawImage hd⟩
  registerFont h hnew path d' hd := h.registerFont hnew hd

end Agrees

end ReportPress
