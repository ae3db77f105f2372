import ReportPress.File.Formats
import ReportPress.Pdf.Writer
import ReportPress.Proofs.Pdf.Canvas
import ReportPress.Proofs.Render.Changes

/-!
# The faces of the page canvas

Which font a face is drawn in, and which it is measured with, are looked up in two tables: drawing
asks for the built-in faces first, measuring for the faces read from files. The tables are filled by
the same call and by nothing else (`perform_cases`), so they name the same faces (`Matched`). They
lead to different fonts for a built-in name under which a file was read, and only for such a name
(`drawnAsMeasured_iff`).

The second part is about runs of the render machine in which no command fails: the face of the
current style can always be drawn (`Unfailing.usable`).
-/

namespace ReportPress

open ReportPress.Action

/-! ## Registries -/

theorem FontRegistry.resolve_add {registry : FontRegistry} {family face other name : String}
    {bold italic : Bool} (h : (registry.add family face).resolve other bold italic = .ok name) :
    registry.resolve other bold italic = .ok name ∨ name = face := by
  rw [resolve, faces?_add] at h
  rw [resolve]
  cases hfaces : registry.faces? other with
  | some faces => rw [hfaces] at h; exact .inl h
  | none =>
    rw [hfaces, Option.none_or] at h
    split at h
    · rename_i faces hsingle
      split at hsingle
      · obtain rfl := Option.some.inj hsingle
        right
        rw [← Except.ok.inj h]
        cases bold <;> cases italic <;> rfl
      · cases hsingle
    · cases h

theorem FontRegistry.resolve_builtin {family name : String} {bold italic : Bool}
    (h : builtin.resolve family bold italic = .ok name) : name ∈ builtinFaces := by
  rw [resolve] at h
  split at h
  · rename_i faces hfaces
    obtain ⟨front, back, hsplit, -⟩ := List.lookup_eq_some_iff.mp hfaces
    have hmem : (key family, faces) ∈ builtinFamilies := by
      rw [show builtinFamilies = _ from hsplit]
      exact List.mem_append_right _ (List.mem_cons_self ..)
    refine List.mem_flatMap.mpr ⟨_, hmem, ?_⟩
    rw [← Except.ok.inj h]
    cases bold <;> cases italic <;> simp [Faces.choose, Faces.toList]
  · cases h

/-- The file to measure a font with. -/
def FontFace.file (font : FontFace) (bytes : ByteArray) : FontFile :=
  ⟨bytes, Number.Single.ofInt font.unitsPerEm⟩

theorem FontMetrics.load_eq_ok [Decoders] {metrics after : FontMetrics} {face : String}
    {bytes : ByteArray} :
    metrics.load face bytes = .ok after ↔
      ∃ font, Decoders.parseFont bytes = .ok font ∧ after = metrics.add face (font.file bytes) := by
  rw [load]
  cases Decoders.parseFont bytes with
  | error reason => simp
  | ok font => simp [FontFace.file, eq_comm]

theorem FontMetrics.lookup_add (metrics : FontMetrics) (face other : String) (file : FontFile) :
    (metrics.add face file).embedded.lookup other
      = if other = face then some file else metrics.embedded.lookup other := by
  rw [add, List.lookup_cons]
  by_cases h : other = face
  · simp [h]
  · rw [beq_false_of_ne h, if_neg h]
    exact lookup_filter_of_ne h _

namespace Pdf.PageCanvas

variable {canvas after : PageCanvas} {face : String}

/-! ## Calls -/

/-- Canvases with the same faces. There may be more images. -/
structure SameFaces (canvas after : PageCanvas) : Prop where
  /-- The numbers of the faces. -/
  fonts : after.fonts = canvas.fonts
  /-- What text is measured with. -/
  metrics : after.metrics = canvas.metrics
  /-- No resource changes. -/
  resources : ∀ (n : ℕ) (resource : Resource), canvas.resources[n]? = some resource →
    after.resources[n]? = some resource

theorem SameFaces.of_eq (hfonts : after.fonts = canvas.fonts := by rfl)
    (hmetrics : after.metrics = canvas.metrics := by rfl)
    (hresources : after.resources = canvas.resources := by rfl) : SameFaces canvas after :=
  ⟨hfonts, hmetrics, fun _ _ h ↦ hresources ▸ h⟩

theorem getElem?_push_of_some {α : Type} {items : Array α} {n : ℕ} {item : α}
    (h : items[n]? = some item) (last : α) : (items.push last)[n]? = some item := by
  have hlt := (Array.getElem?_eq_some_iff.mp h).1
  rwa [Array.getElem?_push_lt hlt, ← Array.getElem?_eq_getElem hlt]

theorem lookup_withFont (canvas : PageCanvas) (metrics : FontMetrics) (bytes : ByteArray)
    (face other : String) :
    (canvas.withFont metrics face bytes).fonts.lookup other
      = if other = face then some canvas.resources.size else canvas.fonts.lookup other := by
  rw [withFont, List.lookup_cons]
  by_cases h : other = face
  · simp [h]
  · rw [beq_false_of_ne h, if_neg h]

theorem isSome_font?_iff : (canvas.font? face).isSome ↔
    face ∈ builtinFaces ∨ (canvas.fonts.lookup face).isSome := by
  rw [font?]
  split
  · simp [*]
  · simp [*]

section Faces

variable [Decoders]

/-- **A call brings a face from a file or leaves the faces as they are.** -/
theorem perform_cases (canvas : PageCanvas) (call : CanvasCall) :
    SameFaces canvas (call.perform canvas) ∨ ∃ face bytes font, Decoders.parseFont bytes = .ok font ∧
      call.perform canvas
        = canvas.withFont (canvas.metrics.add face (font.file bytes)) face bytes := by
  cases call with
  | drawText start text face size =>
    left
    rcases perform_drawText canvas start text face size with ⟨font, hafter⟩ | hafter
    · rw [hafter]
      exact .of_eq
    · rw [hafter]
      exact .of_eq
  | setFillColor | setLineWidth | drawRect | drawRoundedRect | drawLine | showPage =>
    exact .inl .of_eq
  | drawImage files path corner width height =>
    left
    rcases perform_drawImage canvas files path corner width height with
      ⟨_, image, placement, rfl | ⟨size, embedded, bytes, rfl⟩, hafter⟩ | hafter
    · rw [hafter]
      exact .of_eq
    · rw [hafter]
      exact ⟨rfl, rfl, fun n resource h ↦ getElem?_push_of_some h _⟩
    · rw [hafter]
      exact .of_eq
  -- Only this call can bring a face.
  | registerFont files face path =>
    rcases perform_registerFont canvas files face path with ⟨bytes, metrics, hload, hafter⟩ | hafter
    · obtain ⟨font, hfont, rfl⟩ := FontMetrics.load_eq_ok.mp hload
      exact .inr ⟨face, bytes, font, hfont, hafter⟩
    · left
      rw [hafter]
      exact .of_eq

theorem isSome_font?_perform (h : (canvas.font? face).isSome) (call : CanvasCall) :
    ((call.perform canvas).font? face).isSome := by
  rw [isSome_font?_iff] at h ⊢
  rcases perform_cases canvas call with hsame | ⟨name, bytes, font, -, hafter⟩
  · rwa [hsame.fonts]
  · rw [hafter, lookup_withFont]
    split
    · exact .inr rfl
    · exact h

/-! ## Drawing and measuring -/

/-- The two tables name the same faces, and by the same files. -/
structure Matched (canvas : PageCanvas) : Prop where
  /-- A face with a number is measured with the file of that number. -/
  read : ∀ face n, canvas.fonts.lookup face = some n → ∃ bytes font,
    canvas.resources[n]? = some (.font face bytes) ∧ Decoders.parseFont bytes = .ok font ∧
      canvas.metrics.embedded.lookup face = some (font.file bytes)
  /-- A face without a number is measured without a file. -/
  unread : ∀ face, canvas.fonts.lookup face = none → canvas.metrics.embedded.lookup face = none

theorem matched_new (title : String) (width height : Float32) : Matched (new title width height) where
  read _ _ h := nomatch h
  unread _ _ := rfl

theorem Matched.lookup_eq_none_iff (h : Matched canvas) :
    canvas.metrics.embedded.lookup face = none ↔ canvas.fonts.lookup face = none := by
  refine ⟨fun hnone ↦ ?_, h.unread face⟩
  by_contra hsome
  obtain ⟨n, hn⟩ := Option.ne_none_iff_exists'.mp hsome
  obtain ⟨_, _, -, -, hlookup⟩ := h.read face n hn
  rw [hlookup] at hnone
  cases hnone

theorem Matched.of_sameFaces (h : Matched canvas) (hsame : SameFaces canvas after) :
    Matched after where
  read face n hlookup := by
    rw [hsame.fonts] at hlookup
    obtain ⟨bytes, font, hresource, hread, hmetrics⟩ := h.read face n hlookup
    exact ⟨bytes, font, hsame.resources _ _ hresource, hread, hsame.metrics ▸ hmetrics⟩
  unread face hlookup := by
    rw [hsame.fonts] at hlookup
    exact hsame.metrics ▸ h.unread face hlookup

/-- A face of the same name is hidden in both tables, and its file stays where it is. -/
theorem Matched.withFont (h : Matched canvas) (face : String) {bytes : ByteArray} {font : FontFace}
    (hfont : Decoders.parseFont bytes = .ok font) :
    Matched (canvas.withFont (canvas.metrics.add face (font.file bytes)) face bytes) where
  read other n hlookup := by
    rw [lookup_withFont] at hlookup
    show ∃ (bytes' : ByteArray) (font' : FontFace), _ ∧ _ ∧
      (canvas.metrics.add face _).embedded.lookup other = some (font'.file bytes')
    rw [FontMetrics.lookup_add]
    split at hlookup
    · rename_i hother
      obtain rfl := Option.some.inj hlookup
      exact ⟨bytes, font, by simp [PageCanvas.withFont, hother], hfont, by rw [if_pos hother]⟩
    · rename_i hother
      obtain ⟨bytes', font', hresource, hread, hmetrics⟩ := h.read other n hlookup
      exact ⟨bytes', font', getElem?_push_of_some hresource _, hread,
        by rw [if_neg hother, hmetrics]⟩
  unread other hlookup := by
    rw [lookup_withFont] at hlookup
    show (canvas.metrics.add face _).embedded.lookup other = none
    rw [FontMetrics.lookup_add]
    split at hlookup
    · cases hlookup
    · rename_i hother
      rw [if_neg hother]
      exact h.unread other hlookup

theorem Matched.perform (h : Matched canvas) (call : CanvasCall) : Matched (call.perform canvas) := by
  rcases perform_cases canvas call with hsame | ⟨face, bytes, font, hread, hafter⟩
  · exact h.of_sameFaces hsame
  · rw [hafter]
    exact h.withFont face hread

/-- **A face is drawn in the font it is measured with.** What a text is measured with is looked up
in the metrics (`FontMetrics.width`): the average advance of its face if there is no file for it,
and the advances of the font in the file if there is one. -/
structure DrawnAsMeasured (canvas : PageCanvas) (face : String) : Prop where
  /-- It is drawn in the built-in font exactly when it is measured by its average advance. -/
  builtin : canvas.font? face = some (.builtin face) ↔
    canvas.metrics.embedded.lookup face = none
  /-- It is drawn in the font of a file exactly when it is measured by the advances of that font. -/
  embedded : ∀ bytes, (∃ n, canvas.font? face = some (.embedded n) ∧
      canvas.resources[n]? = some (.font face bytes)) ↔
    ∃ font, Decoders.parseFont bytes = .ok font ∧
      canvas.metrics.embedded.lookup face = some (font.file bytes)

theorem Matched.drawnAsMeasured (h : Matched canvas) (hface : (canvas.font? face).isSome) :
    DrawnAsMeasured canvas face ↔ (face ∈ builtinFaces → canvas.fonts.lookup face = none) := by
  by_cases hbuiltin : face ∈ builtinFaces
  · have hfont : canvas.font? face = some (.builtin face) := if_pos hbuiltin
    constructor
    · exact fun hdrawn _ ↦ h.lookup_eq_none_iff.mp (hdrawn.builtin.mp hfont)
    · intro hnone
      have hlookup := h.lookup_eq_none_iff.mpr (hnone hbuiltin)
      exact ⟨by simp [hfont, hlookup], by simp [hfont, hlookup]⟩
  · -- A face that is not built in can only be drawn from its file.
    refine ⟨fun _ hmem ↦ absurd hmem hbuiltin, fun _ ↦ ?_⟩
    have hfont : canvas.font? face = (canvas.fonts.lookup face).map .embedded := if_neg hbuiltin
    rw [hfont, Option.isSome_map] at hface
    obtain ⟨n, hn⟩ := Option.isSome_iff_exists.mp hface
    obtain ⟨bytes, font, hresource, hread, hlookup⟩ := h.read face n hn
    constructor
    · simp [hfont, hn, hlookup]
    · intro bytes'
      rw [hfont, hn, hlookup]
      constructor
      · rintro ⟨n', hn', hresource'⟩
        cases hn'
        rw [hresource] at hresource'
        cases hresource'
        exact ⟨font, hread, rfl⟩
      · rintro ⟨font', -, hfile⟩
        obtain rfl : bytes = bytes' := congrArg FontFile.bytes (Option.some.inj hfile)
        exact ⟨n, rfl, hresource⟩

/-- The canvases of a program: those that calls lead to from a new one, and those of the machines
that commands lead to. -/
inductive Reached : PageCanvas → Prop
  /-- After calls. -/
  | calls (title : String) (width height : Float32) (calls : List CanvasCall) :
      Reached (CanvasCall.performAll (new title width height) calls)
  /-- After commands. -/
  | commands {title width height setup m}
      (h : Machine.Reachable (new title width height) setup m) : Reached m.canvas

theorem Reached.matched (h : Reached canvas) : Matched canvas := by
  have hcalls (title : String) (width height : Float32) (calls : List CanvasCall) :
      Matched (CanvasCall.performAll (new title width height) calls) :=
    CanvasCall.performAll_induction (fun _ call h ↦ h.perform call) calls
      (matched_new title width height)
  cases h with
  | calls title width height calls => exact hcalls title width height calls
  | commands h =>
    obtain ⟨calls, hcanvas, -⟩ := h.canvas_lead
    rw [hcanvas]
    exact hcalls _ _ _ calls

/-- **Only a built-in name under which a file was read is drawn in one font and measured with
another.** -/
theorem drawnAsMeasured_iff (h : Reached canvas) (hface : (canvas.font? face).isSome) :
    DrawnAsMeasured canvas face ↔ (face ∈ builtinFaces → canvas.fonts.lookup face = none) :=
  h.matched.drawnAsMeasured hface

end Faces

/-- A font file with the glyphs of a space, A, B, a, b, é and 日, which are squares of different
advances. -/
def squares : ByteArray :=
  let words (ns : List Nat) : List UInt8 := ns.flatMap Writer.twoBytes
  let zeros (count : Nat) : List UInt8 := words (List.replicate count 0)
  let entry (tag : String) (rest : List Nat) : List UInt8 := tag.toUTF8.toList ++ words rest
  let square := words [1, 0, 0, 100, 100, 2, 0, 0x0101, 0x0100, 0, 0x6400, 0, 0, 0, 0x6400, 0]
  let directory := words [1, 0, 9, 0x80, 3, 0x10]
    ++ entry "cmap" [0x01b7, 0x6724, 0, 0x9c, 0, 92] ++ entry "glyf" [0x4b28, 0x0b38, 0, 0xf8, 0, 256]
    ++ entry "head" [0x62fb, 0x44cd, 0, 0x1f8, 0, 54] ++ entry "hhea" [0x0322, 0x0329, 0, 0x230, 0, 36]
    ++ entry "hmtx" [0x10cc, 0, 0, 0x254, 0, 32] ++ entry "loca" [0x0140, 0x0100, 0, 0x274, 0, 18]
    ++ entry "maxp" [0x0009, 0, 0, 0x288, 0, 32] ++ entry "name" [0x00f6, 0x04d7, 0, 0x2a8, 0, 26]
    ++ entry "post" [0x0003, 0, 0, 0x2c4, 0, 32]
  let cmap := words [0, 1, 3, 1, 0, 12, 4, 80, 0, 16, 16, 3, 0,
    0x20, 0x41, 0x42, 0x61, 0x62, 0xe9, 0x65e5, 0xffff, 0,
    0x20, 0x41, 0x42, 0x61, 0x62, 0xe9, 0x65e5, 0xffff,
    0xffe5, 0xffc0, 0xffc0, 0xffa5, 0xffa5, 0xff1a, 0x9a1f, 1] ++ zeros 8
  let head := words [1, 0, 1, 0, 0, 0, 0x5f0f, 0x3cf5, 0, 1000] ++ zeros 10
    ++ words [1000, 1000, 0, 8, 2, 0, 0, 0]
  let hhea := words [1, 0, 800, 0xff38, 0, 1000, 0, 0, 0, 1] ++ zeros 7 ++ words [8]
  let hmtx := words [500, 0, 600, 0, 700, 0, 300, 0, 1000, 0, 250, 0, 433, 0, 517, 0]
  let loca := words [0, 16, 32, 48, 64, 80, 96, 112, 128, 0]
  let maxp := words [1, 0, 8] ++ zeros 13
  let name := words [0, 1, 18, 3, 1, 0x0409, 1, 8, 0, 0x54, 0x69, 0x6e, 0x79, 0]
  let post := words [3] ++ zeros 15
  ⟨(directory ++ cmap ++ (List.replicate 8 square).flatten
    ++ head ++ hhea ++ hmtx ++ loca ++ maxp ++ name ++ post).toArray⟩

/-- Text in the face of a file that was read is measured by that file. -/
theorem drawnAsMeasured_iff_squares : ∃ canvas : PageCanvas,
    Reached canvas ∧ canvas.font? "Squares" = some (.embedded 0) ∧ DrawnAsMeasured canvas "Squares" := by
  let files : FileSystem := ⟨fun _ ↦ true, fun _ ↦ .ok squares⟩
  let calls : List CanvasCall := [.registerFont files "Squares" ⟨"squares.ttf"⟩,
    .drawText ⟨72, 720⟩ "AB" "Squares" 10, .drawText ⟨72, 700⟩ "AB" "Courier-Bold" 10]
  have hreached : Reached (CanvasCall.performAll (new "Report" 595.28 841.89) calls) :=
    .calls "Report" 595.28 841.89 calls
  have hfont : (CanvasCall.performAll (new "Report" 595.28 841.89) calls).font? "Squares"
      = some (.embedded 0) := by decide +kernel
  exact ⟨_, hreached, hfont, (drawnAsMeasured_iff hreached (by rw [hfont]; rfl)).mpr (by decide)⟩

/-- Whatever file is read as a built-in face, it changes how wide the face counts and not what it
looks like. -/
theorem not_drawnAsMeasured_of_builtin [Decoders] {bytes : ByteArray} {font : FontFace}
    (hembed : Decoders.canEmbedFont bytes = true) (hfont : Decoders.parseFont bytes = .ok font)
    (hface : face ∈ builtinFaces) (title : String) (width height : Float32) (path : Path) :
    let files : FileSystem := ⟨fun _ ↦ true, fun _ ↦ .ok bytes⟩
    let after := CanvasCall.perform (new title width height) (.registerFont files face path)
    (after.font? face).isSome ∧ ¬DrawnAsMeasured after face := by
  intro files after
  have hafter : after = (new title width height).withFont _ face bytes :=
    (yields_registerFont.mpr ⟨bytes, _, rfl, hembed,
      FontMetrics.load_eq_ok.mpr ⟨font, hfont, rfl⟩, rfl⟩ :
      (registerFont files face path).Yields (new title width height) () _).2
  have hsome : (after.font? face).isSome := isSome_font?_iff.mpr (.inl hface)
  refine ⟨hsome, fun hdrawn ↦ ?_⟩
  have hmatched : Matched after := (matched_new title width height).perform _
  have hnone := (hmatched.drawnAsMeasured hsome).mp hdrawn hface
  rw [hafter, lookup_withFont, if_pos rfl] at hnone
  cases hnone

/-- The file of squares can be read as bold Courier. -/
theorem exists_not_drawnAsMeasured :
    ∃ canvas face, Reached canvas ∧ (canvas.font? face).isSome ∧ ¬DrawnAsMeasured canvas face := by
  have hembed : Decoders.canEmbedFont squares = true := by decide +kernel
  obtain ⟨font, hfont, -⟩ := map_eq_ok.mp
    (show (Decoders.parseFont squares).map (·.unitsPerEm) = .ok 1000 by decide +kernel)
  obtain ⟨hsome, hnot⟩ := not_drawnAsMeasured_of_builtin hembed hfont
    (show "Courier-Bold" ∈ builtinFaces by decide) "Report" 595.28 841.89 ⟨"squares.ttf"⟩
  have hreached := Reached.calls "Report" 595.28 841.89
    [.registerFont ⟨fun _ ↦ true, fun _ ↦ .ok squares⟩ "Courier-Bold" ⟨"squares.ttf"⟩]
  exact ⟨_, _, hreached, hsome, hnot⟩

end Pdf.PageCanvas

/-! ## Runs in which no command fails -/

namespace Machine

open Pdf

variable {m m' : Machine PageCanvas} {canvas : PageCanvas} {setup : PageSetup}

/-- Text can be drawn: its size is above zero, its family has faces, and the canvas has every face
of every family that is known. -/
structure Usable (m : Machine PageCanvas) : Prop where
  /-- The size is above zero. -/
  size : 0 < m.style.size
  /-- The family has faces. -/
  family : FamilyKnown m
  /-- The canvas has all faces. -/
  faces : ∀ family bold italic face, m.registry.resolve family bold italic = .ok face →
    (m.canvas.font? face).isSome

theorem usable_blank (canvas : PageCanvas) (hsize : 0 < setup.size) :
    Usable (blank canvas setup) where
  size := hsize
  family := familyKnown_blank canvas setup
  faces _ _ _ _ h := PageCanvas.isSome_font?_iff.mpr (.inl (FontRegistry.resolve_builtin h))

section Decoding

variable [Decoders]

theorem Change.usable_of_usable (h : Change m m') (hm : Usable m) : Usable m' := by
  refine ⟨?_, h.familyKnown hm.family, ?_⟩
  · cases h with
    | aside h => exact h.size ▸ hm.size
    | resize h => exact h
    | call call => exact hm.size
    | select h => exact hm.size
    | add hnew hregister => exact hm.size
  · cases h with
    | aside h => rw [h.registry, h.canvas]; exact hm.faces
    | resize h => exact hm.faces
    | call call =>
      exact fun family bold italic face h ↦
        PageCanvas.isSome_font?_perform (hm.faces family bold italic face h) call
    | select h => exact hm.faces
    | @add files family path canvas hnew hregister =>
      intro other bold italic face h
      obtain ⟨bytes, metrics, -, -, -, rfl⟩ := PageCanvas.yields_registerFont.mp hregister
      show ((m.canvas.withFont metrics _ bytes).font? face).isSome
      rw [PageCanvas.isSome_font?_iff, PageCanvas.lookup_withFont]
      -- The face was there before, or it is the one that was just read.
      rcases FontRegistry.resolve_add h with hold | rfl
      · have := hm.faces other bold italic face hold
        rw [PageCanvas.isSome_font?_iff] at this
        split
        · exact .inr rfl
        · exact this
      · exact .inr (by rw [if_pos rfl]; rfl)

theorem Unfailing.usable_machine (h : Unfailing canvas setup m) (hnan : setup.size.isNaN = false) :
    Usable m := by
  have hsize : ¬setup.size ≤ 0 := by
    clear hnan
    induction h with
    | start h => exact (result_start_eq_ok.mp h).1
    | step _ _ ih => exact ih
  exact changes_induction (fun _ _ hm h ↦ h.usable_of_usable hm) h.changes
    (usable_blank canvas (Number.Single.zero_lt_of_not_le hnan hsize))

/-- Where text can be drawn, no command fails for want of a font. -/
theorem Breakdown.hasFont {resources : Resources} {command : Command} {e : RenderError}
    (h : Breakdown resources m command e m') (hm : Usable m) :
    (∀ cause, e ≠ .unknownFamily cause) ∧ ∀ face, e ≠ .canvas (.unknownFace face) := by
  cases h with
  | refused he => exact ⟨fun _ h ↦ by rw [h] at he; exact he, fun _ h ↦ by rw [h] at he; exact he⟩
  | moveAbsolute hname hx hy => exact ⟨nofun, nofun⟩
  | moveRelative hname hx hy => exact ⟨nofun, nofun⟩
  | leftMargin hname hmargin => exact ⟨nofun, nofun⟩
  | fontName hname hgiven hnew hpath hbreaks =>
    obtain ⟨-, ⟨_, -, rfl⟩ | ⟨_, _, -, rfl, -⟩⟩ := PageCanvas.breaks_registerFont.mp hbreaks
    · exact ⟨nofun, nofun⟩
    · exact ⟨nofun, nofun⟩
  | faceless hface => exact absurd hface hm.family.face?_ne_error
  | @drawText _ text face start _ _ hface hbreaks =>
    -- The canvas has the face of the current style, also on the next page.
    obtain ⟨hnone, -, -⟩ := PageCanvas.breaks_drawText.mp hbreaks
    have hroom : Usable m.withRoom := (Change.aside (sameFonts_withRoom m)).usable_of_usable hm
    have hopened : Usable m.withRoom.opened :=
      changes_induction (fun _ _ hm h ↦ h.usable_of_usable hm) (changes_opened m.withRoom) hroom
    have hregistry : m.withRoom.opened.registry = m.registry := (sameFonts_withRoom m).registry
    have hsome := hopened.faces _ _ _ face (by rw [hregistry]; exact hface)
    rw [hnone] at hsome
    cases hsome
  | drawImage hbreaks =>
    obtain ⟨-, -, ⟨_, -, rfl⟩ | ⟨_, _, -, rfl, -⟩⟩ := PageCanvas.breaks_drawImage.mp hbreaks
    · exact ⟨nofun, nofun⟩
    · exact ⟨nofun, nofun⟩

/-- **The selected font is always usable** while no command fails: the size is above zero, the
current family has a face in every style, and the canvas has every face that the registry answers
with. So no command fails for want of a font. -/
theorem Unfailing.usable (h : Unfailing canvas setup m) (hnan : setup.size.isNaN = false) :
    0 < m.style.size ∧
      (∀ bold italic, ∃ face, m.registry.resolve m.style.family bold italic = .ok face) ∧
      (∀ family bold italic face, m.registry.resolve family bold italic = .ok face →
        face ∈ builtinFaces ∨ (m.canvas.fonts.lookup face).isSome) ∧
      ∀ resources command e, (execute resources command : Work PageCanvas Unit).Fails m e →
        (∀ cause, e ≠ .unknownFamily cause) ∧ ∀ face, e ≠ .canvas (.unknownFace face) := by
  have husable := h.usable_machine hnan
  refine ⟨husable.size, husable.family.exists_face, fun family bold italic face hface ↦ ?_, ?_⟩
  · exact PageCanvas.isSome_font?_iff.mp (husable.faces family bold italic face hface)
  · intro resources command e hfails
    obtain ⟨m', hbreaks⟩ := fails_iff_breaks.mp hfails
    exact (breakdown_of_breaks hbreaks).hasFont husable

end Decoding

/-- A machine after a family was read from a file. -/
theorem Unfailing.usable_read_family : ∃ m : Machine PageCanvas,
    Unfailing (PageCanvas.new "Report" 595.28 841.89) {} m ∧ ({} : PageSetup).size.isNaN = false ∧
      m.style.family = "Squares" ∧ 0 < m.style.size := by
  let resources : Resources := ⟨⟨[]⟩, ⟨fun _ ↦ true, fun _ ↦ .ok PageCanvas.squares⟩⟩
  let command : Command := .invoke "FONTNAME" ⟨["Squares"], .empty⟩
  have hnan : ({} : PageSetup).size.isNaN = false := by decide +kernel
  obtain ⟨m, hstart, hm⟩ := map_eq_ok.mp
    (show (Machine.start resources (PageCanvas.new "Report" 595.28 841.89) {}).result.map (fun m ↦
      let (outcome, after) := execute resources command m
      (outcome.result.toOption, after.style.family)) = .ok (some (), "Squares") by decide +kernel)
  rcases exists_yields_or_breaks (execute resources command) m with ⟨⟨⟩, hyields⟩ | ⟨e, hbreaks⟩
  · have h := (Unfailing.start hstart).step hyields
    exact ⟨_, h, hnan, (Prod.mk.inj hm).2, (h.usable hnan).1⟩
  · have hfailed : (execute resources command m).1.result.toOption = some () := (Prod.mk.inj hm).1
    rw [hbreaks.1] at hfailed
    cases hfailed

end Machine

end ReportPress
