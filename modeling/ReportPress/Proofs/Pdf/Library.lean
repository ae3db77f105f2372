import ReportPress.Pdf.Writer
import ReportPress.Proofs.Text.WinAnsi

/-!
# What the library is relied on for

The laws say what a library makes of one instruction at a time. They leave open how the glyphs of an
embedded font are numbered, how the curves of an outline are told from its lines, and by how much an
image is scaled. The program's own writer obeys them (`writer_laws`).
-/

namespace ReportPress.Pdf

/-- Whether an operator goes on with a path. -/
def Operator.continuesPath : Operator → Bool
  | .lineTo _ | .curveTo .. => true
  | _ => false

open PdfLibrary in
/-- **What is relied on.** Instructions that set something come to the operator that does so, a text
to one string, a line of points to a path that is stroked, and an image to its painting in a
graphics state of its own. -/
structure PdfLibrary.Laws [PdfLibrary] : Prop where
  fillColor : ∀ red green blue,
    operators saveOptions (.fillColor red green blue) = [.fillColor red green blue]
  outlineColor : ∀ red green blue,
    operators saveOptions (.outlineColor red green blue) = [.strokeColor red green blue]
  outlineThickness : ∀ width, operators saveOptions (.outlineThickness width) = [.lineWidth width]
  beginText : operators saveOptions .beginText = [.beginText]
  moveText : ∀ start, operators saveOptions (.moveText start) = [.moveText start]
  selectFont : ∀ font size, operators saveOptions (.selectFont font size) = [.selectFont font size]
  writeNothing : ∀ font, operators saveOptions (.writeText font []) = []
  /-- A text in ASCII is shown by its bytes. -/
  writeBuiltin : ∀ face (text : String), (∀ c ∈ text.toList, c.toNat < 0x80) →
    operators saveOptions (.writeText (.builtin face) [text])
      = [.showText (.bytes text.toUTF8.data.toList)]
  writeEmbedded : ∀ number text, ∃ shown,
    operators saveOptions (.writeText (.embedded number) [text]) = [.showText shown]
  showCodes : ∀ codes, operators saveOptions (.showCodes codes) = [.showText (.bytes codes)]
  endText : operators saveOptions .endText = [.endText]
  drawLine : ∀ first rest isClosed, ∃ middle : List Operator,
    (∀ operator ∈ middle, operator.continuesPath = true) ∧
      operators saveOptions (.drawLine (first :: rest) isClosed)
        = .moveTo first.point :: middle ++ (if isClosed then [.closePath, .stroke] else [.stroke])
  placeImage : ∀ image placement, ∃ xScale yScale,
    operators saveOptions (.placeImage image placement)
      = [.save, .place xScale yScale placement.corner, .paint image.number, .restore]

/-! ## Content -/

theorem Instruction.shown_builtin_of_ascii (face : String) {text : String}
    (h : ∀ c ∈ text.toList, c.toNat < 0x80) :
    shown (.builtin face) text = [.writeText (.builtin face) [text]] :=
  if_pos (List.all_eq_true.mpr fun c hc ↦ decide_eq_true (h c hc))

theorem Instruction.shown_builtin_of_not_ascii (face : String) {text : String}
    (h : ¬∀ c ∈ text.toList, c.toNat < 0x80) :
    shown (.builtin face) text
      = [.writeText (.builtin face) [], .showCodes (Text.WinAnsi.encode text)] :=
  if_neg fun hall ↦ h fun c hc ↦ of_decide_eq_true (List.all_eq_true.mp hall c hc)

section Content

variable [PdfLibrary]

@[simp] theorem content_nil : content [] = [] := rfl

@[simp] theorem content_cons (instruction : Instruction) (instructions : List Instruction) :
    content (instruction :: instructions)
      = PdfLibrary.operators saveOptions instruction ++ content instructions := rfl

theorem content_singleton (instruction : Instruction) :
    content [instruction] = PdfLibrary.operators saveOptions instruction :=
  List.append_nil _

@[simp] theorem content_append (instructions more : List Instruction) :
    content (instructions ++ more) = content instructions ++ content more :=
  List.flatMap_append

namespace PdfLibrary.Laws

/-- Text in a built-in face has a byte for each character, whichever way it is written. -/
theorem content_shown_builtin (h : Laws) (face text : String) :
    content (Instruction.shown (.builtin face) text)
      = [.showText (.bytes (Text.WinAnsi.encode text))] := by
  by_cases hascii : ∀ c ∈ text.toList, c.toNat < 0x80
  · rw [Instruction.shown_builtin_of_ascii face hascii, Text.WinAnsi.encode_eq_toUTF8 hascii,
      content_singleton, h.writeBuiltin face text hascii]
  · rw [Instruction.shown_builtin_of_not_ascii face hascii]
    simp [h.writeNothing, h.showCodes]

theorem content_shown (h : Laws) (font : FontRef) (text : String) :
    ∃ shown, content (Instruction.shown font text) = [.showText shown] := by
  cases font with
  | builtin face => exact ⟨_, h.content_shown_builtin face text⟩
  | embedded number =>
    obtain ⟨shown, hshown⟩ := h.writeEmbedded number text
    exact ⟨shown, by simp [Instruction.shown, hshown]⟩

/-- A text object selects one font and then shows one string. -/
theorem content_textObject (h : Laws) (start : Point) (font : FontRef) (size : Float32) (text : String) :
    ∃ shown, content (Instruction.textObject start font size text)
      = [.beginText, .moveText start, .selectFont font size, .showText shown, .endText] := by
  obtain ⟨shown, hshown⟩ := h.content_shown font text
  refine ⟨shown, ?_⟩
  simp [Instruction.textObject, h.beginText, h.moveText, h.selectFont, hshown, h.endText]

end PdfLibrary.Laws

end Content

/-! ## The program's own writer -/

theorem Writer.continuesPath_of_mem_segments {points : List (OutlinePoint Float32)}
    {operator : Operator} (h : operator ∈ segments points) : operator.continuesPath = true := by
  induction points using segments.induct with
  | case1 first second stop rest hhandle ih =>
    rw [segments, if_pos hhandle] at h
    rcases List.mem_cons.mp h with rfl | hrest
    · rfl
    · exact ih hrest
  | case2 first second stop rest hhandle ih =>
    rw [segments, if_neg hhandle] at h
    rcases List.mem_cons.mp h with rfl | hrest
    · rfl
    · exact ih hrest
  | case3 p rest hshort ih =>
    rw [segments.eq_2 _ _ hshort] at h
    rcases List.mem_cons.mp h with rfl | hrest
    · rfl
    · exact ih hrest
  | case4 => simp [segments] at h

theorem writer_laws : PdfLibrary.Laws where
  fillColor _ _ _ := rfl
  outlineColor _ _ _ := rfl
  outlineThickness _ := rfl
  beginText := rfl
  moveText _ := rfl
  selectFont _ _ := rfl
  writeNothing _ := rfl
  writeBuiltin _ _ _ := rfl
  writeEmbedded _ text := ⟨.glyphs text, rfl⟩
  showCodes _ := rfl
  endText := rfl
  drawLine _ rest _ :=
    ⟨Writer.segments rest, fun _ ↦ Writer.continuesPath_of_mem_segments, rfl⟩
  placeImage _ _ := ⟨_, _, rfl⟩

end ReportPress.Pdf
