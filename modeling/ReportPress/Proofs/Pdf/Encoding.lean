import ReportPress.Proofs.Pdf.Canvas
import ReportPress.Proofs.Pdf.Library

/-!
# The bytes of text in built-in faces

Text in a built-in face is shown in Windows-1252, a byte for each character. There are two ways to
it. A text in ASCII is handed to the library as it is, and any other text is encoded first and its
codes are shown without the library; both come to one string of the same bytes.
-/

namespace ReportPress.Pdf.PageCanvas

open Text.WinAnsi

/-- **Text in a built-in face.** It can always be drawn, as one text object that shows a byte for
each character, and what is missed is a question mark. ASCII is shown as it is. The bytes show the
text, and are read as the text with nothing replaced but what has no code and no-break spaces, just
in case it has none of the characters that are missed. -/
theorem yields_drawText_of_builtin [PdfLibrary] (hlibrary : PdfLibrary.Laws) {face : String}
    (hface : face ∈ builtinFaces) (canvas : PageCanvas) (start : Point) (text : String)
    (size : Float32) :
    ∃ (codes : List UInt8) (shown : List Instruction),
      (drawText start text face size).Yields canvas () (canvas.write
        (.beginText :: .moveText start :: .selectFont (.builtin face) size :: shown
          ++ [.endText])) ∧
      content shown = [.showText (.bytes codes)] ∧
      ((∀ c ∈ text.toList, c.toNat < 0x80) →
        shown = [.writeText (.builtin face) [text]] ∧ codes = text.toUTF8.data.toList) ∧
      ((¬∀ c ∈ text.toList, c.toNat < 0x80) →
        shown = [.writeText (.builtin face) [], .showCodes codes]) ∧
      codes.Forall₂ (fun code c ↦ if c ∈ missed then code = 0x3F else Displays code c) text.toList ∧
      (codes.Forall₂ Displays text.toList ↔ ∀ c ∈ text.toList, c ∉ missed) ∧
      (codes.map charOf? = text.toList.map (some ∘ legible) ↔ ∀ c ∈ text.toList, c ∉ missed) := by
  have hyields : (drawText start text face size).Yields canvas ()
      (canvas.write (Instruction.textObject start (.builtin face) size text)) :=
    yields_drawText.mpr ⟨.builtin face, if_pos hface, rfl⟩
  refine ⟨encode text, Instruction.shown (.builtin face) text, hyields,
    hlibrary.content_shown_builtin face text, fun hascii ↦ ⟨?_, encode_eq_toUTF8 hascii⟩,
    fun hascii ↦ ?_, ?_, ?_, ?_⟩
  · exact Instruction.shown_builtin_of_ascii face hascii
  · exact Instruction.shown_builtin_of_not_ascii face hascii
  · rw [encode, List.forall₂_map_left_iff, List.forall₂_same]
    intro c _
    split
    · exact encodeChar_missed c ‹_›
    · exact displays_encodeChar_iff.mpr ‹_›
  · rw [encode, List.forall₂_map_left_iff, List.forall₂_same]
    exact forall₂_congr fun c _ ↦ displays_encodeChar_iff
  · rw [encode, List.map_map, List.map_inj_left]
    exact forall₂_congr fun c _ ↦ charOf?_encodeChar_eq_legible_iff

/-- The sign of the euro is neither missed nor replaced. -/
theorem yields_drawText_of_builtin_euro :
    ∃ (codes : List UInt8) (shown : List Instruction),
      (drawText ⟨10, 50⟩ "5 €" "Times-Bold" 12).Yields (new "Report" 200 100) ()
        ((new "Report" 200 100).write
          (.beginText :: .moveText ⟨10, 50⟩ :: .selectFont (.builtin "Times-Bold") 12 :: shown
            ++ [.endText])) ∧
      content shown = [.showText (.bytes codes)] ∧
      shown = [.writeText (.builtin "Times-Bold") [], .showCodes codes] ∧
      codes.map charOf? = [some '5', some ' ', some '€'] := by
  obtain ⟨codes, shown, hyields, hcontent, -, hencoded, -, -, hread⟩ :=
    yields_drawText_of_builtin writer_laws (show "Times-Bold" ∈ builtinFaces by decide)
      (new "Report" 200 100) ⟨10, 50⟩ "5 €" 12
  exact ⟨codes, shown, hyields, hcontent, hencoded fun hascii ↦ absurd (hascii '€' (by simp)) (by decide),
    (hread.mpr (by simp [missed])).trans (by simp [legible, hasCode_iff, block])⟩

/-- The trade mark sign has a code, but a question mark is shown for it. -/
theorem yields_drawText_tradeMark :
    charOf? 0x99 = some '™' ∧ ¬Displays 0x3F '™' ∧
      (drawText ⟨10, 50⟩ "™" "Courier" 10).Yields (new "Report" 200 100) ()
        ((new "Report" 200 100).write
          [.beginText, .moveText ⟨10, 50⟩, .selectFont (.builtin "Courier") 10,
            .writeText (.builtin "Courier") [], .showCodes [0x3F], .endText]) := by
  have hmissed : '™' ∈ missed := by decide
  have hbyte := encodeChar_missed _ hmissed
  have hshown : Instruction.shown (.builtin "Courier") "™"
      = [.writeText (.builtin "Courier") [], .showCodes [0x3F]] := by
    rw [Instruction.shown_builtin_of_not_ascii "Courier"
        fun hascii ↦ absurd (hascii '™' (by simp)) (by decide),
      show encode "™" = [encodeChar '™'] from rfl, hbyte]
  refine ⟨by decide, fun h ↦ displays_encodeChar_iff.mp (hbyte.symm ▸ h) hmissed, ?_⟩
  refine yields_drawText.mpr ⟨.builtin "Courier", if_pos (by decide), ?_⟩
  rw [Instruction.textObject, hshown]
  rfl

end ReportPress.Pdf.PageCanvas
