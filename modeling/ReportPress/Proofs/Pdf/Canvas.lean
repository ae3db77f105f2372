import ReportPress.Pdf.Canvas
import ReportPress.Proofs.Canvas.Calls

/-!
# What the calls of the page canvas come to

The three calls that can fail, each with the canvas that it leaves behind and with its errors.
Placing an image and reading a face add at most one resource, at the end, and nothing else is ever
done to the resources; when they fail they change nothing. What a call leaves behind when nobody
asks whether it succeeded comes last.
-/

namespace ReportPress.Pdf.PageCanvas

variable {canvas after : PageCanvas} {files : FileSystem} {e : CanvasError}

def withImage (canvas : PageCanvas) (path : Path) (size embedded : PixelSize) (bytes : ByteArray) :
    PageCanvas :=
  { canvas with
    resources := canvas.resources.push (.image path embedded bytes)
    images := ⟨path, ⟨canvas.resources.size, embedded⟩, size⟩ :: canvas.images }

def withFont (canvas : PageCanvas) (metrics : FontMetrics) (face : String) (bytes : ByteArray) :
    PageCanvas :=
  { canvas with
    metrics
    fonts := (face, canvas.resources.size) :: canvas.fonts
    resources := canvas.resources.push (.font face bytes) }

theorem toList_instructions_write (canvas : PageCanvas) (instructions : List Instruction) :
    (canvas.write instructions).instructions.toList
      = canvas.instructions.toList ++ instructions := by
  simp [write]

@[simp] theorem write_nil (canvas : PageCanvas) : canvas.write [] = canvas := by
  simp [write]

theorem yields_drawText {start : Point} {text face : String} {size : Float32} {u : Unit} :
    (drawText start text face size).Yields canvas u after ↔
      ∃ font, canvas.font? face = some font ∧
        after = canvas.write (Instruction.textObject start font size text) := by
  cases h : canvas.font? face <;> simp [drawText, and_assoc, h]

/-- Without a face, the text object has been begun. -/
theorem breaks_drawText {start : Point} {text face : String} {size : Float32} :
    (drawText start text face size).Breaks canvas e after ↔
      canvas.font? face = none ∧ e = .unknownFace face ∧
        after = canvas.write [.beginText, .moveText start] := by
  cases h : canvas.font? face <;> simp [drawText, and_assoc, h]

variable [Decoders]

/-- An image that was placed before is found; any other is read from its file. -/
theorem yields_loadImage {path : Path} {image : PlacedImage} :
    (loadImage files path).Yields canvas image after ↔
      (canvas.images.find? (·.path.sameAs path) = some image ∧ after = canvas) ∨
      (canvas.images.find? (·.path.sameAs path) = none ∧ ∃ bytes size embedded,
        files.read path = .ok bytes ∧ Decoders.decodeImage bytes = .ok size ∧
        Decoders.embedImage bytes = .ok embedded ∧
        image = ⟨path, ⟨canvas.resources.size, embedded⟩, size⟩ ∧
        after = canvas.withImage path size embedded bytes) := by
  cases hfind : canvas.images.find? (·.path.sameAs path) with
  | some known => simp [loadImage, and_assoc, hfind, eq_comm]
  | none =>
    cases hread : files.read path with
    | error e => simp [loadImage, and_assoc, hfind, hread]
    | ok bytes =>
      cases hsize : Decoders.decodeImage bytes with
      | error reason => simp [loadImage, and_assoc, hfind, hread, hsize]
      | ok size =>
        cases hembedded : Decoders.embedImage bytes with
        | error reason => simp [loadImage, and_assoc, hfind, hread, hsize, hembedded]
        | ok embedded =>
          simp [loadImage, and_assoc, and_comm, hfind, hread, hsize, hembedded, withImage]

theorem yields_drawImage {path : Path} {corner : Point} {width height : Option Float32} {u : Unit} :
    (drawImage files path corner width height).Yields canvas u after ↔
      ∃ image placed, (loadImage files path).Yields canvas image placed ∧
        after = placed.write [.image image.ref image.size corner width height] := by
  simp [drawImage]

theorem yields_registerFont {face : String} {path : Path} {u : Unit} :
    (registerFont files face path).Yields canvas u after ↔
      ∃ bytes metrics, files.read path = .ok bytes ∧ Decoders.canEmbedFont bytes = true ∧
        canvas.metrics.load face bytes = .ok metrics ∧
        after = canvas.withFont metrics face bytes := by
  cases hread : files.read path with
  | error e => simp [registerFont, hread]
  | ok bytes =>
    cases hembed : Decoders.canEmbedFont bytes with
    | false => simp [registerFont, and_assoc, hread, hembed]
    | true =>
      cases hload : canvas.metrics.load face bytes with
      | error e => simp [registerFont, and_assoc, hread, hembed, hload]
      | ok metrics => simp [registerFont, and_assoc, hread, hembed, hload, withFont]

theorem breaks_drawImage {path : Path} {corner : Point} {width height : Option Float32} :
    (drawImage files path corner width height).Breaks canvas e after ↔
      canvas.images.find? (·.path.sameAs path) = none ∧ after = canvas ∧
        ((∃ cause, files.read path = .error cause ∧ e = .unreadable cause) ∨
          ∃ bytes reason, files.read path = .ok bytes ∧ e = .unusableImage ⟨path, reason⟩ ∧
            (Decoders.decodeImage bytes = .error reason ∨
              (∃ size, Decoders.decodeImage bytes = .ok size) ∧
                Decoders.embedImage bytes = .error reason)) := by
  cases hfind : canvas.images.find? (·.path.sameAs path) with
  | some known => simp [drawImage, loadImage, hfind]
  | none =>
    cases hread : files.read path with
    | error cause => simp [drawImage, loadImage, and_assoc, and_comm, eq_comm (a := e), hfind, hread]
    | ok bytes =>
      cases hsize : Decoders.decodeImage bytes with
      | error reason =>
        simp [drawImage, loadImage, and_assoc, and_comm, eq_comm (a := e), hfind, hread, hsize]
      | ok size =>
        cases hembedded : Decoders.embedImage bytes with
        | error reason =>
          simp [drawImage, loadImage, and_assoc, and_comm, eq_comm (a := e), hfind, hread, hsize,
            hembedded]
        | ok embedded => simp [drawImage, loadImage, hfind, hread, hsize, hembedded]

theorem breaks_registerFont {face : String} {path : Path} :
    (registerFont files face path).Breaks canvas e after ↔
      after = canvas ∧
        ((∃ cause, files.read path = .error cause ∧ e = .unreadable cause) ∨
          ∃ bytes reason, files.read path = .ok bytes ∧ e = .unusableFont face reason ∧
            ((Decoders.canEmbedFont bytes = false ∧
                reason = s!"{path.text} is not a usable font file") ∨
              Decoders.canEmbedFont bytes = true ∧
                canvas.metrics.load face bytes = .error reason)) := by
  cases hread : files.read path with
  | error cause => simp [registerFont, and_comm, eq_comm (a := e), hread]
  | ok bytes =>
    cases hembed : Decoders.canEmbedFont bytes with
    | false => simp [registerFont, and_assoc, and_comm, hread, hembed]
    | true =>
      cases hload : canvas.metrics.load face bytes with
      | error reason =>
        simp [registerFont, and_assoc, and_comm, eq_comm (a := e), hread, hembed, hload]
      | ok metrics => simp [registerFont, hread, hembed, hload]

/-! ## Whether they succeed or not -/

theorem perform_drawText (canvas : PageCanvas) (start : Point) (text face : String)
    (size : Float32) :
    (∃ font, CanvasCall.perform canvas (.drawText start text face size)
        = canvas.write (Instruction.textObject start font size text)) ∨
      CanvasCall.perform canvas (.drawText start text face size)
        = canvas.write [.beginText, .moveText start] := by
  rcases Action.exists_yields_or_breaks (drawText start text face size) canvas with ⟨u, h⟩ | ⟨e, h⟩
  · obtain ⟨font, -, hafter⟩ := yields_drawText.mp h
    exact .inl ⟨font, hafter⟩
  · obtain ⟨-, -, hafter⟩ := breaks_drawText.mp h
    exact .inr hafter

theorem perform_drawImage (canvas : PageCanvas) (files : FileSystem) (path : Path) (corner : Point)
    (width height : Option Float32) :
    (∃ placed image placement,
        (placed = canvas ∨ ∃ size embedded bytes,
          placed = canvas.withImage path size embedded bytes) ∧
        CanvasCall.perform canvas (.drawImage files path corner width height)
          = placed.write [.placeImage image placement]) ∨
      CanvasCall.perform canvas (.drawImage files path corner width height) = canvas := by
  rcases Action.exists_yields_or_breaks (drawImage files path corner width height) canvas with
    ⟨u, h⟩ | ⟨e, h⟩
  · obtain ⟨image, placed, hload, hafter⟩ := yields_drawImage.mp h
    refine .inl ⟨placed, _, _, ?_, hafter⟩
    rcases yields_loadImage.mp hload with ⟨-, rfl⟩ | ⟨-, bytes, size, embedded, -, -, -, -, rfl⟩
    · exact .inl rfl
    · exact .inr ⟨size, embedded, bytes, rfl⟩
  · obtain ⟨-, hafter, -⟩ := breaks_drawImage.mp h
    exact .inr hafter

theorem perform_registerFont (canvas : PageCanvas) (files : FileSystem) (face : String)
    (path : Path) :
    (∃ bytes metrics, canvas.metrics.load face bytes = .ok metrics ∧
        CanvasCall.perform canvas (.registerFont files face path)
          = canvas.withFont metrics face bytes) ∨
      CanvasCall.perform canvas (.registerFont files face path) = canvas := by
  rcases Action.exists_yields_or_breaks (registerFont files face path) canvas with ⟨u, h⟩ | ⟨e, h⟩
  · obtain ⟨bytes, metrics, -, -, hload, hafter⟩ := yields_registerFont.mp h
    exact .inl ⟨bytes, metrics, hload, hafter⟩
  · obtain ⟨hafter, -⟩ := breaks_registerFont.mp h
    exact .inr hafter

end ReportPress.Pdf.PageCanvas
