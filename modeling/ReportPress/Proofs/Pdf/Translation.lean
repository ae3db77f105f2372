import ReportPress.Canvas.DrawLog
import ReportPress.Pdf.Canvas
import ReportPress.Proofs.Journal.Latest

/-!
# From draw steps to page instructions

A draw step says what was drawn; a page says it in instructions. The translation of a step needs to
know the numbers that fonts and images have in the document, and looks for them in its resources.
Resources are only ever added at the end, and the first that fits counts, so a step that has a
translation keeps it (`instructions?_push`).

Colours and line widths stay in force across pages. What is in force after some steps is what was
set last.
-/

namespace ReportPress

open Pdf

/-! ## Resources by number -/

namespace Pdf

/-- The first of some resources of a kind, with its number. -/
def firstResource? {α : Type} (pick : Resource → Option α) (resources : List Resource) :
    Option (Nat × α) :=
  resources.zipIdx.findSome? fun (resource, number) ↦ (pick resource).map fun a ↦ (number, a)

theorem firstResource?_push {α : Type} (pick : Resource → Option α) (resources : Array Resource)
    (resource : Resource) :
    firstResource? pick (resources.push resource).toList
      = (firstResource? pick resources.toList).or
          ((pick resource).map fun a ↦ (resources.size, a)) := by
  simp [firstResource?, List.zipIdx_append, List.findSome?_append]

theorem firstResource?_push_of_some {α : Type} {pick : Resource → Option α}
    {resources : Array Resource} {found : Nat × α}
    (h : firstResource? pick resources.toList = some found) (resource : Resource) :
    firstResource? pick (resources.push resource).toList = some found := by
  rw [firstResource?_push, h, Option.some_or]

/-- Whether a resource is the font of a face. -/
def Resource.fontOf? (face : String) : Resource → Option Unit
  | .font other _ => if other = face then some () else none
  | .image .. => none

/-- The image of a path, if a resource is one: its size as it was embedded, and its size. -/
def Resource.imageOf? [Decoders] (path : Path) : Resource → Option (PixelSize × PixelSize)
  | .font .. => none
  | .image other embedded bytes =>
    if other.sameAs path then (Decoders.decodeImage bytes).toOption.map fun size ↦ (embedded, size)
    else none

theorem Resource.imageOf?_congr [Decoders] {path other : Path} (h : path.sameAs other = true) :
    Resource.imageOf? path = Resource.imageOf? other := by
  have hcomponents : path.components = other.components := of_decide_eq_true h
  funext resource
  cases resource with
  | font => rfl
  | image first size bytes => simp [imageOf?, Path.sameAs, hcomponents]

end Pdf

/-! ## Steps -/

namespace DrawStep

/-- The instructions that a step comes to, in a document with these resources. Reading a face leaves
nothing on the page. -/
def instructions? [Decoders] (resources : List Resource) : DrawStep → Option (List Instruction)
  | .text start content face size =>
    if face ∈ builtinFaces then
      some (Instruction.textObject start (.builtin face) size content)
    else
      (firstResource? (Resource.fontOf? face) resources).map fun (number, _) ↦
        Instruction.textObject start (.embedded number) size content
  | .fillColor red green blue => some [.fillColor red green blue]
  | .lineWidth width => some [.outlineThickness width]
  | .rect a b => some [.strokeOutline (Outline.ofRect a b)]
  | .roundedRect a b radius => some [.strokeOutline (Outline.ofRoundedRect a b radius)]
  | .line start stop => some [.strokeLine start stop]
  | .image path corner width height =>
    (firstResource? (Resource.imageOf? ⟨path⟩) resources).map fun (number, embedded, size) ↦
      [.image ⟨number, embedded⟩ size corner width height]
  | .registerFont _ _ => some []

theorem instructions?_push [Decoders] {resources : Array Resource} {step : DrawStep}
    {instructions : List Instruction} (h : step.instructions? resources.toList = some instructions)
    (resource : Resource) :
    step.instructions? (resources.push resource).toList = some instructions := by
  cases step with
  | text start content face size =>
    simp only [instructions?] at h ⊢
    split at h
    · rwa [if_pos ‹_›]
    · obtain ⟨found, hfound, rfl⟩ := Option.map_eq_some_iff.mp h
      rw [if_neg ‹_›, firstResource?_push_of_some hfound]
      rfl
  | image path corner width height =>
    simp only [instructions?] at h ⊢
    obtain ⟨found, hfound, rfl⟩ := Option.map_eq_some_iff.mp h
    rw [firstResource?_push_of_some hfound]
    rfl
  | fillColor | lineWidth | rect | roundedRect | line | registerFont => exact h

def fill? : DrawStep → Option (Float32 × Float32 × Float32)
  | .fillColor red green blue => some (red, green, blue)
  | _ => none

def lineWidth? : DrawStep → Option Float32
  | .lineWidth width => some width
  | _ => none

end DrawStep

/-! ## Pages -/

/-- The colour in force after some steps: the last that was set, and black before that. -/
def fillInForce (steps : List DrawStep) : Float32 × Float32 × Float32 :=
  (steps.filterMap DrawStep.fill?).getLastD (0, 0, 0)

/-- The line width in force after some steps: the last that was set, and one point before that. -/
def lineWidthInForce (steps : List DrawStep) : Float32 :=
  (steps.filterMap DrawStep.lineWidth?).getLastD 1

@[simp] theorem fillInForce_concat (steps : List DrawStep) (step : DrawStep) :
    fillInForce (steps ++ [step]) = step.fill?.getD (fillInForce steps) :=
  getLastD_filterMap_concat ..

@[simp] theorem lineWidthInForce_concat (steps : List DrawStep) (step : DrawStep) :
    lineWidthInForce (steps ++ [step]) = step.lineWidth?.getD (lineWidthInForce steps) :=
  getLastD_filterMap_concat ..

variable [Decoders]

/-- The steps of a page in instructions, one after the other. -/
def translation? (resources : List Resource) (steps : List DrawStep) : Option (List Instruction) :=
  (steps.mapM (DrawStep.instructions? resources)).map List.flatten

@[simp] theorem translation?_nil (resources : List Resource) :
    translation? resources [] = some [] := rfl

theorem translation?_cons_eq_some {resources : List Resource} {step : DrawStep}
    {steps : List DrawStep} {instructions : List Instruction} :
    translation? resources (step :: steps) = some instructions ↔
      ∃ front back, step.instructions? resources = some front ∧
        translation? resources steps = some back ∧ instructions = front ++ back := by
  simp only [translation?, List.mapM_cons]
  cases step.instructions? resources with
  | none => simp
  | some front =>
    cases steps.mapM (DrawStep.instructions? resources) with
    | none => simp
    | some parts => simp [eq_comm]

theorem translation?_concat {resources : List Resource} {steps : List DrawStep} {step : DrawStep}
    {instructions more : List Instruction} (h : translation? resources steps = some instructions)
    (hstep : step.instructions? resources = some more) :
    translation? resources (steps ++ [step]) = some (instructions ++ more) := by
  obtain ⟨parts, hparts, rfl⟩ := Option.map_eq_some_iff.mp h
  simp [translation?, List.mapM_append, hparts, hstep]

theorem translation?_push {resources : Array Resource} {steps : List DrawStep}
    {instructions : List Instruction} (h : translation? resources.toList steps = some instructions)
    (resource : Resource) :
    translation? (resources.push resource).toList steps = some instructions := by
  induction steps generalizing instructions with
  | nil => exact h
  | cons step steps ih =>
    obtain ⟨front, back, hfront, hback, rfl⟩ := translation?_cons_eq_some.mp h
    exact translation?_cons_eq_some.mpr
      ⟨front, back, DrawStep.instructions?_push hfront resource, ih hback, rfl⟩

end ReportPress
