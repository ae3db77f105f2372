import ReportPress.Proofs.Pdf.Library
import ReportPress.Proofs.Pdf.Translation

/-!
# Content that is well formed

What may follow what on a page, as a scanner that goes through the operators: a text object is begun
and ended, has one font and after it one text, and holds nothing else; a path begins with a move, is
stroked at its end, and lies outside text objects; and graphics states are taken back as often as
they are put aside. A page is well formed if it begins with the settings that pages begin with, and
the scanner gets to its end with nothing open.

Everything that is drawn leaves the scanner where it was (`Balanced`), so it can be put together in
any order.
-/

namespace ReportPress.Pdf

/-! ## The scanner -/

inductive Place where
  | page
  | text
  /-- In a text object, between its font and its text. -/
  | font
  /-- In a text object, behind its text. -/
  | shown
  | path
  deriving DecidableEq, Repr

/-- A scanner of page content. -/
structure Scanner where
  place : Place
  /-- How many graphics states are put aside. -/
  depth : Nat
  deriving DecidableEq, Repr

namespace Scanner

/-- The scanner behind an operator; none if the operator may not stand there. -/
def read? (scanner : Scanner) (operator : Operator) : Option Scanner :=
  match scanner.place, operator with
  | .page, .fillColor .. | .page, .strokeColor .. | .page, .lineWidth _ => some scanner
  | .page, .place .. | .page, .paint _ => some scanner
  | .page, .save => some { scanner with depth := scanner.depth + 1 }
  | .page, .restore =>
    if scanner.depth = 0 then none else some { scanner with depth := scanner.depth - 1 }
  | .page, .beginText => some { scanner with place := .text }
  | .text, .moveText _ | .font, .moveText _ => some scanner
  | .text, .selectFont .. => some { scanner with place := .font }
  | .font, .showText _ => some { scanner with place := .shown }
  | .shown, .endText => some { scanner with place := .page }
  | .page, .moveTo _ => some { scanner with place := .path }
  | .path, .lineTo _ | .path, .curveTo .. | .path, .closePath => some scanner
  | .path, .stroke => some { scanner with place := .page }
  | _, _ => none

/-- The scanner behind some operators, if they may stand there one after the other. -/
def readAll? (scanner : Scanner) (operators : List Operator) : Option Scanner :=
  operators.foldlM read? scanner

@[simp] theorem readAll?_nil (scanner : Scanner) : scanner.readAll? [] = some scanner := rfl

@[simp] theorem readAll?_append (scanner : Scanner) (operators more : List Operator) :
    scanner.readAll? (operators ++ more) = (scanner.readAll? operators).bind (readAll? · more) :=
  List.foldlM_append

end Scanner

/-- **Whether the content of a page is well formed.** -/
structure WellFormed (content : List Operator) : Prop where
  /-- It begins by setting the fill colour, the stroke colour and the line width. -/
  begins : ∃ red green blue red' green' blue' width rest, content =
    .fillColor red green blue :: .strokeColor red' green' blue' :: .lineWidth width :: rest
  /-- Everything that is begun on it is ended, and nothing stands where it may not. -/
  ends : Scanner.readAll? ⟨.page, 0⟩ content = some ⟨.page, 0⟩

/-! ## What is drawn -/

/-- Whether operators, wherever on a page they are, end everything that they begin. -/
def Balanced (operators : List Operator) : Prop :=
  ∀ depth, Scanner.readAll? ⟨.page, depth⟩ operators = some ⟨.page, depth⟩

theorem balanced_nil : Balanced [] := fun _ ↦ rfl

theorem Balanced.append {operators more : List Operator} (h : Balanced operators)
    (h' : Balanced more) : Balanced (operators ++ more) := by
  intro depth
  rw [Scanner.readAll?_append, h, Option.bind_some, h']

theorem Scanner.readAll?_path {operators : List Operator} {depth : Nat}
    (h : ∀ operator ∈ operators, operator.continuesPath = true) :
    readAll? ⟨.path, depth⟩ operators = some ⟨.path, depth⟩ := by
  induction operators with
  | nil => rfl
  | cons operator operators ih =>
    obtain ⟨hfirst, hrest⟩ := List.forall_mem_cons.mp h
    have hread : read? ⟨.path, depth⟩ operator = some ⟨.path, depth⟩ := by
      cases operator <;> first | rfl | cases hfirst
    rw [readAll?, List.foldlM_cons, hread]
    exact ih hrest

/-- What a page begins with, in operators. -/
def opening (fill : Float32 × Float32 × Float32) (lineWidth : Float32) : List Operator :=
  [.fillColor fill.1 fill.2.1 fill.2.2, .strokeColor 0 0 0, .lineWidth lineWidth]

/-- What a page begins with, followed by what ends everything that it begins, is well formed. -/
theorem Balanced.wellFormed {operators : List Operator} (h : Balanced operators)
    (fill : Float32 × Float32 × Float32) (lineWidth : Float32) :
    WellFormed (opening fill lineWidth ++ operators) :=
  ⟨⟨_, _, _, _, _, _, _, _, rfl⟩, h 0⟩

variable [PdfLibrary]

/-- A line of points begins with a move if it has a point. -/
theorem balanced_drawLine (hlibrary : PdfLibrary.Laws) {points : List (OutlinePoint Float32)}
    (h : points ≠ []) (isClosed : Bool) : Balanced (content [.drawLine points isClosed]) := by
  obtain ⟨first, rest, rfl⟩ := List.exists_cons_of_ne_nil h
  obtain ⟨middle, hmiddle, hpath⟩ := hlibrary.drawLine first rest isClosed
  have hstroke (depth : Nat) : Scanner.readAll? ⟨.path, depth⟩
      (if isClosed then [.closePath, .stroke] else [.stroke]) = some ⟨.page, depth⟩ := by
    cases isClosed <;> rfl
  intro depth
  rw [content_singleton, hpath]
  calc Scanner.readAll? ⟨.page, depth⟩ (.moveTo first.point :: middle
        ++ (if isClosed then [.closePath, .stroke] else [.stroke]))
      = Scanner.readAll? ⟨.path, depth⟩
          (middle ++ (if isClosed then [.closePath, .stroke] else [.stroke])) := rfl
    _ = some ⟨.page, depth⟩ := by
      rw [Scanner.readAll?_append, Scanner.readAll?_path hmiddle, Option.bind_some, hstroke]

theorem balanced_textObject (hlibrary : PdfLibrary.Laws) (start : Point) (font : FontRef)
    (size : Float32) (text : String) :
    Balanced (content (Instruction.textObject start font size text)) := by
  obtain ⟨shown, hcontent⟩ := hlibrary.content_textObject start font size text
  rw [hcontent]
  exact fun _ ↦ rfl

theorem balanced_placeImage (hlibrary : PdfLibrary.Laws) (image : ImageRef) (placement : Placement) :
    Balanced (content [.placeImage image placement]) := by
  obtain ⟨xScale, yScale, hcontent⟩ := hlibrary.placeImage image placement
  rw [content_singleton, hcontent]
  exact fun _ ↦ rfl

theorem balanced_of_instructions? [Decoders] (hlibrary : PdfLibrary.Laws) {resources : List Resource}
    {step : DrawStep} {instructions : List Instruction}
    (h : step.instructions? resources = some instructions) : Balanced (content instructions) := by
  cases step with
  | text start content face size =>
    simp only [DrawStep.instructions?] at h
    split at h
    · obtain rfl := Option.some.inj h
      exact balanced_textObject hlibrary _ _ _ _
    · obtain ⟨found, -, rfl⟩ := Option.map_eq_some_iff.mp h
      exact balanced_textObject hlibrary _ _ _ _
  | fillColor =>
    obtain rfl := Option.some.inj h
    rw [content_singleton, hlibrary.fillColor]
    exact fun _ ↦ rfl
  | lineWidth =>
    obtain rfl := Option.some.inj h
    rw [content_singleton, hlibrary.outlineThickness]
    exact fun _ ↦ rfl
  | registerFont =>
    obtain rfl := Option.some.inj h
    exact balanced_nil
  | rect | roundedRect | line =>
    obtain rfl := Option.some.inj h
    exact balanced_drawLine hlibrary (List.cons_ne_nil _ _) _
  | image path corner width height =>
    obtain ⟨found, -, rfl⟩ := Option.map_eq_some_iff.mp h
    exact balanced_placeImage hlibrary _ _

theorem balanced_of_translation? [Decoders] (hlibrary : PdfLibrary.Laws) {resources : List Resource}
    {steps : List DrawStep} {instructions : List Instruction}
    (h : translation? resources steps = some instructions) : Balanced (content instructions) := by
  induction steps generalizing instructions with
  | nil =>
    obtain rfl := Option.some.inj h
    exact balanced_nil
  | cons step steps ih =>
    obtain ⟨front, back, hfront, hback, rfl⟩ := translation?_cons_eq_some.mp h
    rw [content_append]
    exact (balanced_of_instructions? hlibrary hfront).append (ih hback)

theorem content_preamble (hlibrary : PdfLibrary.Laws) (fill : Float32 × Float32 × Float32)
    (lineWidth : Float32) :
    content (PageCanvas.preamble fill lineWidth).toList = opening fill lineWidth := by
  simp [PageCanvas.preamble, opening, hlibrary.fillColor, hlibrary.outlineColor,
    hlibrary.outlineThickness]

end ReportPress.Pdf
