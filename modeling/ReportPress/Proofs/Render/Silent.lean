import ReportPress.Proofs.Render.Composing

/-!
# Commands that leave no trace

Going to another place, changing the look of what comes next, remembering where boxes and lines
begin, ending lines and asking for page breaks: none of this is seen in a document unless something
is drawn afterwards. These commands change the machine, but nothing that is looked at when it is
finished (`Untraced`), so a report that ends with them is the report without them.

A page break that was asked for is not carried out by finishing. That is why even a tail of page
breaks leaves no page.
-/

namespace ReportPress

/-- Whether an operation draws nothing, sets nothing on the canvas and asks for no copies. -/
def Operation.isSilent : Operation → Bool
  | .printInit | .printEnd | .lineEnd | .newPage => true
  | .bold _ | .italic _ | .fontSize _ => true
  | .boxStart | .lineStart => true
  | .up | .down | .moveAbsolute | .moveRelative | .right => true
  | .leftMargin | .pushPosition | .popPosition => true
  | .output | .fontName | .fillColor | .copies | .boxEnd _ | .lineStop | .lineWidth | .picture => false

/-- Whether a command is a new line or a tag of a silent operation. -/
def Command.isSilent : Command → Bool
  | .literal _ => false
  | .newline => true
  | .invoke name _ => (Operation.named? name).any Operation.isSilent

example : (Operation.vocabulary.filter (·.2.isSilent)).map Prod.fst =
    ["PRINTINIT", "PRINTEND", "LEND", "newline", "LMARGIN", "PUSHPOS", "POPPOS", "BOLDON", "B1",
      "BOLDOFF", "B0", "ITALICON", "I1", "ITALICOFF", "I0", "SETFONT16", "SETFONT12", "SETFONT10",
      "SETFONT8", "SETFONT6", "SETFONT", "SF", "BOXS", "RBOXS", "LINES", "L1", "NEWPAGE", "UP",
      "DOWN", "MA", "MR", "RIGHT"] := by
  decide

namespace Machine

open Number ReportPress.Action

variable {C Output : Type} [Canvas C Output] {m m' m'' : Machine C}

/-! ## What is looked at in the end -/

/-- Machines that differ in nothing that is looked at when they are finished. -/
structure Untraced (m m' : Machine C) : Prop extends Still m m' where
  copies : m'.copies = m.copies

instance : IsPreorder (Machine C) Untraced where
  refl m := ⟨Still.refl m, rfl⟩
  trans _ _ _ h h' := ⟨h.toStill.trans h'.toStill, h'.copies.trans h.copies⟩

theorem Untraced.finish (h : Untraced m m') : m'.finish = m.finish := by
  have hcanvas : m'.pages.finish.canvas = m.pages.finish.canvas := by
    have hpages : m'.pages.canvas = m.pages.canvas := h.canvas
    simp only [Pages.finish, h.isFinished]
    split
    · exact hpages
    · exact congrArg Canvas.showPage hpages
  simp only [Machine.finish, hcanvas, h.title, h.copies]

/-! ## Operations -/

theorem Beside.untraced (h : Beside m m') : Untraced m m' := ⟨h.still, h.copies⟩

theorem leads_newPage : Leads Untraced (newPage : Work C Unit) := by
  intro m u m' h
  obtain rfl := yields_newPage.mp h
  exact ⟨⟨⟨rfl, rfl, rfl, rfl, rfl⟩, rfl, rfl⟩, rfl⟩

theorem leads_beside (f : Machine C → Machine C) (hf : ∀ m, Beside m (f m)) :
    Leads Untraced (Action.change f : Work C Unit) := Leads.change fun m ↦ (hf m).untraced

theorem leads_lineEnd : Leads Untraced (lineEnd : Work C Unit) :=
  composes_leads.lineEnd leads_beside leads_newPage

/-- **A silent operation leaves no trace.** -/
theorem leads_apply (resources : Resources) (name : String) (args : Arguments)
    {operation : Operation} (h : operation.isSilent = true) :
    Leads Untraced (apply resources name args operation : Work C Unit) := by
  cases operation with
  | output | fontName | fillColor | copies | boxEnd | lineStop | lineWidth | picture => cases h
  | lineEnd => exact leads_lineEnd
  | fontSize fixed =>
    exact composes_leads.apply_fontSize fun _ _ _ ↦ composes_leads.setSize name <|
      Leads.change fun m ↦ ⟨⟨⟨rfl, rfl, rfl, rfl, rfl⟩, rfl, rfl⟩, rfl⟩
  | newPage => exact leads_newPage
  | _ => exact composes_leads.apply_of_keepsBooks leads_beside rfl

theorem leads_execute (resources : Resources) {command : Command} (h : command.isSilent = true) :
    Leads Untraced (execute resources command : Work C Unit) := by
  cases command with
  | literal text => cases h
  | newline => exact leads_lineEnd
  | invoke name args =>
    simp only [execute]
    obtain ⟨operation, hname, hsilent⟩ := (Option.any_eq_true ..).mp h
    rw [hname]
    exact leads_apply resources name args hsilent

theorem untraced_run {resources : Resources} {commands : List Command}
    (hsilent : ∀ command ∈ commands, command.isSilent = true)
    (h : (run resources commands : Work C Unit).Yields m () m') : Untraced m m' := by
  induction commands generalizing m with
  | nil =>
    obtain rfl := yields_run_nil.mp h
    exact refl_of Untraced _
  | cons command rest ih =>
    obtain ⟨hfirst, hrest⟩ := List.forall_mem_cons.mp hsilent
    obtain ⟨next, hexecute, hrun⟩ := yields_run_cons.mp h
    exact trans_of Untraced (leads_execute resources hfirst hexecute) (ih hrest hrun)

end Machine

end ReportPress
