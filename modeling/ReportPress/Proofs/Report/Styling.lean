import Mathlib.Data.List.Forall2
import ReportPress.Proofs.Render.Given
import ReportPress.Proofs.Report.Recorded

/-!
# The style of texts

Four things decide how a text looks: a family, two switches and a size. Each is what the last tag to
give it gave, or what the page setup says, and nothing else plays a part: neither what is drawn nor
where, neither margins nor page breaks, nor the return to a place put aside. The number of copies is
found in the same way.

The face of a text also depends on which families are known. That is not the last one but all that
were given, so it is a fold of its own (`registryAfter`). A text is drawn with what the commands
before it come to.
-/

namespace ReportPress

/-! ## What tags give -/

namespace Command

/-- Whether a tag switches something on or off, given the names that do. -/
def switch? (on off : List String) : Command → Option Bool :=
  ofTag fun name _ ↦ if name ∈ on then some true else if name ∈ off then some false else none

/-- Whether a command switches bold on or off, if it does either. -/
def bold? : Command → Option Bool := switch? ["BOLDON", "B1"] ["BOLDOFF", "B0"]

/-- Whether a command switches italic on or off, if it does either. -/
def italic? : Command → Option Bool := switch? ["ITALICON", "I1"] ["ITALICOFF", "I0"]

/-- The sizes that tags have in their names. -/
def namedSizes : List (String × Float32) :=
  [("SETFONT16", 16), ("SETFONT12", 12), ("SETFONT10", 10), ("SETFONT8", 8), ("SETFONT6", 6)]

/-- The font size that a command gives. -/
def size? : Command → Option Float32 :=
  ofTag fun name args ↦
    if name ∈ ["SETFONT", "SF"] then (args.number name 0 "size").toOption else namedSizes.lookup name

/-- The family that a command gives. -/
def family? : Command → Option String :=
  ofTag fun name args ↦
    if name = "FONTNAME" then (args.value? 0 "name").map Machine.familyName else none

/-- The number of copies that a command asks for. -/
def copies? : Command → Option Int :=
  ofTag fun name args ↦
    if name = "COPIES" then (args.integer name 0 "numcopies").toOption else none

/-- Whether a command gives nothing that decides how text looks. -/
def GivesNoStyle (command : Command) : Prop :=
  command.family? = none ∧ command.bold? = none ∧ command.italic? = none ∧ command.size? = none

end Command

/-- The style behind some commands: everything as it was given last. -/
def styleAfter (setup : PageSetup) (commands : List Command) : Style where
  family := (commands.filterMap Command.family?).getLastD setup.family
  bold := (commands.filterMap Command.bold?).getLastD false
  italic := (commands.filterMap Command.italic?).getLastD false
  size := (commands.filterMap Command.size?).getLastD setup.size

/-- The families that are known behind some commands: the built-in ones and all that were given. -/
def registryAfter (setup : PageSetup) (commands : List Command) : FontRegistry :=
  (setup.family :: commands.filterMap Command.family?).foldl FontRegistry.know .builtin

/-- The texts that commands ask for, each with the commands before the one that asks for it. -/
def requestsBehind (before : List Command) : List Command → List (List Command × String)
  | [] => []
  | command :: rest =>
    (textsOf [command]).map (before, ·) ++ requestsBehind (before ++ [command]) rest

theorem requestsBehind_concat (before commands : List Command) (command : Command) :
    requestsBehind before (commands ++ [command])
      = requestsBehind before commands ++ (textsOf [command]).map (before ++ commands, ·) := by
  induction commands generalizing before with
  | nil => simp [requestsBehind]
  | cons first rest ih => simp [requestsBehind, ih, List.append_assoc]

/-- Whether a step draws a text with the size and the face of a style. -/
def DrawStep.IsStyled (style : Style) (registry : FontRegistry) (text : String) (step : DrawStep) :
    Prop :=
  ∃ start face, step = .text start text face style.size ∧
    registry.resolve style.family style.bold style.italic = .ok face

theorem filter_content?_eq_nil {steps : List DrawStep}
    (h : steps.filterMap DrawStep.content? = []) : steps.filter (·.content?.isSome) = [] := by
  rw [List.filterMap_eq_nil_iff] at h
  exact List.filter_eq_nil_iff.mpr fun step hstep ↦ by simp [h step hstep]

/-- Whether a step draws a text that was asked for, in the style that the commands before it
give. -/
def IsRequested (setup : PageSetup) (request : List Command × String) : DrawStep → Prop :=
  DrawStep.IsStyled (styleAfter setup request.1) (registryAfter setup request.1) request.2

/-! ## The tags of each -/

namespace Operation

variable {name : String}

theorem named?_eq_some_bold {on : Bool} :
    named? name = some (.bold on) ↔ name ∈ if on then ["BOLDON", "B1"] else ["BOLDOFF", "B0"] := by
  rw [named?_eq_some_iff]
  cases on <;> simp [vocabulary]

theorem named?_eq_some_italic {on : Bool} :
    named? name = some (.italic on) ↔
      name ∈ if on then ["ITALICON", "I1"] else ["ITALICOFF", "I0"] := by
  rw [named?_eq_some_iff]
  cases on <;> simp [vocabulary]

theorem named?_eq_some_fontSize : named? name = some (.fontSize none) ↔ name ∈ ["SETFONT", "SF"] := by
  rw [named?_eq_some_iff]
  simp [vocabulary]

theorem named?_eq_some_fixedSize {size : Float32} :
    named? name = some (.fontSize (some size)) ↔ Command.namedSizes.lookup name = some size := by
  rw [named?_eq_some_iff, lookup_eq_some_iff_mem (by decide)]
  simp [vocabulary, Command.namedSizes]

theorem named?_eq_some_fontName : named? name = some .fontName ↔ name = "FONTNAME" := by
  rw [named?_eq_some_iff]
  simp [vocabulary]

theorem named?_eq_some_copies : named? name = some .copies ↔ name = "COPIES" := by
  rw [named?_eq_some_iff]
  simp [vocabulary]

end Operation

namespace Command

variable {name : String} {args : Arguments}

theorem bold?_invoke_eq_some_iff {on : Bool} :
    bold? (.invoke name args) = some on ↔ Operation.named? name = some (.bold on) := by
  rw [Operation.named?_eq_some_bold]
  simp only [bold?, switch?, ofTag]
  cases on <;> grind

theorem italic?_invoke_eq_some_iff {on : Bool} :
    italic? (.invoke name args) = some on ↔ Operation.named? name = some (.italic on) := by
  rw [Operation.named?_eq_some_italic]
  simp only [italic?, switch?, ofTag]
  cases on <;> grind

theorem size?_invoke_eq_some_iff {size : Float32} :
    size? (.invoke name args) = some size ↔
      Operation.named? name = some (.fontSize (some size)) ∨
        (Operation.named? name = some (.fontSize none) ∧ args.number name 0 "size" = .ok size) := by
  by_cases h : Operation.named? name = some (.fontSize none)
  · rw [h, size?, ofTag, if_pos (Operation.named?_eq_some_fontSize.mp h)]
    cases args.number name 0 "size" <;> simp [Except.toOption]
  · rw [size?, ofTag, if_neg (fun hname ↦ h (Operation.named?_eq_some_fontSize.mpr hname)),
      ← Operation.named?_eq_some_fixedSize]
    simp [h]

theorem family?_invoke_eq_some_iff {family : String} :
    family? (.invoke name args) = some family ↔
      Operation.named? name = some .fontName ∧
        ∃ given, args.text name 0 "name" = .ok given ∧ family = Machine.familyName given := by
  rw [Operation.named?_eq_some_fontName]
  by_cases h : name = "FONTNAME" <;>
    simp [family?, ofTag, h, Arguments.text_eq_ok_iff, eq_comm (a := family)]

theorem copies?_invoke_eq_some_iff {count : Int} :
    copies? (.invoke name args) = some count ↔
      Operation.named? name = some .copies ∧ args.integer name 0 "numcopies" = .ok count := by
  rw [Operation.named?_eq_some_copies]
  by_cases h : name = "COPIES"
  · subst h
    cases hcount : args.integer "COPIES" 0 "numcopies" <;>
      simp [copies?, ofTag, hcount, Except.toOption]
  · simp [copies?, ofTag, h]

end Command

/-! ## Commands -/

namespace Machine

open ReportPress.Action

section Given

variable {C Output : Type} [Canvas C Output] {m m' : Machine C} {resources : Resources}
  {command : Command} {commands : List Command}

theorem bold_execute (h : (execute resources command : Work C Unit).Yields m () m') :
    m'.style.bold = command.bold?.getD m.style.bold := by
  refine get_execute (fun m ↦ m.style.bold) .bold (by decide) (fun _ ↦ rfl) rfl (fun _ _ h ↦ h)
    (fun hon ↦ ⟨_, Command.bold?_invoke_eq_some_iff.mp hon, List.mem_cons_self⟩) ?_ h
  intro name args operation hname hpart happly
  cases operation with
  | bold on =>
    obtain rfl := yields_change.mp happly
    exact Command.bold?_invoke_eq_some_iff.mpr hname
  | _ => simp [Operation.touches] at hpart

theorem italic_execute (h : (execute resources command : Work C Unit).Yields m () m') :
    m'.style.italic = command.italic?.getD m.style.italic := by
  refine get_execute (fun m ↦ m.style.italic) .italic (by decide) (fun _ ↦ rfl) rfl (fun _ _ h ↦ h)
    (fun hon ↦ ⟨_, Command.italic?_invoke_eq_some_iff.mp hon, List.mem_cons_self⟩) ?_ h
  intro name args operation hname hpart happly
  cases operation with
  | italic on =>
    obtain rfl := yields_change.mp happly
    exact Command.italic?_invoke_eq_some_iff.mpr hname
  | _ => simp [Operation.touches] at hpart

theorem size_of_yields_setSize {name : String} {size : Float32}
    (h : (setSize name size : Work C Unit).Yields m () m') : m'.style.size = size := by
  by_cases hsize : size ≤ 0
  · simp [setSize, hsize] at h
  · simp only [setSize, if_neg hsize, yields_change] at h
    rw [h]

theorem size_execute (h : (execute resources command : Work C Unit).Yields m () m') :
    m'.style.size = command.size?.getD m.style.size := by
  refine get_execute (fun m ↦ m.style.size) .size (by decide) (fun _ ↦ rfl) rfl (fun _ _ h ↦ h)
    (fun hsize ↦ ?_) ?_ h
  · rcases Command.size?_invoke_eq_some_iff.mp hsize with hname | ⟨hname, -⟩ <;>
      exact ⟨_, hname, List.mem_cons_self⟩
  · intro name args operation hname hpart happly
    rw [Command.size?_invoke_eq_some_iff]
    cases operation with
    | fontSize fixed =>
      cases fixed with
      | some size =>
        rw [size_of_yields_setSize happly]
        exact .inl hname
      | none =>
        obtain ⟨size, _, hread, hset⟩ := yields_bind.mp happly
        obtain ⟨hsize, rfl⟩ := yields_argument.mp hread
        rw [size_of_yields_setSize hset]
        exact .inr ⟨hname, hsize⟩
    | _ => simp [Operation.touches] at hpart

theorem style_of_yields_selectFamily {family : String}
    (h : (selectFamily resources family : Work C Unit).Yields m () m') :
    m'.style = { m.style with family } ∧ m'.registry = m.registry.know family := by
  rcases yields_selectFamily.mp h with ⟨hknown, rfl⟩ | ⟨hnew, path, canvas, -, -, rfl⟩
  · rw [FontRegistry.know, if_pos hknown]
    exact ⟨rfl, rfl⟩
  · rw [FontRegistry.know, if_neg (by simp [hnew])]
    exact ⟨rfl, rfl⟩

/-- What a tag that gives a family does to the style and to the families that are known. -/
theorem style_of_yields_fontName {name : String} {args : Arguments}
    (h : (apply resources name args .fontName : Work C Unit).Yields m () m') :
    ∃ given, args.text name 0 "name" = .ok given ∧ m'.style.family = familyName given ∧
      m'.registry = m.registry.know (familyName given) := by
  obtain ⟨given, _, hread, hselect⟩ := yields_bind.mp h
  obtain ⟨hgiven, rfl⟩ := yields_argument.mp hread
  obtain ⟨hstyle, hregistry⟩ := style_of_yields_selectFamily hselect
  exact ⟨given, hgiven, congrArg Style.family hstyle, hregistry⟩

theorem family_execute (h : (execute resources command : Work C Unit).Yields m () m') :
    m'.style.family = command.family?.getD m.style.family := by
  refine get_execute (fun m ↦ m.style.family) .family (by decide) (fun _ ↦ rfl) rfl (fun _ _ h ↦ h)
    (fun hfamily ↦ ⟨_, (Command.family?_invoke_eq_some_iff.mp hfamily).1, List.mem_cons_self⟩) ?_ h
  intro name args operation hname hpart happly
  cases operation with
  | fontName =>
    obtain ⟨given, hgiven, hfamily, -⟩ := style_of_yields_fontName happly
    exact Command.family?_invoke_eq_some_iff.mpr ⟨hname, given, hgiven, hfamily⟩
  | _ => simp [Operation.touches] at hpart

theorem registry_execute (h : (execute resources command : Work C Unit).Yields m () m') :
    m'.registry = command.family?.elim m.registry m.registry.know := by
  by_cases hpart : .registry ∈ command.touches
  · obtain ⟨name, args, operation, rfl, hname, hpart, happly⟩ :=
      exists_apply_of_mem_touches (by decide) hpart h
    cases operation with
    | fontName =>
      obtain ⟨given, hgiven, -, hregistry⟩ := style_of_yields_fontName happly
      rw [Command.family?_invoke_eq_some_iff.mpr ⟨hname, given, hgiven, rfl⟩, hregistry]
      rfl
    | _ => simp [Operation.touches] at hpart
  · have hnone : command.family? = none :=
      Command.eq_none_of_not_mem_touches (fun _ ↦ rfl) rfl
        (fun hfamily ↦ ⟨_, (Command.family?_invoke_eq_some_iff.mp hfamily).1, by decide⟩) hpart
    rw [hnone, (touches_execute resources command).leads h .registry hpart]
    rfl

theorem copies_execute (h : (execute resources command : Work C Unit).Yields m () m') :
    (m'.copies.toNat : ℤ) = command.copies?.getD m.copies.toNat := by
  refine get_execute (fun m ↦ (m.copies.toNat : ℤ)) .copies (by decide) (fun _ ↦ rfl) rfl
    (fun _ _ h ↦ congrArg (fun copies : UInt32 ↦ (copies.toNat : ℤ)) h)
    (fun hcopies ↦ ⟨_, (Command.copies?_invoke_eq_some_iff.mp hcopies).1, List.mem_cons_self⟩) ?_ h
  intro name args operation hname hpart happly
  cases operation with
  | copies =>
    obtain ⟨count, _, hread, hset⟩ := yields_bind.mp happly
    obtain ⟨hcount, rfl⟩ := yields_argument.mp hread
    -- A count that is accepted fits, so that nothing is lost by storing it.
    have hfits : 0 ≤ count ∧ count < UInt32.size ∧
        m'.copies = UInt32.ofNat count.toNat := by
      by_cases hneg : count < 0
      · simp [hneg] at hset
      by_cases hbig : (UInt32.size : ℤ) ≤ count
      · simp only [hneg, hbig, if_true, if_false] at hset
        simp at hset
      simp only [hneg, hbig, if_false] at hset
      exact ⟨by omega, by omega, congrArg Machine.copies (yields_change.mp hset)⟩
    obtain ⟨hnonneg, hlt, hcopies⟩ := hfits
    rw [Command.copies?_invoke_eq_some_iff, hcopies, UInt32.toNat_ofNat_of_lt' (by omega),
      Int.toNat_of_nonneg hnonneg]
    exact ⟨hname, hcount⟩
  | _ => simp [Operation.touches] at hpart

/-- A command that gives no style leaves it as it was, and adds no family. -/
theorem style_execute (hcommand : command.GivesNoStyle)
    (h : (execute resources command : Work C Unit).Yields m () m') :
    m'.style = m.style ∧ m'.registry = m.registry := by
  obtain ⟨hfamily, hbold, hitalic, hsize⟩ := hcommand
  constructor
  · show (⟨m'.style.family, m'.style.bold, m'.style.italic, m'.style.size⟩ : Style) = _
    rw [family_execute h, bold_execute h, italic_execute h, size_execute h, hfamily, hbold, hitalic,
      hsize]
    rfl
  · rw [registry_execute h, hfamily]
    rfl

/-! ## Runs -/

variable {canvas : C} {setup : PageSetup} {m₀ : Machine C}

theorem style_start (h : (start resources canvas setup).result = .ok m) :
    m.style = styleAfter setup [] ∧ m.registry = registryAfter setup [] ∧ m.copies = 1 := by
  obtain ⟨-, hselect⟩ := result_start_eq_ok.mp h
  obtain ⟨hstyle, hregistry⟩ := style_of_yields_selectFamily hselect
  refine ⟨hstyle, ?_, (touches_selectFamily resources setup.family).leads hselect .copies (by decide)⟩
  rw [hregistry, registryAfter, List.filterMap_nil, List.foldl_cons, List.foldl_nil]
  rfl

theorem style_run (hstart : (start resources canvas setup).result = .ok m₀)
    (hrun : (run resources commands : Work C Unit).Yields m₀ () m) :
    m.style = styleAfter setup commands ∧ m.registry = registryAfter setup commands := by
  obtain ⟨hstyle, hregistry, -⟩ := style_start hstart
  constructor
  · have hfamily := get_run (fun m ↦ m.style.family) family_execute hrun
    have hbold := get_run (fun m ↦ m.style.bold) bold_execute hrun
    have hitalic := get_run (fun m ↦ m.style.italic) italic_execute hrun
    have hsize := get_run (fun m ↦ m.style.size) size_execute hrun
    rw [hstyle] at hfamily hbold hitalic hsize
    show (⟨m.style.family, m.style.bold, m.style.italic, m.style.size⟩ : Style) = _
    rw [hfamily, hbold, hitalic, hsize]
    rfl
  · refine run_induction (P := fun done m ↦ m.registry = registryAfter setup done) ?_ hregistry hrun
    intro done command next next' ih hnext
    rw [registry_execute hnext, ih, registryAfter, registryAfter, List.filterMap_append]
    cases h : command.family? <;> simp [h, List.foldl_append]

theorem copies_run (hstart : (start resources canvas setup).result = .ok m₀)
    (hrun : (run resources commands : Work C Unit).Yields m₀ () m) :
    (m.copies.toNat : ℤ) = (commands.filterMap Command.copies?).getLastD 1 := by
  rw [get_run (fun m ↦ (m.copies.toNat : ℤ)) copies_execute hrun, (style_start hstart).2.2]
  rfl

end Given

/-! ## Texts -/

section Texts

variable {m m' m₀ : Machine Recorder} {resources : Resources} {command : Command}
  {commands : List Command}

/-- Whether texts go on record between two machines, in the style of the first. -/
def Shows (texts : List String) (m m' : Machine Recorder) : Prop :=
  ∃ steps, m'.canvas.steps = m.canvas.steps ++ steps ∧
    List.Forall₂ (DrawStep.IsStyled m.style m.registry) texts
      (steps.filter (·.content?.isSome))

theorem shows_drawText [Decoders] {text : String} {width : Float32}
    (h : (drawText text : Work Recorder Float32).Yields m width m') :
    Shows ([text].filter (· ≠ "")) m m' := by
  by_cases hempty : text = ""
  · simp only [drawText_eq, hempty, if_true, yields_pure] at h
    exact ⟨[], by rw [h.2, List.append_nil], by simp [hempty]⟩
  · obtain ⟨face, canvas, hface, hdraw, rfl, -⟩ := (yields_drawText hempty).mp h
    obtain rfl := yields_change.mp hdraw
    let start : Point := ⟨m.withRoom.cursor.point.x, baseline m.withRoom.cursor.point.y m.style.size⟩
    refine ⟨[.text start text face m.style.size], ?_, ?_⟩
    · rw [canvas_withCanvas, Recorder.steps_record, Draws.steps_opened, (still_withRoom m).canvas]
    · rw [List.filter_cons_of_pos (by simpa using hempty), List.filter_cons_of_pos rfl]
      exact .cons ⟨start, face, rfl, hface⟩ .nil

theorem shows_output [Decoders] {text : String}
    (h : (output text : Work Recorder Unit).Yields m () m') :
    Shows ([withoutLineFeed text].filter (· ≠ "")) m m' := by
  rcases yields_output.mp h with
    ⟨rfl, rfl⟩ | ⟨body, width, drawn, hbody, hdraw, rfl⟩ | ⟨-, hbody, width, drawn, hdraw, rfl⟩
  · exact ⟨[], (List.append_nil _).symm, .nil⟩
  · obtain ⟨steps, hsteps, htexts⟩ := shows_drawText hdraw
    rw [withoutLineFeed, hbody]
    exact ⟨steps, by rw [(still_atNextLine drawn).canvas, hsteps], htexts⟩
  · obtain ⟨steps, hsteps, htexts⟩ := shows_drawText hdraw
    rw [withoutLineFeed, hbody]
    exact ⟨steps, hsteps, htexts⟩

theorem shows_execute [Decoders] (h : (execute resources command : Work Recorder Unit).Yields m () m') :
    Shows (textsOf [command]) m m' := by
  cases htext : command.text? with
  | some text =>
    rw [execute_of_text? resources htext] at h
    simpa [textsOf, htext] using shows_output h
  | none =>
    obtain ⟨steps, hdraws, htexts⟩ := writes_execute resources command h
    have hnone : textsOf [command] = [] := by simp [textsOf, htext]
    rw [hnone] at htexts ⊢
    refine ⟨steps, hdraws.steps_canvas, ?_⟩
    rw [filter_content?_eq_nil htexts]
    exact .nil

theorem texts_run [Decoders] {canvas : Recorder} {setup : PageSetup}
    (hstart : (start resources canvas setup).result = .ok m₀)
    (hrun : (run resources commands : Work Recorder Unit).Yields m₀ () m) :
    ∃ steps, m.canvas.steps = m₀.canvas.steps ++ steps ∧
      List.Forall₂ (IsRequested setup) (requestsBehind [] commands)
        (steps.filter (·.content?.isSome)) := by
  induction commands using List.reverseRecOn generalizing m with
  | nil =>
    obtain rfl := yields_run_nil.mp hrun
    exact ⟨[], (List.append_nil _).symm, .nil⟩
  | append_singleton done command ih =>
    obtain ⟨next, hdone, hlast⟩ := yields_run_append.mp hrun
    obtain ⟨_, hexecute, hnone⟩ := yields_run_cons.mp hlast
    obtain rfl := yields_run_nil.mp hnone
    obtain ⟨steps, hsteps, hbefore⟩ := ih hdone
    obtain ⟨more, hmore, htexts⟩ := shows_execute hexecute
    obtain ⟨hstyle, hregistry⟩ := style_run hstart hdone
    refine ⟨steps ++ more, by rw [hmore, hsteps, List.append_assoc], ?_⟩
    rw [requestsBehind_concat, List.filter_append, List.nil_append]
    rw [hstyle, hregistry] at htexts
    exact List.rel_append hbefore (List.forall₂_map_left_iff.mpr htexts)

end Texts

end Machine

namespace Report

variable {resources : Resources} {setup : PageSetup} {width height : Float32}
  {commands : List Command} {rendered : Rendered DrawLog}

/-- **Text looks as it was last asked to.** In a report that is drawn to its end, every text has the
size, and the face of the family, that the commands before it gave last, or else those of the page
setup, neither bold nor italic. So it is in the middle of the report as well, and commands that give
none of it leave it alone in any machine. As many copies are asked for as the last tag for them
says, or one. -/
theorem text_style_is_last_given [Decoders]
    (h : (draw resources setup (Recorder.new width height) commands).result = .ok rendered) :
    List.Forall₂ (IsRequested setup) (requestsBehind [] commands)
        (rendered.output.pages.flatten.filter (·.content?.isSome)) ∧
      (∃ m₀, (Machine.start resources (Recorder.new width height) setup).result = .ok m₀ ∧
        ∀ before, before <+: commands →
          ∃ m, (Machine.run resources before : Work Recorder Unit).Yields m₀ () m ∧
            m.style = styleAfter setup before ∧ m.registry = registryAfter setup before) ∧
      (∀ command : Command, command.GivesNoStyle → ∀ m m' : Machine Recorder,
        (Machine.execute resources command : Work Recorder Unit).Yields m () m' →
          m'.style = m.style ∧ m'.registry = m.registry) ∧
      (rendered.copies.toNat : ℤ) = (commands.filterMap Command.copies?).getLastD 1 ∧
      rendered.output.copies = rendered.copies := by
  obtain ⟨m₀, m, hstart, hrun, rfl⟩ := result_draw_eq_ok.mp h
  refine ⟨?_, ⟨m₀, hstart, ?_⟩, fun _ hcommand _ _ ↦ Machine.style_execute hcommand,
    Machine.copies_run hstart hrun, rfl⟩
  · obtain ⟨-, hselect⟩ := Machine.result_start_eq_ok.mp hstart
    obtain ⟨begun, hbegin, hnone⟩ := Machine.writes_selectFamily resources setup.family hselect
    obtain ⟨_, hdraws, -⟩ := Machine.exists_draws_run hrun
    obtain ⟨steps, hsteps, htexts⟩ := Machine.texts_run hstart hrun
    -- Before the first command a face may have been read, but no text is drawn.
    have hblank : (Machine.blank (Recorder.new width height) setup).canvas.steps = [] := rfl
    rw [Machine.output_pages_finish (hbegin.trans hdraws).sameSheet.isFinished, ← Recorder.steps,
      hsteps, hbegin.steps_canvas, hblank, List.nil_append, List.filter_append,
      filter_content?_eq_nil hnone, List.nil_append]
    exact htexts
  · rintro before ⟨rest, rfl⟩
    obtain ⟨m, hbefore, -⟩ := Machine.yields_run_append.mp hrun
    exact ⟨m, hbefore, Machine.style_run hstart hbefore⟩

/-- Two texts with everything about them changed before and between them. -/
def restyledTexts : List Command :=
  [.invoke "FONTNAME" ⟨["Times"], .empty⟩, .invoke "B1" .none, .invoke "PUSHPOS" .none,
    .literal "Total", .invoke "NEWPAGE" .none, .invoke "BOLDOFF" .none, .invoke "I1" .none,
    .invoke "SF" ⟨["7.5"], .empty⟩, .invoke "COPIES" ⟨["2"], .empty⟩, .invoke "POPPOS" .none,
    .literal "42"]

theorem text_style_is_last_given_restyled :
    ∃ rendered, (draw .empty {} (Recorder.new 595.28 841.89) restyledTexts).result = .ok rendered ∧
      (rendered.output.pages.flatten.filter (·.content?.isSome)).length = 2 ∧
      List.Forall₂ (IsRequested {}) (requestsBehind [] restyledTexts)
        (rendered.output.pages.flatten.filter (·.content?.isSome)) ∧
      styleAfter {} restyledTexts = ⟨"Times", false, true, 7.5⟩ ∧ (rendered.copies.toNat : ℤ) = 2 := by
  obtain ⟨rendered, h, hlength⟩ := map_eq_ok.mp
    (show (draw .empty {} (Recorder.new 595.28 841.89) restyledTexts).result.map
        (fun log ↦ (log.output.pages.flatten.filter (·.content?.isSome)).length) = .ok 2 by
      decide +kernel)
  obtain ⟨htexts, -, -, hcopies, -⟩ := text_style_is_last_given h
  exact ⟨rendered, h, hlength, htexts, by decide +kernel, hcopies.trans (by decide +kernel)⟩

end Report

end ReportPress
