import ReportPress.Proofs.Render.Composing

/-!
# What commands write

A command that succeeds draws, and the texts it draws are those it asks for: no command draws a text
that it was not given, none leaves one out, and none draws one twice. `Writes` says this of an
action, with a rule for every way in which actions are put together, and writing nothing composes.
The commands follow part by part, and runs by induction (`exists_draws_run`).
-/

namespace ReportPress

open Number

/-! ## Asking for text -/

/-- A text without one line feed at its end. -/
def withoutLineFeed (text : String) : String := (Machine.withoutLineFeed? text).getD text

theorem Machine.withoutLineFeed?_eq_some {text body : String} :
    withoutLineFeed? text = some body ↔ text = body ++ "\n" := by
  simp only [withoutLineFeed?, String.ext_iff, String.toList_append]
  constructor
  · intro h
    split at h
    · obtain rfl := Option.some.inj h
      rw [String.toList_ofList]
      exact (List.dropLast_append_getLast? _ ‹_›).symm
    · cases h
  · intro h
    rw [h, if_pos (by simp [show "\n".toList = ['\n'] from rfl])]
    simp [show "\n".toList = ['\n'] from rfl]

/-- The text that a command asks for: a literal itself, and the argument of the two tags that show
text. -/
def Command.text? : Command → Option String
  | .literal text => some text
  | .newline => none
  | .invoke name args =>
    if name = "printstring" ∨ name = "SHOWLINE" then
      some ((args.keyword.get? "line" <|> args.positional.head?).getD "")
    else none

/-- The texts that commands ask for, as they are drawn: without one line feed at the end, and only
those with something left. -/
def textsOf (commands : List Command) : List String :=
  ((commands.filterMap Command.text?).map withoutLineFeed).filter (· ≠ "")

@[simp] theorem textsOf_nil : textsOf [] = [] := rfl

@[simp] theorem textsOf_append (front back : List Command) :
    textsOf (front ++ back) = textsOf front ++ textsOf back := by
  simp [textsOf]

/-- The texts that a tag of this meaning asks for. -/
def textsOfOperation (args : Arguments) : Operation → List String
  | .output => [withoutLineFeed ((args.value? 0 "line").getD "")].filter (· ≠ "")
  | _ => []

theorem Operation.named?_eq_some_output {name : String} :
    named? name = some .output ↔ name = "printstring" ∨ name = "SHOWLINE" := by
  rw [named?_eq_some_iff]
  simp [vocabulary]

theorem Arguments.value?_getD (args : Arguments) :
    (args.value? 0 "line").getD ""
      = (args.keyword.get? "line" <|> args.positional.head?).getD "" := by
  rw [value?, List.head?_eq_getElem?]
  generalize (args.keyword.get? "line" <|> args.positional[0]?) = found
  split
  · rfl
  · rfl

theorem textsOf_invoke {name : String} (args : Arguments) {operation : Operation}
    (h : Operation.named? name = some operation) :
    textsOf [.invoke name args] = textsOfOperation args operation := by
  by_cases houtput : operation = .output
  · subst houtput
    have hname := Operation.named?_eq_some_output.mp h
    simp [textsOf, Command.text?, textsOfOperation, hname, Arguments.value?_getD]
  · have hname : ¬(name = "printstring" ∨ name = "SHOWLINE") := by
      intro hname
      exact houtput (Option.some.inj (h.symm.trans (Operation.named?_eq_some_output.mpr hname)))
    have hnone : textsOfOperation args operation = [] := by
      cases operation <;> first | rfl | exact absurd rfl houtput
    simp [textsOf, Command.text?, hname, hnone]

theorem textsOf_invoke_of_none {name : String} (args : Arguments)
    (h : Operation.named? name = none) : textsOf [.invoke name args] = [] := by
  have hname : ¬(name = "printstring" ∨ name = "SHOWLINE") := by
    intro hname
    rw [Operation.named?_eq_some_output.mpr hname] at h
    cases h
  simp [textsOf, Command.text?, hname]

namespace Machine

theorem execute_of_text? {C Output : Type} [Canvas C Output] (resources : Resources)
    {command : Command} {text : String} (h : command.text? = some text) :
    (execute resources command : Work C Unit) = output text := by
  cases command with
  | literal literal => exact congrArg output (Option.some.inj h)
  | newline => cases h
  | invoke name args =>
    by_cases hname : name = "printstring" ∨ name = "SHOWLINE"
    · rw [Command.text?, if_pos hname, ← Arguments.value?_getD] at h
      rw [execute, Operation.named?_eq_some_output.mpr hname]
      exact congrArg output (Option.some.inj h)
    · rw [Command.text?, if_neg hname] at h
      cases h

/-! ## What stays -/

section Still

variable (m : Machine Recorder)

theorem still_moveTo (point : Point) : Still m (m.moveTo point) :=
  ⟨⟨rfl, rfl, rfl, rfl, rfl⟩, rfl, rfl⟩

theorem still_inFamily (family : String) : Still m (m.inFamily family) :=
  ⟨⟨rfl, rfl, rfl, rfl, rfl⟩, rfl, rfl⟩

theorem still_withRegistry (registry : FontRegistry) : Still m (m.withRegistry registry) :=
  ⟨⟨rfl, rfl, rfl, rfl, rfl⟩, rfl, rfl⟩

theorem still_atNextPage : Still m m.atNextPage := ⟨⟨rfl, rfl, rfl, rfl, rfl⟩, rfl, rfl⟩

theorem still_atNextLine : Still m m.atNextLine := by
  simp only [atNextLine]
  split
  · exact still_moveTo m _
  · exact still_atNextPage m

theorem still_withRoom : Still m m.withRoom := by
  rw [withRoom]
  split
  · exact Still.refl m
  · exact still_atNextPage m

/-- Where there is room, a text may be drawn on the line of the cursor. -/
theorem hasRoom_withRoom (x : Float32) (text face : String) :
    m.withRoom.HasRoom
      (.text ⟨x, baseline m.withRoom.cursor.point.y m.style.size⟩ text face m.style.size) := by
  refine ⟨m.withRoom.cursor.point.y, rfl, ?_⟩
  by_cases hfits : lineFits m.cursor.point.y m.style.size m.margins.bottom = true
  · left
    rw [withRoom, if_pos hfits]
    exact hfits
  · -- The line is the first of the page that the break just asked for.
    right
    rw [withRoom, if_neg hfits]
    exact ⟨rfl, rfl⟩

end Still

/-! ## Writing -/

variable [Decoders]

/-- Whether an action that succeeds draws steps with these texts. -/
def Writes {α : Type} (texts : List String) (x : Work Recorder α) : Prop :=
  ∀ ⦃m a m'⦄, x.Yields m a m' →
    ∃ steps, Draws m steps m' ∧ steps.filterMap DrawStep.content? = texts

namespace Writes

variable {α β : Type} {texts texts' : List String}

theorem of_still {x : Work Recorder α} (h : Action.Leads Still x) : Writes [] x :=
  fun _ _ _ hx ↦ ⟨[], .still (h hx), rfl⟩

theorem pure (a : α) : Writes [] (pure a) := of_still (Action.Leads.pure a)

theorem note (event : Event) : Writes [] (Action.note event) := of_still (Action.Leads.note event)

theorem change {f : Machine Recorder → Machine Recorder}
    (hf : ∀ m, Still m (f m) := by intro m; exact ⟨⟨rfl, rfl, rfl, rfl, rfl⟩, rfl, rfl⟩) :
    Writes [] (Action.change f) := of_still (Action.Leads.change hf)

theorem lift (x : Traced RenderError α) : Writes [] (Action.lift x) := of_still (Action.Leads.lift x)

theorem fail (e : RenderError) : Writes [] (Action.fail e : Work Recorder α) :=
  fun _ _ _ h ↦ absurd h Action.not_yields_fail

theorem bind {x : Work Recorder α} {f : α → Work Recorder β} (hx : Writes texts x)
    (hf : ∀ a, Writes texts' (f a)) : Writes (texts ++ texts') (x >>= f) := by
  intro m b m' h
  obtain ⟨a, t, hxa, hfb⟩ := Action.yields_bind.mp h
  obtain ⟨steps, hdraws, rfl⟩ := hx hxa
  obtain ⟨steps', hdraws', rfl⟩ := hf a hfb
  exact ⟨steps ++ steps', hdraws.trans hdraws', List.filterMap_append⟩

theorem state_bind {f : Machine Recorder → Work Recorder β} (hf : ∀ m, Writes texts (f m)) :
    Writes texts (Action.state >>= f) := by
  intro m b m' h
  obtain ⟨_, _, hstate, hfb⟩ := Action.yields_bind.mp h
  obtain ⟨rfl, rfl⟩ := Action.yields_state.mp hstate
  exact hf _ hfb

/-- A step that is drawn where the machine stands. -/
theorem prepare (step : DrawStep) (hstep : step.isMark = false) :
    Writes [] (Action.change (drawing (Recorder.record step))) := by
  intro m u m' h
  obtain rfl := Action.yields_change.mp h
  refine ⟨[step], .prepare m.canvas.metrics hstep, ?_⟩
  cases step <;> first | rfl | cases hstep

end Writes

theorem composes_writes : Composes (Writes [] : ∀ {α : Type}, Work Recorder α → Prop) where
  pure := Writes.pure
  fail := Writes.fail
  note := Writes.note
  lift := Writes.lift
  bind := Writes.bind
  state_bind := Writes.state_bind
  argument_bind hf := by
    intro m b m' h
    obtain ⟨a, _, hread, hfb⟩ := Action.yields_bind.mp h
    obtain ⟨ha, rfl⟩ := yields_argument.mp hread
    exact hf a ha hfb

/-! ### Lines and text -/

theorem writes_newPage : Writes [] newPage := by
  apply Writes.of_still
  intro m u m' h
  obtain rfl := yields_newPage.mp h
  exact still_atNextPage m

theorem writes_lineEnd : Writes [] lineEnd := by
  apply Writes.of_still
  intro m u m' h
  obtain rfl := yields_lineEnd.mp h
  exact still_atNextLine m

theorem writes_drawText (text : String) : Writes ([text].filter (· ≠ "")) (drawText text) := by
  by_cases hempty : text = ""
  · rw [drawText_eq, if_pos hempty, hempty]
    exact Writes.pure 0
  · intro m width m' h
    obtain ⟨face, canvas, -, hdraw, rfl, -⟩ := (yields_drawText hempty).mp h
    obtain rfl := Action.yields_change.mp hdraw
    refine ⟨_, .after_still (.mark rfl (hasRoom_withRoom m _ text face)) (still_withRoom m), ?_⟩
    simp [DrawStep.content?, hempty]

theorem writes_output (text : String) :
    Writes ([withoutLineFeed text].filter (· ≠ "")) (output text) := by
  intro m u m' h
  rcases yields_output.mp h with
    ⟨rfl, rfl⟩ | ⟨body, width, drawn, hbody, hdraw, rfl⟩ | ⟨-, hbody, width, drawn, hdraw, rfl⟩
  · exact ⟨[], .still (Still.refl _), rfl⟩
  · obtain ⟨steps, hdraws, htexts⟩ := writes_drawText body hdraw
    rw [withoutLineFeed, hbody]
    exact ⟨steps, hdraws.before_still (still_atNextLine drawn), htexts⟩
  · obtain ⟨steps, hdraws, htexts⟩ := writes_drawText text hdraw
    rw [withoutLineFeed, hbody]
    exact ⟨steps, hdraws.before_still (still_moveTo drawn _), htexts⟩

/-! ### Shapes, pictures and families -/

theorem writes_boxEnd (name : String) (corners : Corners) : Writes [] (boxEnd name corners) := by
  intro m u m' h
  rcases yields_boxEnd.mp h with ⟨-, rfl⟩ | ⟨start, -, rfl⟩
  · exact ⟨[], .still (Still.refl _), rfl⟩
  · cases corners with
    | square => exact ⟨_, .mark rfl trivial, rfl⟩
    | rounded =>
      exact ⟨_, .mark rfl trivial, rfl⟩

theorem writes_lineStop (name : String) : Writes [] (lineStop name) := by
  intro m u m' h
  rcases yields_lineStop.mp h with ⟨-, rfl⟩ | ⟨start, -, rfl⟩
  · exact ⟨[], .still (Still.refl _), rfl⟩
  · exact ⟨_, .mark rfl trivial, rfl⟩

theorem writes_picture (resources : Resources) (name : String) (args : Arguments) :
    Writes [] (picture resources name args) := by
  intro m u m' h
  obtain ⟨file, path, width, height, canvas, -, -, -, -, hdraw, rfl⟩ := yields_picture.mp h
  obtain rfl := Action.yields_change.mp hdraw
  exact ⟨_, .mark rfl trivial, rfl⟩

theorem writes_selectFamily (resources : Resources) (family : String) :
    Writes [] (selectFamily resources family) := by
  intro m u m' h
  rcases yields_selectFamily.mp h with ⟨-, rfl⟩ | ⟨-, path, canvas, -, hregister, rfl⟩
  · exact ⟨[], .still (still_inFamily m family), rfl⟩
  · obtain ⟨bytes, -, rfl⟩ := Recorder.yields_registerFont.mp hregister
    -- The registry comes first, then the canvas, and the style last.
    have hprepare := Draws.prepare
      (m := m.withRegistry (m.registry.add family (FontRegistry.faceName family)))
      ((m.canvas.metrics.load (FontRegistry.faceName family) bytes).toOption.getD m.canvas.metrics)
      (rfl : (DrawStep.registerFont (FontRegistry.faceName family) path.text).isMark = false)
    exact ⟨_, (hprepare.after_still (still_withRegistry m _)).before_still (still_inFamily _ family),
      rfl⟩

/-! ### Commands -/

theorem writes_apply (resources : Resources) (name : String) (args : Arguments)
    (operation : Operation) :
    Writes (textsOfOperation args operation) (apply resources name args operation) := by
  cases operation with
  | output => exact writes_output _
  | lineEnd => exact writes_lineEnd
  | fontSize =>
    exact composes_writes.apply_fontSize fun _ _ _ ↦ composes_writes.setSize name Writes.change
  | fontName => exact composes_writes.argument_bind fun given _ ↦ writes_selectFamily resources _
  | fillColor =>
    exact composes_writes.apply_fillColor fun red green blue ↦
      Writes.prepare (.fillColor red green blue) rfl
  | copies => exact composes_writes.apply_copies fun _ ↦ Writes.change
  | boxEnd corners => exact writes_boxEnd _ corners
  | lineStop => exact writes_lineStop _
  | lineWidth => exact composes_writes.apply_lineWidth fun width ↦ Writes.prepare (.lineWidth width) rfl
  | newPage => exact writes_newPage
  | picture => exact writes_picture resources name args
  | _ => exact composes_writes.apply_of_keepsBooks (fun _ hf ↦ Writes.change fun m ↦ (hf m).still) rfl

/-- **No command writes anything but what it asks for.** -/
theorem writes_execute (resources : Resources) (command : Command) :
    Writes (textsOf [command]) (execute resources command) := by
  cases command with
  | literal text => exact writes_output text
  | newline => exact writes_lineEnd
  | invoke name args =>
    simp only [execute]
    cases hname : Operation.named? name with
    | some operation =>
      rw [textsOf_invoke args hname]
      exact writes_apply resources name args operation
    | none =>
      rw [textsOf_invoke_of_none args hname]
      exact Writes.fail _

theorem exists_draws_run {resources : Resources} {commands : List Command}
    {m m' : Machine Recorder} (h : (run resources commands : Work Recorder Unit).Yields m () m') :
    ∃ steps, Draws m steps m' ∧ steps.filterMap DrawStep.content? = textsOf commands := by
  refine run_induction (P := fun done m' ↦
    ∃ steps, Draws m steps m' ∧ steps.filterMap DrawStep.content? = textsOf done) ?_ ?_ h
  · rintro done command next next' ⟨steps, hdraws, htexts⟩ hexecute
    obtain ⟨more, hmore, hmoreTexts⟩ := writes_execute resources command hexecute
    refine ⟨steps ++ more, hdraws.trans hmore, ?_⟩
    rw [List.filterMap_append, htexts, hmoreTexts, textsOf_append]
  · exact ⟨[], .still (Still.refl m), rfl⟩

end Machine

end ReportPress
