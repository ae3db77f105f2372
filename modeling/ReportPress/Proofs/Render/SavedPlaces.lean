import Mathlib.Data.List.Infix
import Mathlib.Order.Bounds.Basic
import ReportPress.Proofs.Render.Failing
import ReportPress.Proofs.Render.Touched
import ReportPress.Proofs.Report.Recorded

/-!
# Places put aside

Two tags put the place of the cursor aside and go back to it. No other command touches the places
put aside, and none fails for want of one, so both follow from counting these two tags.

If in some commands no beginning goes back more often than it puts aside, they never reach below the
places that were there at first (`saved_run`); so commands in which the two are as many, between a
tag that puts aside and one that goes back, come back to where they began. And a report in which
nothing else goes wrong fails just where the tags that go back are first more than those that put
aside.
-/

namespace ReportPress

open ReportPress.Action

namespace Command

def isPush : Command → Bool
  | .invoke name _ => name = "PUSHPOS"
  | _ => false

def isPop : Command → Bool
  | .invoke name _ => name = "POPPOS"
  | _ => false

variable {command : Command}

theorem saved_not_mem_touches (hpush : command.isPush = false) (hpop : command.isPop = false) :
    .saved ∉ command.touches := by
  cases command with
  | literal | newline => simp [touches]
  | invoke name args =>
    intro hsaved
    rw [touches] at hsaved
    cases hname : Operation.named? name with
    | none => simp [hname] at hsaved
    | some operation =>
      rw [hname, Option.map_some, Option.getD_some] at hsaved
      rw [Operation.named?_eq_some_iff] at hname
      cases operation <;> simp_all [Operation.touches, Operation.vocabulary, isPush, isPop]

/-! ## Counting -/

def pushes (commands : List Command) : Nat := commands.countP Command.isPush

def pops (commands : List Command) : Nat := commands.countP Command.isPop

theorem pushes_append (front back : List Command) :
    pushes (front ++ back) = pushes front + pushes back := List.countP_append

theorem pops_append (front back : List Command) :
    pops (front ++ back) = pops front + pops back := List.countP_append

/-- Whether commands go back more often than they put aside. -/
def Overdrawn (commands : List Command) : Prop := pushes commands < pops commands

instance : DecidablePred Overdrawn := fun commands ↦
  inferInstanceAs (Decidable (pushes commands < pops commands))

/-- Whether commands go back as often as they put aside, and no beginning of them goes back more
often. -/
structure Balanced (commands : List Command) : Prop where
  beginnings : ∀ front, front <+: commands → ¬Overdrawn front
  total : pops commands = pushes commands

end Command

namespace Machine

variable {C Output : Type} [Canvas C Output] {m m' : Machine C} {resources : Resources}
  {command : Command} {commands : List Command}

open Command

/-! ## Single commands -/

theorem yields_push (h : command.isPush = true) :
    (execute resources command : Work C Unit).Yields m () m' ↔
      m' = { m with cursor := m.cursor.push } := by
  cases command with
  | literal | newline => cases h
  | invoke name args =>
    obtain rfl := of_decide_eq_true h
    exact yields_change

theorem yields_pop (h : command.isPop = true) :
    (execute resources command : Work C Unit).Yields m () m' ↔
      ∃ point saved, m.cursor.saved = point :: saved ∧
        m' = { m with cursor := ⟨point, saved⟩ } := by
  cases command with
  | literal | newline => cases h
  | invoke name args =>
    obtain rfl := of_decide_eq_true h
    simp only [execute, show Operation.named? "POPPOS" = some .popPosition from rfl, apply,
      yields_bind, yields_state, Cursor.pop?]
    cases hsaved : m.cursor.saved <;> simp [hsaved]

theorem counts_of_isPop (h : command.isPop = true) :
    pushes [command] = 0 ∧ pops [command] = 1 := by
  cases command with
  | literal | newline => cases h
  | invoke name args =>
    obtain rfl := of_decide_eq_true h
    exact ⟨rfl, rfl⟩

theorem isPop_of_fails (h : (execute resources command : Work C Unit).Fails m .nothingSaved) :
    command.isPop = true ∧ m.cursor.saved = [] := by
  have hpop : command.isPop = true := by
    by_contra hpop
    rw [Bool.not_eq_true] at hpop
    cases hpush : command.isPush with
    | true => exact ((yields_push hpush).mpr rfl).not_fails h
    | false =>
      exact (touches_execute resources command).saved
        (Command.saved_not_mem_touches hpush hpop) m h
  refine ⟨hpop, ?_⟩
  cases hsaved : m.cursor.saved with
  | nil => rfl
  | cons point saved => exact absurd h ((yields_pop hpop).mpr ⟨point, saved, hsaved, rfl⟩).not_fails

/-- **What a command that succeeds does to the places put aside**: it puts one more there, goes back
to the last, or leaves them alone. -/
theorem saved_cases (h : (execute resources command : Work C Unit).Yields m () m') :
    (pushes [command] = 1 ∧ pops [command] = 0 ∧
        m'.cursor.saved = m.cursor.point :: m.cursor.saved) ∨
      (pushes [command] = 0 ∧ pops [command] = 1 ∧
        m.cursor.saved = m'.cursor.point :: m'.cursor.saved) ∨
      (pushes [command] = 0 ∧ pops [command] = 0 ∧ m'.cursor.saved = m.cursor.saved) := by
  simp only [pushes, pops, List.countP_singleton]
  cases hpush : command.isPush with
  | true =>
    have hpop : command.isPop = false := by
      cases command with
      | literal | newline => cases hpush
      | invoke name args =>
        obtain rfl := of_decide_eq_true hpush
        rfl
    obtain rfl := (yields_push hpush).mp h
    exact .inl ⟨rfl, by rw [hpop]; rfl, rfl⟩
  | false =>
    cases hpop : command.isPop with
    | true =>
      obtain ⟨point, saved, hsaved, rfl⟩ := (yields_pop hpop).mp h
      exact .inr (.inl ⟨rfl, rfl, hsaved⟩)
    | false =>
      exact .inr (.inr ⟨rfl, rfl, (touches_execute resources command).leads h _
        (Command.saved_not_mem_touches hpush hpop)⟩)

/-! ## Runs -/

theorem length_saved_run (h : (run resources commands : Work C Unit).Yields m () m') :
    m'.cursor.saved.length + pops commands = m.cursor.saved.length + pushes commands := by
  refine run_induction (P := fun done n ↦
    n.cursor.saved.length + pops done = m.cursor.saved.length + pushes done) ?_ rfl h
  intro done command n n' hn hexecute
  rw [pops_append, pushes_append]
  rcases saved_cases hexecute with ⟨hpush, hpop, hsaved⟩ | ⟨hpush, hpop, hsaved⟩ | ⟨hpush, hpop, hsaved⟩
  · rw [hsaved, List.length_cons]
    omega
  · rw [hsaved, List.length_cons] at hn
    omega
  · rw [hsaved]
    omega

/-- Commands that are nowhere overdrawn leave the places that were there, under those they added. -/
theorem saved_run (hbeginnings : ∀ front, front <+: commands → ¬Overdrawn front)
    (h : (run resources commands : Work C Unit).Yields m () m') :
    ∃ added, m'.cursor.saved = added ++ m.cursor.saved ∧
      added.length + pops commands = pushes commands := by
  -- By induction on the run. What is counted goes along, and no beginning of what is done is
  -- overdrawn.
  revert hbeginnings
  refine run_induction (P := fun done n ↦ (∀ front, front <+: done → ¬Overdrawn front) →
    ∃ added, n.cursor.saved = added ++ m.cursor.saved ∧ added.length + pops done = pushes done)
    ?_ (fun _ ↦ ⟨[], rfl, rfl⟩) h
  intro done command n n' ih hexecute hbeginnings
  obtain ⟨added, hadded, hlength⟩ := ih fun front hfront ↦
    hbeginnings front (hfront.trans (List.prefix_append done [command]))
  have hwhole := hbeginnings _ List.prefix_rfl
  rw [Overdrawn, pops_append, pushes_append] at hwhole
  rw [pops_append, pushes_append]
  rcases saved_cases hexecute with ⟨hpush, hpop, hsaved⟩ | ⟨hpush, hpop, hsaved⟩ | ⟨hpush, hpop, hsaved⟩
  · refine ⟨n.cursor.point :: added, by rw [hsaved, hadded, List.cons_append], ?_⟩
    rw [List.length_cons]
    omega
  · -- Something was added, for otherwise going back would overdraw.
    cases added with
    | nil =>
      rw [List.length_nil] at hlength
      omega
    | cons point added =>
      rw [hadded, List.cons_append] at hsaved
      refine ⟨added, (List.cons.inj hsaved).2.symm, ?_⟩
      rw [List.length_cons] at hlength
      omega
  · exact ⟨added, hsaved.trans hadded, by omega⟩

/-- Balanced commands between a tag that puts the place aside and one that goes back to it leave the
cursor, and what was put aside, as they were. -/
theorem cursor_run_of_balanced (hbalanced : Balanced commands) {args args' : Arguments}
    (h : (run resources (.invoke "PUSHPOS" args :: commands ++ [.invoke "POPPOS" args']) :
      Work C Unit).Yields m () m') : m'.cursor = m.cursor := by
  obtain ⟨between, hfront, hlast⟩ := yields_run_append.mp h
  obtain ⟨pushed, hpush, hinner⟩ := yields_run_cons.mp hfront
  obtain ⟨_, hpop, hend⟩ := yields_run_cons.mp hlast
  obtain rfl := yields_run_nil.mp hend
  obtain rfl := (yields_push rfl).mp hpush
  obtain ⟨added, hadded, hlength⟩ := saved_run hbalanced.beginnings hinner
  obtain rfl : added = [] := by
    rw [hbalanced.total, Nat.add_eq_right] at hlength
    exact List.eq_nil_of_length_eq_zero hlength
  obtain ⟨point, saved, hsaved, rfl⟩ := (yields_pop rfl).mp hpop
  obtain ⟨rfl, rfl⟩ := List.cons.inj (hsaved.symm.trans hadded)
  rfl

theorem saved_start {canvas : C} {setup : PageSetup}
    (h : (start resources canvas setup).result = .ok m) : m.cursor.saved = [] :=
  (touches_selectFamily resources setup.family).leads (result_start_eq_ok.mp h).2 .saved (by decide)

/-- With nothing put aside at first, a run that succeeds is nowhere overdrawn. -/
theorem not_overdrawn_of_yields (hnone : m.cursor.saved = [])
    (h : (run resources commands : Work C Unit).Yields m () m') (count : Nat) :
    ¬Overdrawn (commands.take count) := by
  rw [← List.take_append_drop count commands] at h
  obtain ⟨between, hfront, -⟩ := yields_run_append.mp h
  have hlength := length_saved_run hfront
  rw [hnone, List.length_nil] at hlength
  rw [Overdrawn]
  omega

/-- With nothing put aside at first, a run that fails for want of a place does so where it is
overdrawn first. -/
theorem isLeast_overdrawn_of_fails {e : RenderError} (hnone : m.cursor.saved = [])
    (h : (run resources commands : Work C Unit).Fails m e) (hroot : e.root = .nothingSaved) :
    ∃ index command, IsLeast {index | Overdrawn (commands.take (index + 1))} index ∧
      commands[index]? = some command ∧ e = .atCommand index command.label .nothingSaved := by
  obtain ⟨front, command, back, between, cause, rfl, hfront, hfails, rfl⟩ := fails_run.mp h
  obtain rfl : cause = .nothingSaved := (root_of_fails hfails).symm.trans hroot
  obtain ⟨hpop, hsaved⟩ := isPop_of_fails hfails
  refine ⟨front.length, command, ⟨?_, fun index hindex ↦ ?_⟩, by simp, rfl⟩
  · obtain ⟨hpushes, hpops⟩ := counts_of_isPop hpop
    have hlength := length_saved_run hfront
    rw [hnone, hsaved, List.length_nil] at hlength
    rw [Set.mem_ofPred_eq, List.take_length_add_append, List.take_succ_cons, List.take_zero,
      Overdrawn, pushes_append, pops_append]
    omega
  · by_contra hlt
    rw [Set.mem_ofPred_eq, List.take_append_of_le_length (Nat.not_le.mp hlt)] at hindex
    exact not_overdrawn_of_yields hnone hfront _ hindex

/-- **The places put aside nest.** Whatever balanced commands do, going back behind them finds the
cursor as it was put aside in front of them. And a report in which nothing else goes wrong fails for
want of a place at the first command up to which it is overdrawn, and nowhere if there is none. -/
theorem saved_places_nest (resources : Resources) (canvas : C) (setup : PageSetup) :
    (∀ (m m' : Machine C) (inner : List Command) (args args' : Arguments), Balanced inner →
      (run resources (.invoke "PUSHPOS" args :: inner ++ [.invoke "POPPOS" args']) :
        Work C Unit).Yields m () m' → m'.cursor = m.cursor) ∧
    ∀ (m₀ : Machine C) (commands : List Command),
      (start resources canvas setup).result = .ok m₀ →
      (∀ e, (run resources commands : Work C Unit).Fails m₀ e → e.root = .nothingSaved) →
      (∀ e, (run resources commands : Work C Unit).Fails m₀ e ↔
        ∃ index command, IsLeast {index | Overdrawn (commands.take (index + 1))} index ∧
          commands[index]? = some command ∧
          e = .atCommand index command.label .nothingSaved) ∧
      ((∃ m', (run resources commands : Work C Unit).Yields m₀ () m') ↔
        ∀ index, ¬Overdrawn (commands.take (index + 1))) := by
  refine ⟨fun m m' inner args args' hinner ↦ cursor_run_of_balanced hinner, ?_⟩
  intro m₀ commands hstart honly
  have hnone := saved_start hstart
  have hfails {e : RenderError} (h : (run resources commands : Work C Unit).Fails m₀ e) :=
    isLeast_overdrawn_of_fails hnone h (honly e h)
  have hends := exists_yields_or_breaks (run resources commands : Work C Unit) m₀
  refine ⟨fun e ↦ ⟨hfails, ?_⟩, fun ⟨m', h⟩ index ↦ not_overdrawn_of_yields hnone h _, ?_⟩
  · rintro ⟨index, command, hleast, hcommand, rfl⟩
    rcases hends with ⟨_, hyields⟩ | ⟨e, hbreaks⟩
    · exact absurd hleast.1 (not_overdrawn_of_yields hnone hyields _)
    · -- It fails somehow, so it fails at the first such command, and there is only one.
      have hsome : (run resources commands : Work C Unit).Fails m₀ e := hbreaks.1
      obtain ⟨other, command', hother, hcommand', rfl⟩ := hfails hsome
      obtain rfl := hleast.unique hother
      obtain rfl := Option.some.inj (hcommand.symm.trans hcommand')
      exact hsome
  · intro hnever
    rcases hends with ⟨_, hyields⟩ | ⟨e, hbreaks⟩
    · exact ⟨_, hyields⟩
    · obtain ⟨index, -, hleast, -⟩ := hfails hbreaks.1
      exact absurd hleast.1 (hnever index)

/-- A text and a page break, with a place put aside and gone back to. -/
def balancedCommands : List Command :=
  [.literal "a", .invoke "PUSHPOS" .none, .invoke "NEWPAGE" .none, .invoke "POPPOS" .none]

/-- One place put aside, and gone back to twice. -/
def overdrawnCommands : List Command :=
  [.invoke "PUSHPOS" .none, .literal "a", .invoke "POPPOS" .none, .invoke "POPPOS" .none]

theorem balanced_balancedCommands : Balanced balancedCommands := by
  refine ⟨fun front hfront ↦ ?_, by decide⟩
  have hall : ∀ front ∈ balancedCommands.inits, ¬Overdrawn front := by decide
  exact hall front ((List.mem_inits _ _).mpr hfront)

theorem isLeast_overdrawnCommands :
    IsLeast {index | Overdrawn (overdrawnCommands.take (index + 1))} 3 := by
  refine ⟨show Overdrawn _ by decide, fun index hindex ↦ ?_⟩
  by_contra hlt
  have hnever : ∀ index < 3, ¬Overdrawn (overdrawnCommands.take (index + 1)) := by decide
  exact hnever index (Nat.not_le.mp hlt) hindex

theorem saved_places_nest_twice : ∃ m₀ m' : Machine Recorder,
    (start .empty (Recorder.new 595.28 841.89) {}).result = .ok m₀ ∧
      (run .empty (.invoke "PUSHPOS" .none :: balancedCommands ++
        [.invoke "POPPOS" .none])).Yields m₀ () m' ∧
      m'.cursor = m₀.cursor ∧
      (run .empty overdrawnCommands).Fails m₀ (.atCommand 3 "POPPOS" .nothingSaved) := by
  obtain ⟨m₀, hstart, hruns⟩ := map_eq_ok.mp
    (show (start .empty (Recorder.new 595.28 841.89) {}).result.map (fun m₀ ↦
      (decide ((run .empty (.invoke "PUSHPOS" .none :: balancedCommands ++
          [.invoke "POPPOS" .none]) m₀).1.result = .ok ()),
        decide ((run .empty overdrawnCommands m₀).1.result
          = .error (.atCommand 3 "POPPOS" .nothingSaved))))
      = .ok (true, true) by decide +kernel)
  obtain ⟨hnested, htwice⟩ := Prod.ext_iff.mp hruns
  have hyields : (run .empty _).Yields m₀ () _ := ⟨of_decide_eq_true hnested, rfl⟩
  have honly : ∀ e, (run .empty overdrawnCommands).Fails m₀ e → e.root = .nothingSaved := by
    intro e he
    obtain rfl := Except.error.inj (he.symm.trans (of_decide_eq_true htwice))
    rfl
  have hnest := saved_places_nest .empty (Recorder.new 595.28 841.89) {}
  refine ⟨m₀, _, hstart, hyields, hnest.1 _ _ _ _ _ balanced_balancedCommands hyields, ?_⟩
  exact ((hnest.2 m₀ _ hstart honly).1 _).mpr ⟨3, _, isLeast_overdrawnCommands, rfl, by decide⟩

end Machine

end ReportPress
