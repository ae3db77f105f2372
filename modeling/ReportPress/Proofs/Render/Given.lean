import ReportPress.Proofs.Journal.Latest
import ReportPress.Proofs.Render.Touched

/-!
# What tags give

Some tags give a value for something in the machine: a switch, a size, a number of copies. What a
tag gives is told by its name and its arguments (`Command.ofTag`). If the tags that touch a part of
the machine are just those that give something for it, then a command changes it only by giving it
(`Machine.get_execute`), and behind a run there is what was given last (`Machine.get_run`).
-/

namespace ReportPress

open ReportPress.Action

namespace Command

/-- What a command gives, if it is a tag that gives something. -/
def ofTag {α : Type} (given : (name : String) → Arguments → Option α) : Command → Option α
  | .literal _ | .newline => none
  | .invoke name args => given name args

theorem mem_touches_invoke {name : String} {args : Arguments} {part : Machine.Part} :
    part ∈ (Command.invoke name args).touches ↔
      ∃ operation, Operation.named? name = some operation ∧ part ∈ operation.touches := by
  cases h : Operation.named? name <;> simp [touches, h]

/-- A command that does not touch a part gives nothing for it, if all tags that do touch the
part. -/
theorem eq_none_of_not_mem_touches {α : Type} {given : Command → Option α} {part : Machine.Part}
    (hliteral : ∀ text, given (.literal text) = none) (hnewline : given .newline = none)
    (htouches : ∀ {name args a}, given (.invoke name args) = some a →
      ∃ operation, Operation.named? name = some operation ∧ part ∈ operation.touches)
    {command : Command} (hpart : part ∉ command.touches) : given command = none := by
  cases command with
  | literal text => exact hliteral text
  | newline => exact hnewline
  | invoke name args =>
    by_contra hsome
    obtain ⟨a, ha⟩ := Option.ne_none_iff_exists'.mp hsome
    exact hpart (mem_touches_invoke.mpr (htouches ha))

end Command

theorem Arguments.text_eq_ok_iff {args : Arguments} {command key value : String} {place : Nat} :
    args.text command place key = .ok value ↔ args.value? place key = some value := by
  rw [text]
  cases args.value? place key <;> simp

namespace Machine

variable {C Output α : Type} [Canvas C Output] {m m' : Machine C} {resources : Resources}
  {command : Command} {commands : List Command}

/-- A command that touches a part other than the place and the pages is a tag of the vocabulary. -/
theorem exists_apply_of_mem_touches {part : Part} (hother : part ∉ [Part.place, .pages])
    (hpart : part ∈ command.touches) (h : (execute resources command : Work C Unit).Yields m () m') :
    ∃ name args operation, command = .invoke name args ∧ Operation.named? name = some operation ∧
      part ∈ operation.touches ∧
      (apply resources name args operation : Work C Unit).Yields m () m' := by
  cases command with
  | literal | newline => exact absurd hpart hother
  | invoke name args =>
    obtain ⟨operation, hname, hpart⟩ := Command.mem_touches_invoke.mp hpart
    rw [execute, hname] at h
    exact ⟨name, args, operation, rfl, hname, hpart, h⟩

/-- **A command changes only what it gives.** Something in a part of the machine is behind a command
what the command gives for it, or as it was. For this only tags may give something for it; those
that do have to touch the part, and those that touch it have to give what is found there
afterwards. -/
theorem get_execute (get : Machine C → α) (part : Part) {given : Command → Option α}
    (hother : part ∉ [Part.place, .pages]) (hliteral : ∀ text, given (.literal text) = none)
    (hnewline : given .newline = none) (hsame : ∀ m m' : Machine C, part.Same m m' → get m' = get m)
    (htouches : ∀ {name args a}, given (.invoke name args) = some a →
      ∃ operation, Operation.named? name = some operation ∧ part ∈ operation.touches)
    (hgiven : ∀ {name args operation}, Operation.named? name = some operation →
      part ∈ operation.touches → (apply resources name args operation : Work C Unit).Yields m () m' →
      given (.invoke name args) = some (get m'))
    (h : (execute resources command : Work C Unit).Yields m () m') :
    get m' = (given command).getD (get m) := by
  by_cases hpart : part ∈ command.touches
  · obtain ⟨name, args, operation, rfl, hname, hpart, happly⟩ :=
      exists_apply_of_mem_touches hother hpart h
    rw [hgiven hname hpart happly, Option.getD_some]
  · rw [Command.eq_none_of_not_mem_touches hliteral hnewline htouches hpart]
    exact hsame _ _ ((touches_execute resources command).leads h part hpart)

theorem get_run (get : Machine C → α) {given : Command → Option α}
    (hexecute : ∀ {m m' : Machine C} {command},
      (execute resources command : Work C Unit).Yields m () m' →
        get m' = (given command).getD (get m))
    (h : (run resources commands : Work C Unit).Yields m () m') :
    get m' = (commands.filterMap given).getLastD (get m) := by
  refine run_induction (P := fun done m' ↦ get m' = (done.filterMap given).getLastD (get m)) ?_ rfl h
  intro done command next next' ih hnext
  rw [hexecute hnext, ih, getLastD_filterMap_concat]

end Machine

end ReportPress
