import ReportPress.Proofs.Render.Parts
import ReportPress.Report.Make

/-!
# Reports as runs

A report succeeds in stages: the configuration is accepted, the markup compiles, a machine starts,
the commands run, and the machine is finished. The first stage that fails decides the error.
-/

namespace ReportPress.Report

variable {C Output : Type} [Canvas C Output] {resources : Resources}

section Draw

variable {setup : PageSetup} {canvas : C} {commands : List Command}

theorem result_draw_eq_ok {rendered : Rendered Output} :
    (draw resources setup canvas commands).result = .ok rendered ↔
      ∃ m m', (Machine.start resources canvas setup).result = .ok m ∧
        (Machine.run resources commands : Work C Unit).Yields m () m' ∧
        rendered = m'.finish.1 := by
  rw [draw, Traced.result_bind]
  cases (Machine.start resources canvas setup).result with
  | error e => simp [Except.bind]
  | ok m =>
    rcases hrun : Machine.run resources commands m with ⟨⟨_ | _, journal⟩, m'⟩ <;>
      simp [Except.bind, Action.Yields, Traced.result_bind, hrun, eq_comm]

theorem result_draw_eq_error {e : RenderError} :
    (draw resources setup canvas commands).result = .error e ↔
      (Machine.start resources canvas setup).result = .error e ∨
      ∃ m, (Machine.start resources canvas setup).result = .ok m ∧
        (Machine.run resources commands : Work C Unit).Fails m e := by
  rw [draw, Traced.result_bind]
  cases (Machine.start resources canvas setup).result with
  | error e => simp [Except.bind]
  | ok m =>
    rcases hrun : Machine.run resources commands m with ⟨⟨_ | _, journal⟩, m'⟩ <;>
      simp [Except.bind, Action.Fails, Traced.result_bind, hrun]

end Draw

section Make

variable {config : Config} {canvas : PageSetup → C} {markup : String}

theorem result_make_eq_ok {rendered : Rendered Output} :
    (make resources config canvas markup).result = .ok rendered ↔
      ∃ commands, config.validate = .ok () ∧ (compile resources config markup).result = .ok commands ∧
        (draw resources config.setup (canvas config.setup) commands).result = .ok rendered := by
  rw [make, Traced.result_bind]
  cases config.validate with
  | error e => simp [Except.bind, Traced.ofExcept]
  | ok u =>
    simp only [Except.bind, Traced.ofExcept, mapError_ok, Traced.result_bind]
    cases (compile resources config markup).result <;> simp

theorem result_make_eq_error {e : ReportError} :
    (make resources config canvas markup).result = .error e ↔
      (∃ cause, config.validate = .error cause ∧ e = .config cause) ∨
      (config.validate = .ok () ∧ (compile resources config markup).result = .error e) ∨
      ∃ commands cause, config.validate = .ok () ∧
        (compile resources config markup).result = .ok commands ∧
        (draw resources config.setup (canvas config.setup) commands).result = .error cause ∧
        e = .render cause := by
  rw [make, Traced.result_bind]
  cases config.validate with
  | error e => simp [Except.bind, Traced.ofExcept, eq_comm]
  | ok u =>
    simp only [Except.bind, Traced.ofExcept, mapError_ok, Traced.result_bind]
    cases (compile resources config markup).result <;> simp

end Make

end ReportPress.Report
