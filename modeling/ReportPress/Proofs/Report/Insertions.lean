import ReportPress.Proofs.Render.Settings
import ReportPress.Proofs.Render.Silent
import ReportPress.Proofs.Report.Recorded

/-!
# Commands that do not matter

Two comparisons of a report with one that has more commands. What comes last and draws nothing may
as well be left out, on any canvas: the finished reports are the same. And colours, line widths and
copies may be set anywhere, between any two commands: the marks stay the same, page by page and in
the same places.

Both have to hold while a page break is pending. Nothing that is silent or a setting carries it out,
and finishing does not either.
-/

namespace ReportPress.Report

section Tail

variable {C Output : Type} [Canvas C Output] {resources : Resources} {setup : PageSetup} {canvas : C}
  {commands tail : List Command} {rendered : Rendered Output}

/-- **A silent tail leaves no trace.** New lines, page breaks, moves, margins, styles, and the
beginnings of boxes and lines change nothing at the end of a report. -/
theorem draw_append_silent (hsilent : ∀ command ∈ tail, command.isSilent = true)
    (h : (draw resources setup canvas (commands ++ tail)).result = .ok rendered) :
    (draw resources setup canvas commands).result = .ok rendered := by
  obtain ⟨m, m', hstart, hrun, rfl⟩ := result_draw_eq_ok.mp h
  obtain ⟨between, hcommands, htail⟩ := Machine.yields_run_append.mp hrun
  refine result_draw_eq_ok.mpr ⟨m, between, hstart, hcommands, ?_⟩
  rw [(Machine.untraced_run hsilent htail).finish]

end Tail

/-- A break that was asked for, and then only moved away from, leaves one page. -/
theorem draw_append_silent_newPage :
    ∃ rendered, (draw .empty {} (Recorder.new 595.28 841.89) ([.literal "Total"] ++
        [.invoke "NEWPAGE" .none, .newline, .invoke "DOWN" ⟨["3"], .empty⟩])).result = .ok rendered ∧
      (draw .empty {} (Recorder.new 595.28 841.89) [.literal "Total"]).result = .ok rendered := by
  obtain ⟨rendered, h, -⟩ := map_eq_ok.mp
    (show (draw .empty {} (Recorder.new 595.28 841.89) ([.literal "Total"] ++
        [.invoke "NEWPAGE" .none, .newline, .invoke "DOWN" ⟨["3"], .empty⟩])).result.map (·.pages)
      = .ok 1 by decide +kernel)
  exact ⟨rendered, h, draw_append_silent (by decide) h⟩

section Settings

variable {resources : Resources} {setup : PageSetup} {width height : Float32}
  {front settings back : List Command} {rendered : Rendered DrawLog}

theorem marks_finish [Decoders] {m n : Machine Recorder} (h : Machine.MarkedAlike m n) :
    marks m.finish.1.output.pages = marks n.finish.1.output.pages := by
  obtain ⟨canvas, copies, unfinished, -, related⟩ := h
  rw [Machine.output_pages_finish unfinished,
    Machine.output_pages_finish (m := (m.withCanvas canvas).withCopies copies) unfinished]
  exact related.marks_pages

/-- **Settings do not influence layout.** Wherever colours, line widths and copies are set, the
report has as many pages as without that, with the same marks on each. -/
theorem draw_insert_settings [Decoders] (hsettings : ∀ command ∈ settings, command.IsSetting)
    (h : (draw resources setup (Recorder.new width height) (front ++ back)).result = .ok rendered) :
    ∃ rendered', (draw resources setup (Recorder.new width height)
        (front ++ settings ++ back)).result = .ok rendered' ∧
      rendered'.output.pages.length = rendered.output.pages.length ∧
      marks rendered'.output.pages = marks rendered.output.pages := by
  have hlockstep := SameMarks.lockstep resources.files
  obtain ⟨n, n', hn, hrun, rfl⟩ := result_draw_eq_ok.mp h
  obtain ⟨between, hfront, hback⟩ := Machine.yields_run_append.mp hrun
  -- The longer report goes along: before the settings, over them alone, and behind them.
  obtain ⟨m, hm, hstart⟩ := (Machine.related_start (S := Machine.AnyCopies) hlockstep
    (SameMarks.refl (Recorder.new width height)) setup).1 n hn
  obtain ⟨reached, hreached, halike⟩ :=
    (Machine.keeps_run hlockstep front hstart).1 () between hfront
  obtain ⟨set, hset, halike⟩ := Machine.exists_yields_settings resources hsettings halike
  obtain ⟨m', hm', halike⟩ := (Machine.keeps_run hlockstep back halike).1 () n' hback
  have hwhole := Machine.yields_run_append.mpr ⟨set, Machine.yields_run_append.mpr
    ⟨reached, hreached, hset⟩, hm'⟩
  refine ⟨m'.finish.1, result_draw_eq_ok.mpr ⟨m, m', hm, hwhole, rfl⟩, ?_, marks_finish halike⟩
  rw [← length_marks, marks_finish halike, length_marks]

/-- While a page break is pending, a red and two copies leave it pending. -/
theorem draw_insert_settings_newPage :
    ∃ rendered rendered', (draw .empty {} (Recorder.new 595.28 841.89)
        ([.literal "Total", .invoke "NEWPAGE" .none] ++ [.literal "42"])).result = .ok rendered ∧
      (draw .empty {} (Recorder.new 595.28 841.89)
        ([.literal "Total", .invoke "NEWPAGE" .none] ++
          [.invoke "SETCOLOR" ⟨["1", "0", "0"], .empty⟩, .invoke "COPIES" ⟨["2"], .empty⟩] ++
          [.literal "42"])).result = .ok rendered' ∧
      rendered'.output.pages.length = 2 ∧
      marks rendered'.output.pages = marks rendered.output.pages := by
  obtain ⟨rendered, h, hpages⟩ := map_eq_ok.mp
    (show (draw .empty {} (Recorder.new 595.28 841.89)
        ([.literal "Total", .invoke "NEWPAGE" .none] ++ [.literal "42"])).result.map
          (·.output.pages.length) = .ok 2 by decide +kernel)
  have hsettings : ∀ command ∈ [Command.invoke "SETCOLOR" ⟨["1", "0", "0"], .empty⟩,
      .invoke "COPIES" ⟨["2"], .empty⟩], command.IsSetting := by
    refine List.forall_mem_cons.mpr ⟨?_, List.forall_mem_singleton.mpr ?_⟩
    · exact @Command.IsSetting.fillColor _ 1 0 0 (by decide +kernel) (by decide +kernel)
        (by decide +kernel)
    · exact @Command.IsSetting.copies _ 2 (by decide +kernel) (by decide) (by decide)
  obtain ⟨rendered', h', hlength, hmarks⟩ := draw_insert_settings hsettings h
  exact ⟨rendered, rendered', h, h', hlength.trans hpages, hmarks⟩

end Settings

end ReportPress.Report
