import ReportPress.File.Formats
import ReportPress.Proofs.Pdf.Agreement
import ReportPress.Proofs.Report.Recorded

/-!
# The draw log and the document agree

The same markup, configuration and files make a draw log or a document, depending on the canvas. If
there is a document then there is a log, with the same pages, and the document shows page by page
what the log says. If there is no document, then there is no log for the same reason, unless the
reason is one that only the page canvas knows: a file that is no font or no image.

The two machines go in lockstep (`Machine.keeps_run`) because their canvases do (`Agrees.lockstep`);
what is left is the end of the last page.
-/

namespace ReportPress

/-- Whether an error comes from the canvas. -/
def ReportError.IsOfCanvas (e : ReportError) : Prop :=
  ∃ cause, e = .render cause ∧ cause.IsOfCanvas

/-- **A document shows a log.** -/
structure ShowsLog [Decoders] (log : Rendered DrawLog) (report : Rendered Pdf.Document) : Prop where
  logPages : log.output.pages.length = report.pages
  documentPages : report.output.pages.length = report.pages
  pages : log.pages = report.pages
  title : log.output.title = report.output.title
  logCopies : log.output.copies = report.copies
  copies : log.copies = report.copies
  /-- Every page of the document shows the steps on that page of the log, with the colour and line
  width that the pages before it leave in force. -/
  content : ∀ i page, report.output.pages[i]? = some page →
    ∃ steps, log.output.pages[i]? = some steps ∧
      Shows report.output.resources.toList (log.output.pages.take i).flatten steps page.instructions

section Finish

variable [Decoders] {title : String} {m : Machine Recorder} {n : Machine Pdf.PageCanvas}

/-- What a finished machine on a page canvas leaves. The last page was just ended, so none is
added. -/
theorem Machine.finish_pageCanvas (hfinished : n.pages.isFinished = false) :
    n.finish.1 =
      ⟨⟨n.canvas.title, n.canvas.showPage.pages, n.canvas.resources⟩,
        n.canvas.showPage.pages.length, n.copies⟩ := by
  have hpages : n.canvas.showPage.pages.isEmpty = false := by simp [Pdf.PageCanvas.showPage]
  have hsave : Pdf.PageCanvas.save n.canvas.showPage ⟨n.title, n.copies⟩ =
      (⟨n.canvas.title, n.canvas.showPage.pages, n.canvas.resources⟩,
        [.saving n.title n.canvas.showPage.pages.length n.copies.toNat]) := by
    rw [Pdf.PageCanvas.save, hpages]
    rfl
  simp only [Machine.finish, Pages.finish, hfinished]
  exact congrArg (fun saved : Pdf.Document × Journal ↦
    (⟨saved.1, n.canvas.showPage.pages.length, n.copies⟩ : Rendered Pdf.Document)) hsave

theorem Machine.Related.showsLog (h : Machine.Related Eq (Agrees title) m n)
    (htitle : m.finish.1.output.title = title) : ShowsLog m.finish.1 n.finish.1 := by
  obtain ⟨canvas, copies, unfinished, rfl, related⟩ := h
  -- Finishing ends the page in progress on both canvases, which keeps them in agreement.
  have hshown := related.showPage
  have hlog : m.finish.1.output.pages = m.canvas.pages := output_pages_finish unfinished
  rw [Machine.finish_pageCanvas unfinished]
  refine
    { logPages := ?_
      documentPages := rfl
      pages := ?_
      title := ?_
      logCopies := rfl
      copies := rfl
      content := ?_ }
  · rw [hlog]
    exact hshown.length
  · simp only [Machine.finish, Pages.finish, unfinished]
    exact hshown.length
  · rw [htitle]
    exact related.title.symm
  · intro i page hpage
    have hlength : i < m.canvas.pages.length := by
      rw [show m.canvas.pages.length = canvas.showPage.pages.length from hshown.length]
      exact (List.getElem?_eq_some_iff.mp hpage).1
    have hsteps := List.getElem?_eq_getElem hlength
    rw [hlog]
    exact ⟨_, hsteps, hshown.finished i _ page hsteps hpage⟩

end Finish

namespace Report

theorem draw_recorder_of_pageCanvas [Decoders] (resources : Resources) (setup : PageSetup)
    (commands : List Command) :
    (∀ report, (draw resources setup (Pdf.PageCanvas.new setup.title setup.width setup.height)
        commands).result = .ok report →
      ∃ log, (draw resources setup (Recorder.new setup.width setup.height) commands).result
        = .ok log ∧ ShowsLog log report) ∧
    ∀ e, (draw resources setup (Pdf.PageCanvas.new setup.title setup.width setup.height)
        commands).result = .error e →
      e.IsOfCanvas ∨
        (draw resources setup (Recorder.new setup.width setup.height) commands).result
          = .error e := by
  have hlockstep := Agrees.lockstep setup.title resources.files
  -- The machine on the recorder follows the one on the page canvas, at the start and along the run.
  obtain ⟨hstart, hstartError⟩ := Machine.related_start (S := Eq) hlockstep
    (Agrees.new setup.title setup.width setup.height) setup
  constructor
  · intro report hreport
    obtain ⟨n, n', hn, hrun, rfl⟩ := result_draw_eq_ok.mp hreport
    obtain ⟨m, hm, hrelated⟩ := hstart n hn
    obtain ⟨m', hrun', hrelated'⟩ := (Machine.keeps_run hlockstep commands hrelated).1 () n' hrun
    have hlog := result_draw_eq_ok.mpr ⟨m, m', hm, hrun', rfl⟩
    exact ⟨m'.finish.1, hlog, hrelated'.showsLog (title_draw_eq hlog)⟩
  · intro e he
    rcases result_draw_eq_error.mp he with hn | ⟨n, hn, hrun⟩
    · exact (hstartError e hn).imp_right fun hm ↦ result_draw_eq_error.mpr (Or.inl hm)
    · obtain ⟨m, hm, hrelated⟩ := hstart n hn
      exact ((Machine.keeps_run hlockstep commands hrelated).2 e hrun).imp_right fun hfails ↦
        result_draw_eq_error.mpr (Or.inr ⟨m, hm, hfails⟩)

/-- **The draw log and the document agree.** If there is a document, there is a log, and the
document shows it. If there is none, and the reason does not come from the canvas, then it is the
reason why there is no log. -/
theorem drawLog_agrees_document [Decoders] (resources : Resources) (config : Config) (markup : String) :
    (∀ report, (document resources config markup).result = .ok report →
      ∃ log, (drawLog resources config markup).result = .ok log ∧ ShowsLog log report) ∧
    ∀ e, (document resources config markup).result = .error e → ¬e.IsOfCanvas →
      (drawLog resources config markup).result = .error e := by
  constructor
  · intro report hreport
    obtain ⟨commands, hvalid, hcompile, hdraw⟩ := result_make_eq_ok.mp hreport
    obtain ⟨log, hlog, hshows⟩ := (draw_recorder_of_pageCanvas resources config.setup commands).1
      report hdraw
    exact ⟨log, result_make_eq_ok.mpr ⟨commands, hvalid, hcompile, hlog⟩, hshows⟩
  · intro e he hcanvas
    rcases result_make_eq_error.mp he with hconfig | hcompile | ⟨commands, cause, hvalid, hcompile,
      hdraw, rfl⟩
    · exact result_make_eq_error.mpr (Or.inl hconfig)
    · exact result_make_eq_error.mpr (Or.inr (Or.inl hcompile))
    · rcases (draw_recorder_of_pageCanvas resources config.setup commands).2 cause hdraw with
        hcause | hlog
      · exact absurd ⟨cause, rfl, hcause⟩ hcanvas
      · exact result_make_eq_error.mpr
          (Or.inr (Or.inr ⟨commands, cause, hvalid, hcompile, hlog, rfl⟩))

theorem drawLog_agrees_document_two_pages :
    (∃ report log, (document .empty {} "Total\n\x7b$NEWPAGE\x7d\n42\n").result = .ok report ∧
      (drawLog .empty {} "Total\n\x7b$NEWPAGE\x7d\n42\n").result = .ok log ∧
      report.pages = 2 ∧ ShowsLog log report) ∧
    (drawLog .empty {} "\x7b$TOTAL\x7d").result
      = .error (.render (.atCommand 0 "TOTAL" (.unknownCommand "TOTAL"))) := by
  constructor
  · obtain ⟨report, hreport, hpages⟩ := map_eq_ok.mp
      (show (document .empty {} "Total\n\x7b$NEWPAGE\x7d\n42\n").result.map (·.pages) = .ok 2
        by decide +kernel)
    obtain ⟨log, hlog, hshows⟩ := (drawLog_agrees_document _ _ _).1 report hreport
    exact ⟨report, log, hreport, hlog, hpages, hshows⟩
  · have herror := map_eq_error.mp
      (show (document .empty {} "\x7b$TOTAL\x7d").result.map (·.pages)
          = .error (.render (.atCommand 0 "TOTAL" (.unknownCommand "TOTAL"))) by decide +kernel)
    apply (drawLog_agrees_document _ _ _).2 _ herror
    rintro ⟨cause, hcause, canvasError, hroot⟩
    obtain rfl := ReportError.render.inj hcause
    cases hroot

end Report

end ReportPress
