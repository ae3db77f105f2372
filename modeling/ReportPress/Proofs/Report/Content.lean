import ReportPress.Proofs.Pdf.Content
import ReportPress.Proofs.Report.Agreement

/-!
# The pages of a document are well formed

A page of a document shows what is on record (`ShowsLog`). So it is what every page begins with,
followed by the operators of one step of drawing after the other. The page canvas alone does not see
to that: asked for a text in a face that it does not have, it leaves a text object open. But then
the command fails, and there is no document.
-/

namespace ReportPress

open Pdf

theorem ShowsLog.wellFormed [Decoders] [PdfLibrary] (hlibrary : PdfLibrary.Laws)
    {log : Rendered DrawLog} {report : Rendered Document} (h : ShowsLog log report) {page : Page}
    (hpage : page ∈ report.output.pages) : WellFormed page.content := by
  obtain ⟨i, hi⟩ := List.mem_iff_getElem?.mp hpage
  obtain ⟨steps, -, more, htranslation, hinstructions⟩ := h.content i page hi
  rw [Page.content, hinstructions, content_append, content_preamble hlibrary]
  exact (balanced_of_translation? hlibrary htranslation).wellFormed _ _

namespace Report

/-- **Every page of a document is well formed**, whatever the markup, the configuration, the files
and their decoders. -/
theorem wellFormed_document [Decoders] [PdfLibrary] (hlibrary : PdfLibrary.Laws)
    {resources : Resources} {config : Config} {markup : String} {report : Rendered Document}
    (h : (document resources config markup).result = .ok report) :
    ∀ page ∈ report.output.pages, WellFormed page.content := by
  obtain ⟨commands, -, -, hdraw⟩ := result_make_eq_ok.mp h
  obtain ⟨log, -, hshows⟩ :=
    (draw_recorder_of_pageCanvas resources config.setup commands).1 report hdraw
  exact fun page hpage ↦ hshows.wellFormed hlibrary hpage

theorem wellFormed_document_two_pages :
    ∃ report,
      (document .empty {}
          "\x7b$BOXS\x7dTotal €\n\x7b$BOXE\x7d\n\x7b$NEWPAGE\x7d\n42\n").result = .ok report ∧
      report.pages = 2 ∧ ∀ page ∈ report.output.pages, WellFormed page.content := by
  obtain ⟨report, hreport, hpages⟩ := map_eq_ok.mp
    (show (document .empty {}
          "\x7b$BOXS\x7dTotal €\n\x7b$BOXE\x7d\n\x7b$NEWPAGE\x7d\n42\n").result.map (·.pages) = .ok 2
      by decide +kernel)
  exact ⟨report, hreport, hpages, wellFormed_document writer_laws hreport⟩

end Report

end ReportPress
