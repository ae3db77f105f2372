import ReportPress.File.Formats
import ReportPress.Proofs.Render.Pages
import ReportPress.Proofs.Render.Writing
import ReportPress.Proofs.Report.Runs

/-!
# What a draw log holds

Three facts about the log of any commands that run to their end, for any page setup. Its texts are
those that the commands ask for, in order. It has no blank page, unless nothing leaves a mark at
all. And every text is on a line with room above the lower margin, or it opens its page.

A log is the record of a machine that was drawn on from the beginning (`exists_draws`), so each fact
is read off from what `Draws` is known to keep.
-/

namespace ReportPress

/-- No directories to look in and no files. -/
def Resources.empty : Resources := ⟨⟨[]⟩, ⟨fun _ ↦ false, fun _ ↦ .error .notFound⟩⟩

theorem Machine.output_pages_finish [Decoders] {m : Machine Recorder} (h : m.pages.isFinished = false) :
    m.finish.1.output.pages = m.canvas.pages := by
  simp only [Machine.finish, Pages.finish, h]
  rfl

namespace Report

variable {resources : Resources} {setup : PageSetup} {width height : Float32}
  {commands : List Command} {rendered : Rendered DrawLog}

theorem exists_draws [Decoders]
    (h : (draw resources setup (Recorder.new width height) commands).result = .ok rendered) :
    ∃ steps m, Machine.Draws (Machine.blank (Recorder.new width height) setup) steps m ∧
      steps.filterMap DrawStep.content? = textsOf commands ∧
      rendered = m.finish.1 ∧ rendered.output.pages = m.canvas.pages := by
  obtain ⟨m, m', hstart, hrun, rfl⟩ := result_draw_eq_ok.mp h
  obtain ⟨-, hselect⟩ := Machine.result_start_eq_ok.mp hstart
  obtain ⟨steps, hbegin, hnone⟩ := Machine.writes_selectFamily resources setup.family hselect
  obtain ⟨more, hdraws, htexts⟩ := Machine.exists_draws_run hrun
  have hwhole := hbegin.trans hdraws
  refine ⟨steps ++ more, m', hwhole, ?_, rfl, ?_⟩
  · rw [List.filterMap_append, hnone, htexts, List.nil_append]
  · exact Machine.output_pages_finish hwhole.sameSheet.isFinished

theorem title_draw_eq [Decoders]
    (h : (draw resources setup (Recorder.new width height) commands).result = .ok rendered) :
    rendered.output.title = setup.title := by
  obtain ⟨steps, m, hdraws, -, rfl, -⟩ := exists_draws h
  exact hdraws.sameSheet.title

/-! ## Texts -/

/-- **No text is lost, doubled or moved.** The texts in the log are those that the commands ask for,
whatever page breaks, moves and styles come between them. -/
theorem texts_draw_eq [Decoders]
    (h : (draw resources setup (Recorder.new width height) commands).result = .ok rendered) :
    rendered.output.texts = textsOf commands := by
  obtain ⟨steps, m, hdraws, htexts, -, hpages⟩ := exists_draws h
  have hsteps : rendered.output.pages.flatten = steps := by
    rw [hpages, ← Recorder.steps, hdraws.steps_canvas]
    rfl
  rw [DrawLog.texts_eq, hsteps, htexts]

theorem texts_draw_eq_two_pages :
    ∃ rendered, (draw .empty {} (Recorder.new 595.28 841.89)
        [.literal "Total\n", .invoke "NEWPAGE" .none, .literal "\n",
          .invoke "SHOWLINE" ⟨["42"], .empty⟩]).result = .ok rendered ∧
      rendered.output.texts = ["Total", "42"] := by
  obtain ⟨rendered, h, -⟩ := map_eq_ok.mp
    (show (draw .empty {} (Recorder.new 595.28 841.89)
        [.literal "Total\n", .invoke "NEWPAGE" .none, .literal "\n",
          .invoke "SHOWLINE" ⟨["42"], .empty⟩]).result.map (·.pages) = .ok 2 by decide +kernel)
  exact ⟨rendered, h, (texts_draw_eq h).trans (by decide)⟩

/-! ## Marks -/

/-- **No page is blank.** A log has a page. If something leaves a mark, every page has one; if
nothing does, there is one page only. -/
theorem no_page_blank [Decoders]
    (h : (draw resources setup (Recorder.new width height) commands).result = .ok rendered) :
    0 < rendered.output.pages.length ∧
      (rendered.output.pages.flatten.any DrawStep.isMark = true →
        ∀ page ∈ rendered.output.pages, page.any DrawStep.isMark = true) ∧
      (rendered.output.pages.flatten.any DrawStep.isMark = false →
        rendered.output.pages.length = 1) := by
  obtain ⟨steps, m, hdraws, -, -, hpages⟩ := exists_draws h
  rw [hpages]
  have hlength : 0 < m.canvas.pages.length := by simp [Recorder.pages]
  refine ⟨hlength, ?_⟩
  rcases (hdraws.marked (Machine.marked_blank setup width height)).pages with
    hmarked | ⟨hone, hnone⟩
  · refine ⟨fun _ ↦ hmarked, fun hnone ↦ ?_⟩
    -- There is a page, and it has a mark.
    have hfirst := List.getElem_mem hlength
    rw [List.any_flatten, List.any_eq_false] at hnone
    exact absurd (hmarked _ hfirst) (hnone _ hfirst)
  · exact ⟨fun hsome ↦ absurd (hsome.symm.trans hnone) (by decide), fun _ ↦ hone⟩

theorem no_page_blank_repeated_break :
    ∃ rendered, (draw .empty {} (Recorder.new 595.28 841.89)
        [.literal "a", .invoke "NEWPAGE" .none, .invoke "NEWPAGE" .none, .literal "b",
          .invoke "NEWPAGE" .none]).result = .ok rendered ∧
      rendered.output.pages.length = 2 ∧
      ∀ page ∈ rendered.output.pages, page.any DrawStep.isMark = true := by
  obtain ⟨rendered, h, hpages⟩ := map_eq_ok.mp
    (show (draw .empty {} (Recorder.new 595.28 841.89)
        [.literal "a", .invoke "NEWPAGE" .none, .invoke "NEWPAGE" .none, .literal "b",
          .invoke "NEWPAGE" .none]).result.map
            (fun log ↦ (log.output.pages.length, log.output.pages.flatten.any DrawStep.isMark))
        = .ok (2, true) by decide +kernel)
  obtain ⟨hlength, hmark⟩ := Prod.ext_iff.mp hpages
  exact ⟨rendered, h, hlength, (no_page_blank h).2.1 hmark⟩

/-! ## Places -/

/-- **Every text fits or opens its page.** The baseline of a text is that of a line with room for it
above the lower margin, or else of the first line of the page, and then no mark comes before it. A
text whose size fits between the margins is therefore never on a line without room. -/
theorem text_fits_or_opens_page [Decoders]
    (h : (draw resources setup (Recorder.new width height) commands).result = .ok rendered)
    {page before after : List DrawStep} {start : Point} {content face : String} {size : Float32}
    (hpage : page ∈ rendered.output.pages)
    (htext : page = before ++ .text start content face size :: after) :
    ∃ top, start.y = baseline top size ∧
      (lineFits top size setup.bottomMargin = true ∨
        (top = setup.height - setup.topMargin ∧ before.any DrawStep.isMark = false)) ∧
      (lineFits (setup.height - setup.topMargin) size setup.bottomMargin = true →
        lineFits top size setup.bottomMargin = true) := by
  obtain ⟨steps, m, hdraws, -, -, hpages⟩ := exists_draws h
  have hplaced := hdraws.placed (Machine.marked_blank setup width height)
    (Machine.placed_blank setup width height)
  have hfits := hplaced page (hpages ▸ hpage) before _ after htext
  rw [hdraws.sameSheet.topLeft_y, hdraws.sameSheet.bottom] at hfits
  obtain ⟨top, hbaseline, hroom⟩ := hfits
  refine ⟨top, hbaseline, hroom, fun hsize ↦ ?_⟩
  rcases hroom with hline | ⟨hfirst, -⟩
  · exact hline
  · rw [hfirst]
    exact hsize

theorem text_fits_or_opens_page_after_overflow :
    ∃ rendered, (draw .empty { height := 40, topMargin := 10, bottomMargin := 10 }
        (Recorder.new 100 40) [.literal "a\n", .literal "b\n", .literal "c"]).result
          = .ok rendered ∧
      ∃ page ∈ rendered.output.pages, ∃ start, page = [.text start "c" "Courier" 10] ∧
        ∃ top, start.y = baseline top 10 ∧ lineFits top 10 10 = true := by
  obtain ⟨rendered, h, hpages⟩ := map_eq_ok.mp
    (show (draw .empty { height := 40, topMargin := 10, bottomMargin := 10 }
        (Recorder.new 100 40) [.literal "a\n", .literal "b\n", .literal "c"]).result.map
          (fun log ↦ log.output.pages[1]?)
        = .ok (some [.text ⟨0.7 * centimetre, baseline 30 10⟩ "c" "Courier" 10])
      by decide +kernel)
  have hpage := List.mem_of_getElem? hpages
  obtain ⟨top, hbaseline, -, hfits⟩ := text_fits_or_opens_page h hpage (List.nil_append _).symm
  exact ⟨rendered, h, _, hpage, _, rfl, top, hbaseline, hfits (by decide)⟩

end Report

end ReportPress
