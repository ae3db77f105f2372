import Mathlib.Data.List.DropRight
import Mathlib.Logic.Function.Iterate
import ReportPress.File.Formats
import ReportPress.Proofs.Canvas.Recorder
import ReportPress.Proofs.Page.Break

/-!
# What a history of page breaks comes to

Pages are steered by three flags: a break is pending, something is drawn, the last page is ended.
They say what was asked for, but not at once what becomes of it. Here the outcome is read off the
history of requests and draws instead. A draw *opens a page* if it is the first, or if a break was
asked for since the draw before it. Then everything is counting: a draw goes on the page whose
number is that of the draws up to it that open one, and in the end there are as many pages as draws
that open one, or a single page without anything on it.

The flags are tied to the history by `Mirrors`, which each step keeps (`Mirrors.after`). That a
request before anything is drawn, a second one in a row, or one that nothing is drawn after comes to
nothing is the same on both sides: such a request is not followed by a draw that is counted for it.
-/

namespace ReportPress

namespace Recorder

def recordAll (content : List DrawStep) (recorder : Recorder) : Recorder :=
  content.foldl (fun recorder step ↦ recorder.record step) recorder

@[simp] theorem log_recordAll (content : List DrawStep) (recorder : Recorder) :
    (recorder.recordAll content).log = recorder.log := by
  induction content generalizing recorder with
  | nil => rfl
  | cons step content ih => exact (ih _).trans (log_record step recorder)

@[simp] theorem current_recordAll (content : List DrawStep) (recorder : Recorder) :
    (recorder.recordAll content).current.toList = recorder.current.toList ++ content := by
  induction content generalizing recorder with
  | nil => rw [List.append_nil]; rfl
  | cons step content ih =>
    have hrest := ih (recorder.record step)
    rwa [current_record, List.append_assoc] at hrest

end Recorder

namespace Pages

/-- What is done with pages until they are finished. -/
inductive Step where
  | request
  | draw (content : List DrawStep)
  deriving DecidableEq

namespace Step

def isDraw : Step → Bool
  | .request => false
  | .draw _ => true

def content : Step → List DrawStep
  | .request => []
  | .draw content => content

variable {ε : Type} [Decoders]

def carryOut : Step → Action (Pages Recorder) ε Unit
  | .request => requestBreak
  | .draw content => do
    let _ ← beforeDraw
    Action.change fun pages ↦ { pages with canvas := pages.canvas.recordAll content }

def after : Step → Pages Recorder → Pages Recorder
  | .request, pages => pages.broken
  | .draw content, pages => { pages.opened with canvas := pages.opened.canvas.recordAll content }

theorem yields_carryOut {step : Step} {pages pages' : Pages Recorder} {u : Unit} :
    (step.carryOut : Action (Pages Recorder) ε Unit).Yields pages u pages' ↔
      pages' = step.after pages := by
  cases step <;> simp [carryOut, after]

end Step

/-! ## Counting draws that open a page -/

section Counting

variable {history : List Step} {step : Step}

/-- Whether a break was asked for since something was drawn. -/
def isAsked (history : List Step) : Bool := !(history.rtakeWhile (!·.isDraw)).isEmpty

/-- Whether a draw after these steps opens a page. -/
def opensPage (history : List Step) : Bool := !history.any Step.isDraw || isAsked history

/-- How many draws open a page. -/
def openers (history : List Step) : Nat :=
  (List.range history.length).countP fun i ↦
    history[i]?.any Step.isDraw && opensPage (history.take i)

/-- What is drawn on the page of a number, the first having the number one. -/
def drawnOn (history : List Step) (number : Nat) : List DrawStep :=
  (List.range history.length).flatMap fun i ↦
    if openers (history.take (i + 1)) = number then history[i]?.elim [] Step.content else []

theorem isAsked_append : isAsked (history ++ [step]) = !step.isDraw := by
  cases step <;> simp [isAsked, Step.isDraw]

theorem openers_append :
    openers (history ++ [step])
      = openers history + if step.isDraw && opensPage history then 1 else 0 := by
  rw [openers, List.length_append, List.length_singleton, List.range_succ, List.countP_append,
    List.countP_singleton, List.getElem?_concat_length, List.take_left, Option.any_some, openers]
  congr 1
  refine List.countP_congr fun i hi ↦ ?_
  have hlt := List.mem_range.mp hi
  rw [List.getElem?_append_left hlt, List.take_append_of_le_length hlt.le]

theorem drawnOn_append (number : Nat) :
    drawnOn (history ++ [step]) number
      = drawnOn history number ++ if openers (history ++ [step]) = number then step.content else [] := by
  have hlength : (history ++ [step]).length = history.length + 1 := List.length_append
  rw [drawnOn, hlength, List.range_succ, List.flatMap_append, List.flatMap_singleton, ← hlength,
    List.take_length, List.getElem?_concat_length, Option.elim_some, drawnOn]
  congr 1
  refine List.flatMap_congr fun i hi ↦ ?_
  have hlt := List.mem_range.mp hi
  rw [List.getElem?_append_left hlt, List.take_append_of_le_length hlt]

theorem openers_le_append (more : List Step) : openers history ≤ openers (history ++ more) := by
  induction more using List.reverseRecOn with
  | nil => rw [List.append_nil]
  | append_singleton more step ih =>
    rw [← List.append_assoc, openers_append]
    omega

theorem drawnOn_prefix_append (more : List Step) (number : Nat) :
    drawnOn history number <+: drawnOn (history ++ more) number := by
  induction more using List.reverseRecOn with
  | nil => simp
  | append_singleton more step ih =>
    rw [← List.append_assoc, drawnOn_append]
    exact ih.trans (List.prefix_append _ _)

theorem openers_pos_iff : 0 < openers history ↔ history.any Step.isDraw = true := by
  induction history using List.reverseRecOn with
  | nil => simp [openers]
  | append_singleton history step ih =>
    rw [openers_append, List.any_append, List.any_cons, List.any_nil, Bool.or_false, Bool.or_eq_true,
      ← ih]
    cases step with
    | request => simp [Step.isDraw]
    | draw content =>
      simp only [Step.isDraw, Bool.true_and, or_true, iff_true]
      by_cases hdrawn : history.any Step.isDraw = true
      · exact Nat.add_pos_left (ih.mpr hdrawn) _
      · simp [opensPage, hdrawn]

theorem drawnOn_eq_nil {number : Nat} (h : openers history < number) :
    drawnOn history number = [] := by
  induction history using List.reverseRecOn with
  | nil => rfl
  | append_singleton history step ih =>
    rw [drawnOn_append, if_neg h.ne, List.append_nil]
    exact ih (lt_of_le_of_lt (openers_le_append [step]) h)

/-- What a draw puts on a page stays in one piece. -/
theorem content_infix_drawnOn (before : List Step) (content : List DrawStep) (after : List Step) :
    content <:+: drawnOn (before ++ .draw content :: after)
      (openers (before ++ [.draw content])) := by
  rw [List.append_cons]
  refine List.IsInfix.trans ?_ (drawnOn_prefix_append after _).isInfix
  rw [drawnOn_append, if_pos rfl]
  exact (List.suffix_append _ _).isInfix

end Counting

/-! ## The flags and the history -/

/-- **Pages that a history led to.** -/
structure Mirrors (pages : Pages Recorder) (history : List Step) : Prop where
  drawn : pages.isDrawn = history.any Step.isDraw
  pending : pages.breakPending = isAsked history
  unfinished : pages.isFinished = false
  /-- The pages before the one in progress are those that were opened, but for the last. -/
  ended : pages.canvas.log.pages
    = (List.range (openers history - 1)).map fun k ↦ drawnOn history (k + 1)
  /-- The page in progress is the last that was opened, or the first. -/
  current : pages.canvas.current.toList = drawnOn history (max 1 (openers history))

theorem mirrors_fresh (width height : Float32) :
    Mirrors (fresh (Recorder.new width height)) [] :=
  ⟨rfl, rfl, rfl, rfl, rfl⟩

namespace Mirrors

variable {pages : Pages Recorder} {history : List Step}

/-- A page ends where another but the first is opened. -/
theorem endsPage (h : Mirrors pages history) :
    pages.endsPage = (opensPage history && decide (0 < openers history)) := by
  have hpos : decide (0 < openers history) = history.any Step.isDraw :=
    Bool.eq_iff_iff.mpr (decide_eq_true_iff.trans openers_pos_iff)
  rw [Pages.endsPage, h.pending, h.drawn, opensPage, hpos]
  cases history.any Step.isDraw <;> simp

theorem pages_eq (h : Mirrors pages history) :
    pages.canvas.pages
      = (List.range (max 1 (openers history))).map fun k ↦ drawnOn history (k + 1) := by
  have hsucc : max 1 (openers history) = openers history - 1 + 1 := by omega
  rw [Recorder.pages, h.ended, h.current, hsucc, List.range_succ, List.map_append,
    List.map_singleton]

theorem request (h : Mirrors pages history) : Mirrors pages.broken (history ++ [.request]) := by
  have hopeners : openers (history ++ [.request]) = openers history := by
    simp [openers_append, Step.isDraw]
  have hdrawn (number : Nat) : drawnOn (history ++ [.request]) number = drawnOn history number := by
    simp [drawnOn_append, Step.content]
  constructor
  · simpa [broken, Step.isDraw] using h.drawn
  · rw [isAsked_append]
    rfl
  · exact h.unfinished
  · simpa only [broken, hopeners, hdrawn] using h.ended
  · simpa only [broken, hopeners, hdrawn] using h.current

variable [Decoders]

/-- The canvas as the next thing is drawn on it: the page that this goes on is in progress. -/
theorem canvas_opened (h : Mirrors pages history) {number : Nat}
    (hnumber : number = openers history + if opensPage history then 1 else 0) :
    pages.opened.canvas.log.pages = ((List.range (number - 1)).map fun k ↦ drawnOn history (k + 1)) ∧
      pages.opened.canvas.current.toList = drawnOn history number := by
  have hflags := h.endsPage
  cases hends : pages.endsPage with
  | true =>
    obtain ⟨hopens, hdrawn⟩ := Bool.and_eq_true_iff.mp (hflags.symm.trans hends)
    rw [if_pos hopens] at hnumber
    have hmax : max 1 (openers history) = number - 1 := by
      have := of_decide_eq_true hdrawn
      omega
    rw [opened, hends, if_pos rfl]
    exact ⟨hmax ▸ h.pages_eq, (drawnOn_eq_nil (by omega)).symm⟩
  | false =>
    -- Either nothing is drawn yet, or the draw goes on the page of the draw before it.
    have hmax : max 1 (openers history) = number := by
      by_cases hdrawn : 0 < openers history
      · have hopens : opensPage history = false := by
          simpa [hends, hdrawn] using hflags
        rw [hopens] at hnumber
        simp only [Bool.false_eq_true, if_false] at hnumber
        omega
      · have hopens : opensPage history = true := by
          rw [openers_pos_iff] at hdrawn
          simp [opensPage, hdrawn]
        rw [if_pos hopens] at hnumber
        omega
    have hended : openers history - 1 = number - 1 := by omega
    rw [opened, hends]
    exact ⟨hended ▸ h.ended, hmax ▸ h.current⟩

theorem draw (h : Mirrors pages history) (content : List DrawStep) :
    Mirrors (Step.after (.draw content) pages) (history ++ [.draw content]) := by
  have hopeners : openers (history ++ [.draw content])
      = openers history + if opensPage history then 1 else 0 := by
    simp [openers_append, Step.isDraw]
  have hpos : 0 < openers (history ++ [.draw content]) :=
    openers_pos_iff.mpr (by simp [Step.isDraw])
  -- The canvas has the page in progress on which this draw goes on, or the one that it opens.
  obtain ⟨hlog, hcurrent⟩ := h.canvas_opened hopeners
  constructor
  · simp [Step.after, opened, Step.isDraw]
  · rw [isAsked_append]
    rfl
  · exact h.unfinished
  · rw [Step.after, Recorder.log_recordAll, hlog]
    refine List.map_congr_left fun k hk ↦ ?_
    have hlt := List.mem_range.mp hk
    rw [drawnOn_append, if_neg (by omega), List.append_nil]
  · rw [Step.after, Recorder.current_recordAll, hcurrent, max_eq_right hpos, drawnOn_append,
      if_pos rfl, Step.content]

theorem after (h : Mirrors pages history) (step : Step) :
    Mirrors (step.after pages) (history ++ [step]) := by
  cases step with
  | request => exact h.request
  | draw content => exact h.draw content

end Mirrors

/-! ## Whole histories -/

theorem finish_finish {C Output : Type} [Canvas C Output] (pages : Pages C) :
    pages.finish.finish = pages.finish := by
  cases h : pages.isFinished <;> simp [finish, h]

theorem finish_iterate_succ {C Output : Type} [Canvas C Output] (n : Nat) (pages : Pages C) :
    finish^[n + 1] pages = pages.finish := by
  induction n with
  | zero => rfl
  | succ n ih => rw [Function.iterate_succ_apply', ih, finish_finish]

section Histories

variable [Decoders] {ε : Type} {pages pages' : Pages Recorder} {u : Unit}

def carryOut (history : List Step) : Action (Pages Recorder) ε Unit := history.forM Step.carryOut

theorem yields_carryOut {history : List Step} :
    (carryOut history : Action (Pages Recorder) ε Unit).Yields pages u pages' ↔
      pages' = history.foldl (fun pages step ↦ step.after pages) pages := by
  induction history generalizing pages with
  | nil => simp [carryOut]
  | cons step history ih =>
    have hcons : (carryOut (step :: history) : Action (Pages Recorder) ε Unit)
        = step.carryOut >>= fun _ ↦ carryOut history := List.forM_cons
    simp [hcons, Step.yields_carryOut, ih]

/-- **All steps of a history.** -/
theorem mirrors_foldl_after (width height : Float32) (history : List Step) :
    Mirrors (history.foldl (fun pages step ↦ step.after pages) (fresh (Recorder.new width height)))
      history := by
  induction history using List.reverseRecOn with
  | nil => exact mirrors_fresh width height
  | append_singleton history step ih =>
    rw [List.foldl_append]
    exact ih.after step

theorem Mirrors.pages_finish {history : List Step} (h : Mirrors pages history) :
    pages.finish.canvas.log.pages
      = (List.range (max 1 (openers history))).map fun k ↦ drawnOn history (k + 1) := by
  rw [finish, h.unfinished]
  exact h.pages_eq

/-- **What becomes of requests and draws.** After any history on fresh pages, a request leaves the
number of pages as it is, and a draw ends a page exactly if it opens another but the first.
Finishing once is finishing: there are as many pages as draws that open one, or a single page, and
what is drawn is on the page whose number is that of the draws up to it that open one. -/
theorem pages_of_history (width height : Float32) (history : List Step) :
    ∃ reached : Pages Recorder,
      (carryOut history : Action (Pages Recorder) ε Unit).Yields
        (fresh (Recorder.new width height)) () reached ∧
      (∃ next, (requestBreak : Action (Pages Recorder) ε Unit).Yields reached () next ∧
        Canvas.pageCount next.canvas = Canvas.pageCount reached.canvas) ∧
      (∃ next, (beforeDraw : Action (Pages Recorder) ε Bool).Yields reached
        (opensPage history && decide (0 < openers history)) next) ∧
      (∀ n, finish^[n + 1] reached = reached.finish) ∧
      Canvas.pageCount reached.finish.canvas = max 1 (openers history) ∧
      reached.finish.canvas.log.pages
        = ((List.range (max 1 (openers history))).map fun k ↦ drawnOn history (k + 1)) ∧
      ∀ before content after, history = before ++ .draw content :: after →
        1 ≤ openers (before ++ [.draw content]) ∧
          ∃ page, reached.finish.canvas.log.pages[openers (before ++ [.draw content]) - 1]? = some page ∧
            content <:+: page := by
  have h := mirrors_foldl_after width height history
  set reached := history.foldl (fun pages step ↦ step.after pages) (fresh (Recorder.new width height))
  have hpages := h.pages_finish
  refine ⟨reached, yields_carryOut.mpr rfl, ⟨reached.broken, yields_requestBreak.mpr rfl, rfl⟩,
    ⟨reached.opened, yields_beforeDraw.mpr ⟨h.endsPage.symm, rfl⟩⟩,
    fun n ↦ finish_iterate_succ n reached, ?_, hpages, ?_⟩
  · exact (congrArg List.length hpages).trans (by simp)
  · rintro before content after rfl
    have hpos : 0 < openers (before ++ [.draw content]) :=
      openers_pos_iff.mpr (by simp [Step.isDraw])
    have hle : openers (before ++ [.draw content]) ≤ openers (before ++ .draw content :: after) :=
      List.append_cons before _ after ▸ openers_le_append after
    refine ⟨hpos, _, ?_, content_infix_drawnOn before content after⟩
    rw [hpages, List.getElem?_map, List.getElem?_range (by omega), Option.map_some,
      Nat.sub_add_cancel hpos]

end Histories

def twoPages : List Step :=
  [.request, .draw [.text ⟨0, 20⟩ "one" "Mono" 9], .request, .request,
    .draw [.text ⟨0, 20⟩ "two" "Mono" 9], .draw [.text ⟨0, 10⟩ "three" "Mono" 9], .request]

theorem pages_of_history_twoPages :
    ∃ reached : Pages Recorder,
      (carryOut twoPages : Action (Pages Recorder) Empty Unit).Yields
        (fresh (Recorder.new 100 100)) () reached ∧
      finish^[2] reached = reached.finish ∧
      reached.finish.canvas.log.pages
        = [[.text ⟨0, 20⟩ "one" "Mono" 9],
          [.text ⟨0, 20⟩ "two" "Mono" 9, .text ⟨0, 10⟩ "three" "Mono" 9]] ∧
      ∃ page, reached.finish.canvas.log.pages[1]? = some page ∧
        [.text ⟨0, 20⟩ "two" "Mono" 9] <:+: page := by
  obtain ⟨reached, hreached, -, -, hfinish, -, hpages, hdraws⟩ :=
    @pages_of_history _ Empty 100 100 twoPages
  obtain ⟨-, hpage⟩ := hdraws (twoPages.take 4) [.text ⟨0, 20⟩ "two" "Mono" 9] (twoPages.drop 5) rfl
  exact ⟨reached, hreached, hfinish 1, hpages, hpage⟩

end Pages

end ReportPress
