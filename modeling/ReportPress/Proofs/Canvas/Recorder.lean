import ReportPress.Canvas.Recorder
import ReportPress.Proofs.Journal.Failure

/-!
# What is on record

A record is a list of pages, the last of which is in progress, or a list of steps when the page ends
are left out. Recording a step adds it at the end of both; ending a page begins an empty one and
adds no step.

Some steps leave a mark on the page. The others prepare for marks to come.
-/

namespace ReportPress

namespace DrawStep

deriving instance DecidableEq for DrawStep

/-- Whether a step leaves a mark on the page. -/
def isMark : DrawStep → Bool
  | .text .. | .rect .. | .roundedRect .. | .line .. | .image .. => true
  | .fillColor .. | .lineWidth .. | .registerFont .. => false

def content? : DrawStep → Option String
  | .text _ content _ _ => some content
  | _ => none

end DrawStep

theorem DrawLog.texts_eq (log : DrawLog) :
    log.texts = log.pages.flatten.filterMap DrawStep.content? := rfl

namespace Recorder

variable {recorder after : Recorder}

/-- The pages on record, with the one in progress. -/
def pages (recorder : Recorder) : List (List DrawStep) :=
  recorder.log.pages ++ [recorder.current.toList]

def steps (recorder : Recorder) : List DrawStep := recorder.pages.flatten

theorem steps_eq (recorder : Recorder) :
    recorder.steps = recorder.log.pages.flatten ++ recorder.current.toList := by
  simp [steps, pages]

@[simp] theorem log_record (step : DrawStep) (recorder : Recorder) :
    (recorder.record step).log = recorder.log := rfl

@[simp] theorem current_record (step : DrawStep) (recorder : Recorder) :
    (recorder.record step).current.toList = recorder.current.toList ++ [step] := by
  simp [record]

@[simp] theorem steps_record (step : DrawStep) (recorder : Recorder) :
    (recorder.record step).steps = recorder.steps ++ [step] := by
  simp [steps_eq]

variable [Decoders]

@[simp] theorem pages_log_showPage (recorder : Recorder) :
    (Canvas.showPage recorder).log.pages = recorder.pages := rfl

@[simp] theorem current_showPage (recorder : Recorder) :
    (Canvas.showPage recorder).current.toList = [] := rfl

@[simp] theorem steps_showPage (recorder : Recorder) :
    (Canvas.showPage recorder).steps = recorder.steps := by
  rw [steps_eq, pages_log_showPage, current_showPage, List.append_nil, steps]

/-- A face is on record when its file was read, whether or not it is one to measure with. -/
theorem yields_registerFont {files : FileSystem} {face : String} {path : Path} {u : Unit} :
    (registerFont files face path).Yields recorder u after ↔
      ∃ bytes, files.read path = .ok bytes ∧
        after = { recorder with
          metrics := (recorder.metrics.load face bytes).toOption.getD recorder.metrics }.record
            (.registerFont face path.text) := by
  cases hread : files.read path with
  | error e => simp [registerFont, and_assoc, hread]
  | ok bytes =>
    cases hload : recorder.metrics.load face bytes with
    | error e =>
      simp [registerFont, and_assoc, hread, hload, Except.toOption]
    | ok metrics =>
      simp [registerFont, and_assoc, hread, hload, Except.toOption]

/-- Only a file that cannot be read makes a recorder fail, and then nothing is on record. -/
theorem breaks_registerFont {files : FileSystem} {face : String} {path : Path} {e : CanvasError} :
    (registerFont files face path).Breaks recorder e after ↔
      ∃ cause, files.read path = .error cause ∧ e = .unreadable cause ∧ after = recorder := by
  cases hread : files.read path with
  | error cause => simp [registerFont, hread, eq_comm (a := e)]
  | ok bytes =>
    cases hload : recorder.metrics.load face bytes <;> simp [registerFont, hread, hload]

end Recorder

end ReportPress
