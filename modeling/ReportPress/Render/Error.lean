import ReportPress.Canvas.Basic
import ReportPress.File.Search
import ReportPress.Font.Family
import ReportPress.Markup.Arguments

/-!
# Why a report cannot be drawn

A failing command ends the report. The error says which command it was; the cause is inside.
-/

namespace ReportPress

open Text

inductive RenderError where
  | unknownCommand (name : String)
  | notFound (cause : NotFound)
  | nothingSaved
  | argument (cause : ArgumentError)
  | unknownFamily (cause : UnknownFamily)
  | canvas (cause : CanvasError)
  | atCommand (index : Nat) (label : String) (cause : RenderError)
  deriving DecidableEq, Repr

namespace RenderError

def message : RenderError → String
  | .unknownCommand name => s!"command {quote name} has not been registered"
  | .notFound cause => cause.message
  | .nothingSaved => "could not restore position because nothing has been saved"
  | .argument cause => cause.message
  | .unknownFamily cause => s!"unknown font family {quote cause.family}"
  | .canvas cause => cause.message
  | .atCommand index label cause => s!"command #{index} ({label}) failed: {cause.message}"

/-- The cause at the bottom. -/
def root : RenderError → RenderError
  | .atCommand _ _ cause => cause.root
  | e => e

end RenderError

end ReportPress
