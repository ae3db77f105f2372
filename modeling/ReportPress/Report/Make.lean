import ReportPress.Canvas.Recorder
import ReportPress.Pdf.Canvas
import ReportPress.Report.Config

/-!
# Making reports

From markup to a finished document: the configuration is checked, the markup is compiled, and a
machine carries the commands out. The same steps make a draw log or a document, depending on the
canvas.
-/

namespace ReportPress

inductive ReportError where
  | compile (cause : CompileError)
  | render (cause : RenderError)
  | config (cause : ConfigError)
  deriving DecidableEq

def ReportError.message : ReportError → String
  | .compile cause => "compile failed: " ++ cause.message
  | .render cause => "render failed: " ++ cause.message
  | .config cause => "invalid configuration: " ++ cause.message

namespace Report

variable {C Output : Type} [Canvas C Output]

def compile (resources : Resources) (config : Config) (markup : String) :
    Traced ReportError (List Command) := do
  let commands ← (Markup.compile resources config.maxIncludeDepth markup).mapError .compile
  Traced.note (.compiled commands.length)
  return commands

/-- What a canvas makes of some commands. -/
def draw (resources : Resources) (setup : PageSetup) (canvas : C) (commands : List Command) :
    Traced RenderError (Rendered Output) := do
  let machine ← Machine.start resources canvas setup
  let (outcome, machine) := Machine.run resources commands machine
  outcome
  let (rendered, journal) := machine.finish
  ⟨.ok rendered, journal⟩

/-- What a canvas makes of some markup. -/
def make (resources : Resources) (config : Config) (canvas : PageSetup → C) (markup : String) :
    Traced ReportError (Rendered Output) := do
  Traced.ofExcept (config.validate.mapError .config)
  let commands ← compile resources config markup
  (draw resources config.setup (canvas config.setup) commands).mapError .render

def drawLog [Decoders] (resources : Resources) (config : Config) (markup : String) :
    Traced ReportError (Rendered DrawLog) :=
  make resources config (fun setup ↦ Recorder.new setup.width setup.height) markup

def document [Decoders] (resources : Resources) (config : Config) (markup : String) :
    Traced ReportError (Rendered Pdf.Document) :=
  make resources config (fun setup ↦ Pdf.PageCanvas.new setup.title setup.width setup.height) markup

end Report

end ReportPress
