import ReportPress.Canvas.Basic
import ReportPress.Font.Metrics

/-!
# The recording canvas

A canvas that keeps a log of what is drawn and draws nothing. Every face and every image will do; a
font file is read only to measure with, and one that cannot be read as a font leaves the average
advances in place.
-/

namespace ReportPress

structure Recorder where
  log : DrawLog
  current : Array DrawStep
  metrics : FontMetrics

namespace Recorder

def new (width height : Float32) : Recorder := ⟨.blank width height, #[], .builtin⟩

def record (step : DrawStep) (recorder : Recorder) : Recorder :=
  { recorder with current := recorder.current.push step }

def registerFont [Decoders] (files : FileSystem) (face : String) (path : Path) :
    Action Recorder CanvasError Unit := do
  let bytes ← Action.ofExcept ((files.read path).mapError .unreadable)
  match (← Action.state).metrics.load face bytes with
  | .ok metrics => Action.change fun recorder ↦ { recorder with metrics }
  | .error reason => Action.note (.defaultMetricsKept face reason)
  Action.change (record (.registerFont face path.text))

instance [Decoders] : Canvas Recorder DrawLog where
  drawText start text face size := Action.change (record (.text start text face size))
  textWidth recorder := recorder.metrics.width
  setFillColor red green blue := record (.fillColor red green blue)
  setLineWidth width := record (.lineWidth width)
  drawRect a b := record (.rect a b)
  drawRoundedRect a b radius := record (.roundedRect a b radius)
  drawLine start stop := record (.line start stop)
  drawImage _ path corner width height :=
    Action.change (record (.image path.text corner width height))
  registerFont := registerFont
  showPage recorder :=
    { recorder with
      log := { recorder.log with pages := recorder.log.pages ++ [recorder.current.toList] }
      current := #[] }
  pageCount recorder := recorder.log.pages.length
  save recorder info := ({ recorder.log with title := info.title, copies := info.copies }, [])

end Recorder

end ReportPress
