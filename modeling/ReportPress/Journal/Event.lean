import ReportPress.File.Path
import ReportPress.Page.Point
import ReportPress.Text.Quoted

/-!
# Events

What the library has to say while it works: one constructor for each cause, with the wording, the
level and the part of the library it comes from as functions on it. Events never influence a result;
who reads them decides how much of them to show.
-/

namespace ReportPress

open Number Text

inductive Level where
  | error
  | warn
  | info
  | debug
  | trace
  deriving DecidableEq, Repr

namespace Level

def rank : Level → Nat
  | .error => 1
  | .warn => 2
  | .info => 3
  | .debug => 4
  | .trace => 5

def name : Level → String
  | .error => "ERROR"
  | .warn => "WARN"
  | .info => "INFO"
  | .debug => "DEBUG"
  | .trace => "TRACE"

def max (a b : Level) : Level := if a.rank ≤ b.rank then b else a

end Level

inductive Part where
  | compiler
  | locator
  | fonts
  | canvas
  | pagination
  | machine
  | render
  | pipeline
  deriving DecidableEq, Repr

def Part.name : Part → String
  | .compiler => "compiler"
  | .locator => "locator"
  | .fonts => "fonts"
  | .canvas => "canvas"
  | .pagination => "pagination"
  | .machine => "machine"
  | .render => "render"
  | .pipeline => "pipeline"

inductive Event where
  | located (name : String) (path : Path)
  | including (path : Path)
  | compiled (commands : Nat)
  | registeringFont (family : String) (path : Path)
  | defaultMetricsKept (face : String) (reason : String)
  /-- A page break was asked for on a page without marks. -/
  | breakOnEmptyPage
  | pageCommitted (page : Nat)
  | boxStarted (name : String) (start : Point)
  | boxEnded (name : String) (start stop : Point)
  | boxNeverStarted (name : String)
  | lineNeverStarted (name : String)
  | noRoomForText (size y : Float32)
  | noRoomForNextLine (y size : Float32)
  | executing (index : Nat) (label : String)
  | failed (index : Nat) (label : String) (reason : String)
  | imageEmbedded (path : Path) (width height : Nat)
  | rendered (pages copies : Nat)
  | saving (title : String) (pages copies : Nat)

namespace Event

def level : Event → Level
  | .failed .. => .error
  | .boxNeverStarted _ | .lineNeverStarted _ => .warn
  | .rendered .. => .info
  | .executing .. => .trace
  | _ => .debug

def part : Event → Part
  | .located .. => .locator
  | .including _ => .compiler
  | .compiled _ => .pipeline
  | .registeringFont .. => .fonts
  | .defaultMetricsKept .. => .canvas
  | .breakOnEmptyPage | .pageCommitted _ => .pagination
  | .imageEmbedded .. | .saving .. => .render
  | _ => .machine

def message : Event → String
  | .located name path => "located " ++ quote name ++ " at " ++ path.text
  | .including path => "including " ++ path.text
  | .compiled commands => s!"compiled {commands} command(s)"
  | .registeringFont family path => "registering font " ++ quote family ++ " from " ++ path.text
  | .defaultMetricsKept face reason =>
    "recording canvas keeps default metrics for " ++ quote face ++ ": " ++ reason
  | .breakOnEmptyPage => "page break requested but nothing has been drawn on this page"
  | .pageCommitted page => s!"page {page} committed"
  | .boxStarted name start => "box " ++ quote name ++ " start at " ++ start.shown
  | .boxEnded name start stop => "box " ++ quote name ++ " from " ++ start.shown ++ " to " ++ stop.shown
  | .boxNeverStarted name => "box " ++ quote name ++ " ended but never started"
  | .lineNeverStarted name => "line " ++ quote name ++ " ended but never started"
  | .noRoomForText size y =>
    "no room for a " ++ Single.text size ++ "pt line at y=" ++ Single.text y ++ ", new page"
  | .noRoomForNextLine y size =>
    "current pos " ++ Single.text y ++ " leaves no room for a " ++ Single.text size
      ++ "pt line, new page"
  | .executing index label => s!"#{index} {label}"
  | .failed index label reason => s!"failure executing {label} (command #{index}): {reason}"
  | .imageEmbedded path width height => s!"embedded image {path.text} ({width}×{height})"
  | .rendered pages copies => s!"rendered {pages} page(s), {copies} copies requested"
  | .saving title pages copies => s!"saving {quote title}: {pages} page(s), {copies} copies"

end Event

/-- Events in the order in which they happened. -/
abbrev Journal := List Event

def Journal.upTo (journal : Journal) (level : Level) : List Event :=
  journal.filter fun event ↦ event.level.rank ≤ level.rank

end ReportPress
