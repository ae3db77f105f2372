import ReportPress.Json.Printer
import ReportPress.Json.Reader
import ReportPress.Json.Record
import ReportPress.Markup.Compile
import ReportPress.Render.Machine

/-!
# Configurations

What a report may be told besides its markup: the page, the style to begin with, and where to look
for files. A configuration is written in JSON; fields that are missing there keep their defaults,
and a configuration that leaves no room for text is refused when it is read.
-/

namespace ReportPress

open Number

/-- Which side of the page is up. -/
inductive Orientation where
  | portrait
  /-- On its side: width and height change places. -/
  | landscape
  deriving DecidableEq, Repr

namespace Orientation

def name : Orientation → String
  | .portrait => "portrait"
  | .landscape => "landscape"

def named? (name : String) : Option Orientation :=
  [("portrait", portrait), ("landscape", landscape)].lookup name

/-- An orientation from JSON: its word, or an object with its word as the only name and nothing
under it. -/
def ofJson? : Json → Option Orientation
  | .string word => named? word
  | .object [(word, .null)] => named? word
  | _ => none

end Orientation

inductive ConfigError where
  | pageSize (width height : Float32)
  | fontSize (size : Float32)
  | margins
  | malformed
  deriving DecidableEq

def ConfigError.message : ConfigError → String
  | .pageSize width height =>
    "page size must be positive, got " ++ Single.text width ++ " x " ++ Single.text height
  | .fontSize size => "font size must be positive, got " ++ Single.text size
  | .margins => "vertical margins leave no room on the page"
  | .malformed => "the text is not a configuration in JSON"

structure Config where
  title : String := DrawLog.defaultTitle
  pageWidth : Float32 := 595.28
  pageHeight : Float32 := 841.89
  orientation : Orientation := .portrait
  leftMargin : Float32 := 0.7 * centimetre
  topMargin : Float32 := 0.75 * centimetre
  bottomMargin : Float32 := 1 * centimetre
  family : String := defaultFamily
  size : Float32 := defaultSize
  searchPaths : List Path := []
  maxIncludeDepth : Nat := defaultIncludeDepth
  deriving BEq

namespace Config

def effectiveWidth (config : Config) : Float32 :=
  match config.orientation with
  | .portrait => config.pageWidth
  | .landscape => config.pageHeight

def effectiveHeight (config : Config) : Float32 :=
  match config.orientation with
  | .portrait => config.pageHeight
  | .landscape => config.pageWidth

/-- The width of the page of the older line printer. -/
def legacyWidth : Float32 := 590

def legacyHeight : Float32 := 890

/-- The configuration with the page of the older line printer. -/
def withLegacyPage (config : Config) : Config :=
  { config with pageWidth := legacyWidth, pageHeight := legacyHeight }

/-- Refuses a configuration that leaves no room for text. What is not a number is let pass. -/
def validate (config : Config) : Except ConfigError Unit :=
  if config.pageWidth ≤ 0 ∨ config.pageHeight ≤ 0 then
    .error (.pageSize config.pageWidth config.pageHeight)
  else if config.size ≤ 0 then .error (.fontSize config.size)
  else if config.topMargin + config.bottomMargin ≥ config.effectiveHeight then .error .margins
  else .ok ()

def setup (config : Config) : PageSetup where
  title := config.title
  width := config.effectiveWidth
  height := config.effectiveHeight
  leftMargin := config.leftMargin
  topMargin := config.topMargin
  bottomMargin := config.bottomMargin
  family := config.family
  size := config.size

def resources (config : Config) (around : Surroundings) (files : FileSystem) : Resources :=
  ⟨.standard around config.searchPaths, files⟩

/-! ## The form in JSON -/

def toJson (config : Config) : Json :=
  .object [("title", .string config.title), ("page_width", .ofSingle config.pageWidth),
    ("page_height", .ofSingle config.pageHeight),
    ("orientation", .string config.orientation.name),
    ("left_margin", .ofSingle config.leftMargin), ("top_margin", .ofSingle config.topMargin),
    ("bottom_margin", .ofSingle config.bottomMargin), ("font_family", .string config.family),
    ("font_size", .ofSingle config.size),
    ("search_paths", .ofStrings (config.searchPaths.map Path.text)),
    ("max_include_depth", .ofNat config.maxIncludeDepth)]

def fieldNames : List String :=
  ["title", "page_width", "page_height", "orientation", "left_margin", "top_margin",
   "bottom_margin", "font_family", "font_size", "search_paths", "max_include_depth"]

/-- A configuration from JSON. Each field may be missing. -/
def ofJson? (value : Json) : Option Config := do
  let standard : Config := {}
  match ← value.fields? fieldNames true with
  | [title, width, height, orientation, left, top, bottom, family, size, paths, depth] =>
    return {
      title := ← Json.orDefault? standard.title Json.text? title
      pageWidth := ← Json.orDefault? standard.pageWidth Json.single? width
      pageHeight := ← Json.orDefault? standard.pageHeight Json.single? height
      orientation := ← Json.orDefault? standard.orientation Orientation.ofJson? orientation
      leftMargin := ← Json.orDefault? standard.leftMargin Json.single? left
      topMargin := ← Json.orDefault? standard.topMargin Json.single? top
      bottomMargin := ← Json.orDefault? standard.bottomMargin Json.single? bottom
      family := ← Json.orDefault? standard.family Json.text? family
      size := ← Json.orDefault? standard.size Json.single? size
      searchPaths := ← Json.orDefault? standard.searchPaths
        (Json.list? fun path ↦ path.text?.map Path.mk) paths
      maxIncludeDepth := ← Json.orDefault? standard.maxIncludeDepth
        (Json.natBelow? UInt64.size) depth }
  | _ => none

def toText (config : Config) : String := config.toJson.pretty

/-- A configuration from JSON text; one that leaves no room for text is refused. -/
def ofText (text : String) : Except ConfigError Config :=
  match (Json.read? text).bind ofJson? with
  | none => .error .malformed
  | some config => config.validate.map fun _ ↦ config

end Config

end ReportPress
