import ReportPress.CommandLine.Options
import ReportPress.File.Formats
import ReportPress.File.Tree
import ReportPress.Pdf.Writer
import ReportPress.Report.Make

/-!
# Running the command line

What the program prints and writes, as a function of its words, its standard input and the files it
can read. The run itself changes no file: it ends with an exit code, or with a document that is
still to be written. Writing is the last thing to happen, so a file tree and the real files can take
over from there alike.
-/

namespace ReportPress.CommandLine

open Text

/-- What surrounds a run. -/
structure Host where
  program : String
  around : Surroundings
  files : FileSystem

structure Printed where
  output : String := ""
  errors : List String := []
  deriving DecidableEq, Repr

inductive Ending where
  | exit (code : Nat)
  | write (path : Path) (report : Rendered Pdf.Document)

/-- An event as a line on standard error. Lines of its own are set in below the first. -/
def eventLine (event : Event) : String :=
  let level := event.level.name.toList
  let padded := level ++ List.replicate (5 - level.length) ' '
  let message := event.message.toList.flatMap fun c ↦
    if c = '\n' then ['\n', ' ', ' ', ' ', ' '] else [c]
  "[" ++ String.ofList padded ++ " report_forge::" ++ event.part.name ++ "] "
    ++ String.ofList message

def journalLines (level : Level) (journal : Journal) : List String :=
  (journal.upTo level).map eventLine

/-! ## What is read -/

/-- A file as a text that has to be well formed. -/
def readText (files : FileSystem) (path : Path) : Except FileError String :=
  match files.read path with
  | .error e => .error e
  | .ok bytes =>
    match Utf8.decodeStrict? bytes.data.toList with
    | some cs => .ok (String.ofList cs)
    | none => .error .notAText

/-- The configuration in a file, or what is wrong with it. -/
def readConfig (files : FileSystem) (path : Path) : Except String Config :=
  match readText files path with
  | .error e => .error s!"Error reading config '{path.text}': {e.message}"
  | .ok text =>
    match Config.ofText text with
    | .error e => .error s!"Error in config '{path.text}': {(ReportError.config e).message}"
    | .ok config => .ok config

def effectiveConfig (options : Options) (config : Config) : Config :=
  let config := if options.legacySize then config.withLegacyPage else config
  let config := if options.landscape then { config with orientation := .landscape } else config
  let config := match options.title with
    | some title => { config with title }
    | none => config
  match options.input.bind Path.parent? with
  | some dir =>
    if dir.text = "" then config else { config with searchPaths := config.searchPaths ++ [dir] }
  | none => config

def readMarkup (files : FileSystem) (input : Option Path) (stdin : ByteArray) :
    Except String String :=
  match input with
  | none => .ok (Utf8.decodeInput stdin)
  | some path =>
    match files.read path with
    | .ok bytes => .ok (Utf8.decodeInput bytes)
    | .error e => .error s!"Error reading '{path.text}': {e.message}"

/-- Where the document goes: to the path that was given, or next to the input. -/
def outputPath (options : Options) : Path :=
  match options.output, options.input with
  | some path, _ => path
  | none, some input => input.withExtension "pdf"
  | none, none => ⟨"report.pdf"⟩

/-! ## The run -/

def giveUp (lines : List String) (message : String) : Printed × Ending :=
  ({ errors := lines ++ [message] }, .exit 1)

def printResult {α : Type} (level : Level) (work : Traced ReportError α) (text : α → String)
    (trouble : String) : Printed × Ending :=
  let lines := journalLines level work.journal
  match work.result with
  | .ok a => ({ output := text a ++ "\n", errors := lines }, .exit 0)
  | .error e => giveUp lines (trouble ++ e.message)

/-- What a run has to do once its words are understood and its input is read. -/
structure Job where
  options : Options
  config : Config
  markup : String

def perform (host : Host) (job : Job) : Printed × Ending :=
  let resources := job.config.resources host.around host.files
  let level := job.options.level
  if job.options.dumpCommands then
    printResult level (Report.compile resources job.config job.markup) Command.listToText
      "Error compiling markup: "
  else if job.options.dumpDraw then
    printResult level (Report.drawLog resources job.config job.markup) (·.output.toText)
      "Error rendering markup: "
  else
    let work := Report.document resources job.config job.markup
    let lines := journalLines level work.journal
    match work.result with
    | .error e => giveUp lines ("Error generating PDF: " ++ e.message)
    | .ok report => ({ errors := lines }, .write (outputPath job.options) report)

/-- The configuration that options ask for, and the markup; or what is wrong with a file. -/
def readJob (files : FileSystem) (options : Options) (stdin : ByteArray) : Except String Job := do
  let config ← match options.config with
    | none => .ok {}
    | some path => readConfig files path
  let markup ← readMarkup files options.input stdin
  return ⟨options, effectiveConfig options config, markup⟩

/-- How a run ends whose words are refused. -/
def refuse (program : String) (refusal : Refusal) : Printed × Ending :=
  match refusal.message? with
  | none => ({ errors := usage program }, .exit 0)
  | some message => ({ errors := message :: usage program }, .exit 1)

/-- A run of the program, up to the writing of the document. -/
def run (host : Host) (words : List String) (stdin : ByteArray) : Printed × Ending :=
  match Options.read words with
  | .error refusal => refuse host.program refusal
  | .ok options =>
    match readJob host.files options stdin with
    | .error message => giveUp [] message
    | .ok job => perform host job

/-! ## Writing the document -/

def directoryTrouble (e : FileError) : String := "Error creating output directory: " ++ e.message

def writeTrouble (path : Path) (e : FileError) : String :=
  s!"Error writing '{path.text}': {e.message}"

def summary (path : Path) (size : Nat) (report : Rendered Pdf.Document) : String :=
  let pages := if report.pages = 1 then "" else "s"
  let copies := if report.copies = 1 then "y" else "ies"
  s!"Wrote '{path.text}' ({size} bytes, {report.pages} page{pages}, {report.copies} cop{copies})"

/-- Writes a document into a tree, making the directories above it. -/
def writeInto (tree : FileTree) (here : Place) (path : Path) (report : Rendered Pdf.Document) :
    FileTree × String × Nat :=
  match tree.makeDirectories here ((path.parent?).getD ⟨""⟩) with
  | .error e => (tree, directoryTrouble e, 1)
  | .ok tree =>
    let bytes := report.output.toBytes
    match tree.write here path bytes with
    | .error e => (tree, writeTrouble path e, 1)
    | .ok tree => (tree, summary path bytes.size report, 0)

/-- A run of the program in a tree: what it printed, its exit code and the tree it leaves. -/
def runIn (tree : FileTree) (here : Place) (program : String) (around : Surroundings)
    (words : List String) (stdin : ByteArray) : Printed × Nat × FileTree :=
  let (printed, ending) := run ⟨program, around, tree.toFileSystem here⟩ words stdin
  match ending with
  | .exit code => (printed, code, tree)
  | .write path report =>
    let (tree, message, code) := writeInto tree here path report
    ({ printed with errors := printed.errors ++ [message] }, code, tree)

end ReportPress.CommandLine
