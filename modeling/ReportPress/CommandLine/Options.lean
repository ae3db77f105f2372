import ReportPress.File.Path
import ReportPress.Journal.Event

/-!
# Options of the command line

The words after the program's name are read from left to right. A word that starts with a dash is a
flag, except that a lone dash may take the place of the input file and then means standard input.
Two other words may stand anywhere: the input file and the output file. The first word that does not
fit ends the reading.
-/

namespace ReportPress.CommandLine

/-- What the command line asks for. -/
structure Options where
  /-- The markup file; standard input when there is none. -/
  input : Option Path := none
  output : Option Path := none
  config : Option Path := none
  title : Option String := none
  landscape : Bool := false
  legacySize : Bool := false
  dumpCommands : Bool := false
  dumpDraw : Bool := false
  level : Level := .warn
  /-- How many words were taken for files, a lone dash included. -/
  files : Nat := 0
  deriving DecidableEq, Repr

inductive Refusal where
  | help
  | missingTitle
  | missingConfig
  | unknownFlag (word : String)
  | unexpected (word : String)
  deriving DecidableEq, Repr

/-- The wording of each refusal; help needs none. -/
def Refusal.message? : Refusal → Option String
  | .help => none
  | .missingTitle => some "--title needs a value"
  | .missingConfig => some "--config needs a path"
  | .unknownFlag word => some ("Unknown flag: " ++ word)
  | .unexpected word => some ("Unexpected argument: " ++ word)

namespace Options

/-- The options after a word that stands for a file, or for none if it is a lone dash. -/
def addFile (options : Options) (word : String) : Except Refusal Options :=
  match options.files with
  | 0 =>
    .ok { options with
      input := if word = "-" then options.input else some ⟨word⟩
      files := 1 }
  | 1 => .ok { options with output := some ⟨word⟩, files := 2 }
  | _ => .error (.unexpected word)

/-- Reads words on top of options that are already there. -/
def readOnto (options : Options) : List String → Except Refusal Options
  | [] => .ok options
  | word :: rest =>
    if word = "--landscape" ∨ word = "-l" then readOnto { options with landscape := true } rest
    else if word = "--legacy-size" then readOnto { options with legacySize := true } rest
    else if word = "--dump-commands" then readOnto { options with dumpCommands := true } rest
    else if word = "--dump-draw" then readOnto { options with dumpDraw := true } rest
    else if word = "--verbose" ∨ word = "-v" then
      readOnto { options with level := options.level.max .info } rest
    else if word = "--debug" then readOnto { options with level := .debug } rest
    else if word = "--title" ∨ word = "-t" then
      match rest with
      | value :: rest => readOnto { options with title := some value } rest
      | [] => .error .missingTitle
    else if word = "--config" ∨ word = "-c" then
      match rest with
      | value :: rest => readOnto { options with config := some ⟨value⟩ } rest
      | [] => .error .missingConfig
    else if word = "--help" ∨ word = "-h" then .error .help
    else if word.toList.head? = some '-' ∧ ¬(word = "-" ∧ options.files = 0) then
      .error (.unknownFlag word)
    else match options.addFile word with
      | .ok options => readOnto options rest
      | .error refusal => .error refusal

/-- Reads the words after the program's name. -/
def read (words : List String) : Except Refusal Options := readOnto {} words

end Options

def usage (program : String) : List String :=
  ["forge – report markup to PDF converter (report-forge)",
   "",
   "Usage:",
   "  " ++ program ++ " [input|-] [output.pdf] [flags]",
   "",
   "Arguments:",
   "  [input]        Markup file to convert (default: stdin)",
   "  [output.pdf]   Output path  (default: same stem as input with .pdf, or report.pdf)",
   "",
   "Flags:",
   "  --title, -t      Document title in PDF metadata (default: Report)",
   "  --landscape      Use landscape page orientation",
   "  --legacy-size    Use the 590×890 pt legacy printer page",
   "  --config, -c     Read a JSON pipeline config",
   "  --dump-commands  Print the compiled commands as JSON and exit",
   "  --dump-draw      Print the recorded draw log as JSON and exit",
   "  --verbose, -v    Log at info level",
   "  --debug          Log at debug level",
   "  --help           Print this message"]

end ReportPress.CommandLine
