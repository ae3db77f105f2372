import ReportPress.CommandLine.Run
import ReportPress.Report.Demand

/-!
# The program

The outer layer of the command line. It looks at the files that a run may ask for, leaves the run
itself to `CommandLine`, and then prints and writes what the run says.

Which files are included is known only once those that include them are read. So the markup is
compiled again and again, each time with the file that was missing, until nothing more is missing.
-/

namespace ReportPress.CommandLine

/-- What was seen at a path. -/
structure Sighting where
  isFile : Bool
  content : Except FileError ByteArray

/-- What was seen so far, the latest first. -/
abbrev Sightings := List (Path × Sighting)

def Sightings.files (seen : Sightings) : FileSystem where
  isFile path := (seen.lookup path).any (·.isFile)
  read path := match seen.lookup path with
    | some sighting => sighting.content
    | none => .error .notFound

def fileError (e : IO.Error) : FileError :=
  match e with
  | .noFileOrDirectory _ _ _ => .notFound
  | .alreadyExists _ _ _ => .alreadyExists
  | .permissionDenied _ _ _ => .permissionDenied
  | .inappropriateType _ code _ => if code = 20 then .notADirectory else .isADirectory
  | .invalidArgument _ 36 _ | .otherError 36 _ => .nameTooLong
  | _ => .other (toString e)

def seesFile (path : Path) : IO Bool := do
  match ← ((← IO.currentDir) / path.text).metadata.toBaseIO with
  | .ok found => return found.type == .file
  | .error _ => return false

def readAt (path : Path) : IO (Except FileError ByteArray) := do
  if path.text.toList.contains '\x00' then return .error .nullInPath
  return (← (IO.FS.readBinFile path.text).toBaseIO).mapError fileError

/-- Looks at a path unless it was looked at before. Only files are read. -/
def look (seen : Sightings) (path : Path) : IO Sightings := do
  if (seen.lookup path).isSome then return seen
  if ← seesFile path then return (path, ⟨true, ← readAt path⟩) :: seen
  return (path, ⟨false, .error .notFound⟩) :: seen

/-- Reads a path that was named on the command line, whatever it leads to. -/
def readNamed (seen : Sightings) : Option Path → IO Sightings
  | none => return seen
  | some path => return (path, ⟨← seesFile path, ← readAt path⟩) :: seen

/-- Looks at the files that a job asks for. -/
partial def gather (around : Surroundings) (job : Job) (seen : Sightings) : IO Sightings := do
  let resources := job.config.resources around seen.files
  let names := match (Report.compile resources job.config job.markup).result with
    | .ok commands => Report.fileNames job.config.family commands
    | .error (.compile (.missingInclude _ cause)) => [cause.name]
    | .error _ => []
  let more ← (names.flatMap resources.search.candidates).foldlM look seen
  if more.length = seen.length then return seen else gather around job more

partial def readAll (stream : IO.FS.Stream) (done : ByteArray) : IO ByteArray := do
  let more ← stream.read 65536
  if more.isEmpty then return done else readAll stream (done ++ more)

/-- Writes a document, making the directories above it. The result is what to say, and the exit
code. -/
def writeDocument (path : Path) (report : Rendered Pdf.Document) : IO (String × UInt32) := do
  let bytes := report.output.toBytes
  if let some parent := path.parent? then
    if parent.text ≠ "" then
      if let .error e ← (IO.FS.createDirAll parent.text).toBaseIO then
        return (directoryTrouble (fileError e), 1)
  match ← (IO.FS.writeBinFile path.text bytes).toBaseIO with
  | .error e => return (writeTrouble path (fileError e), 1)
  | .ok () => return (summary path bytes.size report, 0)

def carryOut (program : String) (around : Surroundings) (words : List String) :
    IO (Printed × Ending) := do
  match Options.read words with
  | .error refusal => return refuse program refusal
  | .ok options =>
    let seen ← readNamed (← readNamed [] options.config) options.input
    let stdin ← if options.input.isSome then pure .empty else readAll (← IO.getStdin) .empty
    match readJob seen.files options stdin with
    | .error message => return giveUp [] message
    | .ok job => return perform ⟨program, around, (← gather around job seen).files⟩ job

end ReportPress.CommandLine

open ReportPress ReportPress.CommandLine in
def main (words : List String) : IO UInt32 := do
  let here ← IO.appPath
  let around : Surroundings :=
    ⟨⟨(← IO.currentDir).toString⟩, ⟨((here.parent).map toString).getD ""⟩⟩
  let (printed, ending) ← carryOut (here.fileName.getD "forge") around words
  for line in printed.errors do IO.eprintln line
  IO.print printed.output
  match ending with
  | .exit code => return code.toUInt32
  | .write path report =>
    let (message, code) ← writeDocument path report
    IO.eprintln message
    return code
