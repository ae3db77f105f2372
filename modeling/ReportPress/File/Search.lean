import ReportPress.File.System
import ReportPress.Text.Blank
import ReportPress.Text.Quotes
import ReportPress.Text.Quoted

/-!
# The search path

Includes, pictures and fonts are named in the markup and looked for on a list of directories, each
of which brings its `images` and `templates` directories along. A directory that is already on the
list is not added again, however it is spelled; the spelling that came first is the one that is
shown.
-/

namespace ReportPress

structure NotFound where
  /-- The name without blanks and quotes around it. -/
  name : String
  searched : List Path
  deriving DecidableEq, Repr

def NotFound.message (e : NotFound) : String :=
  "could not find " ++ Text.quote e.name ++ " in any of: " ++
    " : ".intercalate (e.searched.map Path.text)

structure Found where
  path : Path
  /-- Whether the name led to the file without any directory of the search path. -/
  direct : Bool
  deriving DecidableEq, Repr

/-- The directories of the machine that every standard search path ends with, apart from the two of
the system. -/
structure Surroundings where
  working : Path
  /-- The directory of the running program. -/
  program : Path
  deriving Repr, Inhabited

structure SearchPath where
  directories : List Path
  deriving DecidableEq, Repr, Inhabited

namespace SearchPath

/-- A directory and the two beneath it that are searched with it. -/
def family (dir : Path) : List Path := [dir, dir.join "images", dir.join "templates"]

/-- The search path with one more directory at its end, unless it is there already. -/
def add (path : SearchPath) (dir : Path) : SearchPath :=
  if path.directories.any (·.sameAs dir) then path else ⟨path.directories ++ [dir]⟩

def ofDirectories (dirs : List Path) : SearchPath := (dirs.flatMap family).foldl add ⟨[]⟩

/-- The search path of a report: directories of its own, then those around it and of the system. -/
def standard (around : Surroundings) (own : List Path) : SearchPath :=
  ofDirectories (own ++ [around.working, around.program, ⟨"/etc"⟩, ⟨"/usr/local/etc"⟩])

/-- The name that is looked for: without blanks around it, then without one pair of quotes. -/
def bareName (name : String) : String := String.ofList (Text.unquote (Text.trim name.toList))

/-- The paths that a bare name may lead to: itself as it stands, then, unless it is absolute, the
paths of that name in the directories. -/
def candidates (path : SearchPath) (bare : String) : List Path :=
  ⟨bare⟩ :: if (Path.mk bare).isAbsolute then [] else path.directories.map (·.join bare)

def locate (path : SearchPath) (files : FileSystem) (name : String) : Except NotFound Found :=
  let bare := bareName name
  match (path.candidates bare).find? files.isFile with
  | some found => .ok ⟨found, found = ⟨bare⟩⟩
  | none => .error ⟨bare, path.directories⟩

end SearchPath

end ReportPress
