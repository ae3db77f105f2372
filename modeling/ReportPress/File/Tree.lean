import ReportPress.File.System

/-!
# File trees

A file system held in memory: files and directories by their place under the root. A path is
followed segment by segment, so a directory that a path merely passes through has to exist, and
going up from a file is an error. Relative paths start at a directory given with them.
-/

namespace ReportPress

abbrev Place := List String

inductive Entry where
  | file (bytes : ByteArray)
  | directory

/-- The entries of a file system by place. The root is always a directory. -/
structure FileTree where
  entries : List (Place × Entry)

namespace FileTree

def empty : FileTree := ⟨[]⟩

def find? (tree : FileTree) (place : Place) : Option Entry :=
  if place = [] then some .directory else tree.entries.lookup place

def put (tree : FileTree) (place : Place) (entry : Entry) : FileTree :=
  ⟨(place, entry) :: tree.entries.filter (·.1 ≠ place)⟩

def isTooLong (segment : List Char) : Bool := 255 < (String.ofList segment).utf8ByteSize

/-- Follows segments from what stands at a place. -/
def follow (tree : FileTree) : Place → Entry → List (List Char) → Except FileError (Place × Entry)
  | place, entry, [] => .ok (place, entry)
  | _, .file _, _ :: _ => .error .notADirectory
  | place, .directory, segment :: rest =>
    if Path.isIdle segment then follow tree place .directory rest
    else if segment = ['.', '.'] then follow tree place.dropLast .directory rest
    else if isTooLong segment then .error .nameTooLong
    else
      let next := place ++ [String.ofList segment]
      match tree.find? next with
      | none => .error .notFound
      | some entry => follow tree next entry rest

def start (here : Place) (path : Path) : Place := if path.isAbsolute then [] else here

def resolve (tree : FileTree) (here : Place) (path : Path) : Except FileError (Place × Entry) :=
  if path.text.toList.contains '\x00' then .error .nullInPath
  else if path.text = "" then .error .notFound
  else tree.follow (start here path) .directory path.segments

def toFileSystem (tree : FileTree) (here : Place) : FileSystem where
  isFile path := match tree.resolve here path with
    | .ok (_, .file _) => true
    | _ => false
  read path := match tree.resolve here path with
    | .ok (_, .file bytes) => .ok bytes
    | .ok (_, .directory) => .error .isADirectory
    | .error e => .error e

/-! ## Writing -/

/-- Follows segments and makes a directory wherever a name is missing. -/
def makeAlong (tree : FileTree) : Place → Entry → List (List Char) → Except FileError FileTree
  | _, .directory, [] => .ok tree
  | _, .file _, [] => .error .alreadyExists
  | _, .file _, _ :: _ => .error .notADirectory
  | place, .directory, segment :: rest =>
    if Path.isIdle segment then makeAlong tree place .directory rest
    else if segment = ['.', '.'] then makeAlong tree place.dropLast .directory rest
    else if isTooLong segment then .error .nameTooLong
    else
      let next := place ++ [String.ofList segment]
      match tree.find? next with
      | none => makeAlong (tree.put next .directory) next .directory rest
      | some entry => makeAlong tree next entry rest

/-- The tree with the directory that a path names, and all directories above it, made where they
were missing. -/
def makeDirectories (tree : FileTree) (here : Place) (path : Path) : Except FileError FileTree :=
  if path.text = "" then .ok tree
  else if path.text.toList.contains '\x00' then .error .nullInPath
  else tree.makeAlong (start here path) .directory path.segments

/-- The tree with a file written. The directory has to exist; a file of that name is replaced. -/
def write (tree : FileTree) (here : Place) (path : Path) (bytes : ByteArray) :
    Except FileError FileTree :=
  if path.text.toList.contains '\x00' then .error .nullInPath
  else match path.segments.getLast? with
    | none => .error .notFound
    | some name =>
      match tree.follow (start here path) .directory path.segments.dropLast with
      | .error e => .error e
      | .ok (_, .file _) => .error .notADirectory
      | .ok (place, .directory) =>
        if path.text = "" then .error .notFound
        else if Path.isIdle name ∨ name = ['.', '.'] then .error .isADirectory
        else if isTooLong name then .error .nameTooLong
        else
          let target := place ++ [String.ofList name]
          match tree.find? target with
          | some .directory => .error .isADirectory
          | _ => .ok (tree.put target (.file bytes))

end FileTree

end ReportPress
