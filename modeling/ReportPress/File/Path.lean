/-!
# Paths

A path is shown as it was first written, but compared by its components: repeated and trailing
slashes and inner dots make no difference, while a dot in front does. Joining, taking the directory
and replacing the extension work on the written form, so that nothing else of it changes.
-/

namespace ReportPress

structure Path where
  text : String
  deriving DecidableEq, Repr, Inhabited

namespace Path

def segments (p : Path) : List (List Char) := p.text.toList.splitOn '/'

def isAbsolute (p : Path) : Bool := p.text.toList.head? = some '/'

/-- Whether a segment changes nothing, unless it is the first of a path. -/
def isIdle (segment : List Char) : Bool := segment = [] || segment = ['.']

/-- What a path is compared by: a slash for the root or a dot in front, then the names. -/
def components (p : Path) : List (List Char) :=
  match p.segments with
  | [] => []
  | first :: rest =>
    let front := if p.isAbsolute then [['/']] else if first = [] then [] else [first]
    front ++ rest.filter fun segment ↦ !isIdle segment

def sameAs (p q : Path) : Bool := p.components = q.components

/-- The path of `name` in the directory `dir`. An absolute name stands for itself. -/
def join (dir : Path) (name : String) : Path :=
  if (Path.mk name).isAbsolute then ⟨name⟩
  else if dir.text = "" ∨ dir.text.toList.getLast? = some '/' then ⟨dir.text ++ name⟩
  else ⟨dir.text ++ "/" ++ name⟩

def ofSegments (segments : List (List Char)) : Path :=
  ⟨String.ofList (['/'].intercalate segments)⟩

/-- The segments up to the last that is not idle; the first is always kept. -/
def dropIdle : List (List Char) → List (List Char)
  | [] => []
  | first :: rest => first :: (rest.reverse.dropWhile isIdle).reverse

/-- The directory that holds the last component; none for the root and the empty path. -/
def parent? (p : Path) : Option Path :=
  if p.text = "" then none
  else match dropIdle p.segments with
    | [] => none
    | [first] => if first = [] then none else some ⟨""⟩
    | several =>
      match dropIdle several.dropLast with
      | [[]] => some ⟨"/"⟩
      | rest => some (ofSegments rest)

/-- A file name without its extension. A name that starts with its only dot has none. -/
def stem (name : List Char) : List Char :=
  match (name.reverse.dropWhile (· ≠ '.')).reverse.dropLast with
  | [] => name
  | front => front

def withExtension (p : Path) (extension : String) : Path :=
  let kept := dropIdle p.segments
  match kept.getLast? with
  | none => p
  | some name =>
    if isIdle name ∨ name = ['.', '.'] then p
    else ⟨(ofSegments (kept.dropLast ++ [stem name])).text ++ "." ++ extension⟩

end Path

end ReportPress
