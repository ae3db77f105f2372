import ReportPress.File.Resources
import ReportPress.Markup.Command
import ReportPress.Markup.Line
import ReportPress.Text.Utf8

/-!
# Compiling markup

Each line is compiled on its own: its segments in order, then a line end if the line had one. A tag
that includes a file is replaced by what the file compiles to. How an include is carried out is a
parameter of the line compiler, so that the same compiler also serves for markup whose includes are
left alone; the expanding one counts down the depth that is left, which is why files that include
one another in a circle do not keep it busy for ever.
-/

namespace ReportPress

open Text Markup

inductive CompileError where
  /-- An opening mark has no closing brace on its line. -/
  | unclosedTag (line column : Nat)
  | malformedTag (line : Nat) (tag : String)
  | missingInclude (line : Nat) (cause : NotFound)
  | tooDeep (file : String) (depth : Nat)
  | unreadable (path : Path) (cause : FileError)
  deriving DecidableEq, Repr

def CompileError.message : CompileError → String
  | .unclosedTag line column =>
    s!"line {line}, column {column}: tag is missing its closing brace"
  | .malformedTag line tag => s!"line {line}: malformed tag {quote tag}"
  | .missingInclude line cause => s!"line {line}: include failed: {cause.message}"
  | .tooDeep file depth =>
    s!"include of {quote file} exceeds the maximum nesting depth of {depth}"
  | .unreadable path cause => s!"could not read {path.text}: {cause.message}"

/-! ## Tags -/

structure Tag where
  /-- What stands in the braces, without blanks around it. -/
  text : String
  name : String
  args : Arguments

namespace Tag

/-- The name and the parameter text in the trimmed body of a tag; none when an opening parenthesis
is not matched by a closing one at the end. Without parentheses there is no parameter text. -/
def split? (body : List Char) : Option (List Char × Option (List Char)) :=
  match body.dropWhile (· ≠ '(') with
  | [] => some (body, none)
  | _ :: rest =>
    let inner := trimEnd rest
    if inner.getLast? = some ')' then
      some (trim (body.takeWhile (· ≠ '(')), some inner.dropLast)
    else none

/-- The tag in the braces; none when it is malformed. A name is not empty and has no blanks in
it. -/
def ofBody? (body : List Char) : Option Tag :=
  match split? (trim body) with
  | none => none
  | some (name, parameters) =>
    if name = [] ∨ name.any isBlank then none
    else
      let args := match parameters with
        | none => Arguments.none
        | some raw => .ofParameters (String.ofList raw)
      some ⟨String.ofList (trim body), String.ofList name, args⟩

def includeName : String := "INCLUDE"

end Tag

/-! ## Lines -/

abbrev Expansion : Type := (line : Nat) → Tag → Traced CompileError (List Command)

def compileSegment (expand : Expansion) (line : Nat) :
    Segment → Traced CompileError (List Command)
  | .text content => pure [.literal (String.ofList content)]
  | .unclosed column => .fail (.unclosedTag line column)
  | .tag body =>
    match Tag.ofBody? body with
    | none => .fail (.malformedTag line (String.ofList (trim body)))
    | some tag =>
      if tag.name = Tag.includeName then expand line tag else pure [.invoke tag.name tag.args]

def compileLine (expand : Expansion) (line : Nat) (raw : List Char) :
    Traced CompileError (List Command) := do
  let commands ← Traced.collect (compileSegment expand line) (Segment.scan 1 (clean raw))
  return commands ++ (if raw.getLast? = some '\n' then [.newline] else [])

def compileLines (expand : Expansion) (raws : List (List Char)) :
    Traced CompileError (List Command) :=
  Traced.collect (fun (raw, line) ↦ compileLine expand line raw) (raws.zipIdx 1)

/-! ## Includes -/

/-- Compiles the file that an include tag names, as long as some depth is left. -/
def expandInclude (resources : Resources) (limit : Nat) : (left : Nat) → Expansion
  | left, line, tag =>
    match tag.args.positional with
    | [] => .fail (.malformedTag line tag.text)
    -- What else the tag says is not looked at.
    | file :: _ =>
      match left with
      | 0 => .fail (.tooDeep file limit)
      | left + 1 => do
        let path ← (resources.locate file).mapError (.missingInclude line)
        Traced.note (.including path)
        let bytes ← Traced.ofExcept ((resources.files.read path).mapError (.unreadable path))
        compileLines (expandInclude resources limit left) (lines (Utf8.decodeInput bytes).toList)

def defaultIncludeDepth : Nat := 32

namespace Markup

/-- Compiles lines that were cut before; each keeps its own line feed, if it has one. This is for
callers of the library that have lines and no text. -/
def compileCut (resources : Resources) (limit : Nat) (cut : List String) :
    Traced CompileError (List Command) :=
  compileLines (expandInclude resources limit limit) (cut.map String.toList)

def compile (resources : Resources) (limit : Nat) (source : String) :
    Traced CompileError (List Command) :=
  compileLines (expandInclude resources limit limit) (lines source.toList)

/-- Compiles a file. This is for callers of the library that have a path and no text; the command
line reads its input itself. -/
def compileFile (resources : Resources) (limit : Nat) (path : Path) :
    Traced CompileError (List Command) := do
  let bytes ← Traced.ofExcept ((resources.files.read path).mapError (.unreadable path))
  compile resources limit (Utf8.decodeInput bytes)

end Markup

end ReportPress
