import ReportPress.File.Resources

/-!
# Font families

A family gives a face for each of the four styles. Five families are built in. Any other family has
one face, read from a file that is found by the family's name; that face then stands for all styles.
A registry only ever grows: a family that is known keeps its faces.
-/

namespace ReportPress

open Text

structure Faces where
  regular : String
  bold : String
  italic : String
  boldItalic : String
  deriving DecidableEq, Repr

namespace Faces

def choose (faces : Faces) (bold italic : Bool) : String :=
  match bold, italic with
  | false, false => faces.regular
  | true, false => faces.bold
  | false, true => faces.italic
  | true, true => faces.boldItalic

def single (face : String) : Faces := ⟨face, face, face, face⟩

def toList (faces : Faces) : List String :=
  [faces.regular, faces.bold, faces.italic, faces.boldItalic]

end Faces

/-- The families that need no file. -/
def builtinFamilies : List (String × Faces) :=
  [("courier", ⟨"Courier", "Courier-Bold", "Courier-Oblique", "Courier-BoldOblique"⟩),
   ("helvetica",
     ⟨"Helvetica", "Helvetica-Bold", "Helvetica-Oblique", "Helvetica-BoldOblique"⟩),
   ("times", ⟨"Times-Roman", "Times-Bold", "Times-Italic", "Times-BoldItalic"⟩),
   ("symbol", .single "Symbol"),
   ("dingbat", .single "ZapfDingbats")]

/-- The names of the faces that need no file. -/
def builtinFaces : List String :=
  builtinFamilies.flatMap fun (_, faces) ↦ faces.toList

structure UnknownFamily where
  family : String
  deriving DecidableEq, Repr

/-- The families that are known, with their faces. -/
structure FontRegistry where
  families : List (String × Faces)
  deriving DecidableEq, Repr

namespace FontRegistry

def builtin : FontRegistry := ⟨builtinFamilies⟩

/-- What a family is known by: its name without blanks around it, in small ASCII letters. -/
def key (family : String) : String := String.ofList ((trim family.toList).map Char.toLower)

def faces? (registry : FontRegistry) (family : String) : Option Faces :=
  registry.families.lookup (key family)

def isKnown (registry : FontRegistry) (family : String) : Bool := (registry.faces? family).isSome

def resolve (registry : FontRegistry) (family : String) (bold italic : Bool) :
    Except UnknownFamily String :=
  match registry.faces? family with
  | some faces => .ok (faces.choose bold italic)
  | none => .error ⟨family⟩

/-- The registry with one face for all styles of a family. -/
def add (registry : FontRegistry) (family face : String) : FontRegistry :=
  ⟨registry.families ++ [(key family, .single face)]⟩

/-- Makes sure that a family has faces, by a way to find a file of a name. The file that has to be
embedded for the family is the result, if there is one; its face is named as the family was spelled,
without the blanks around it. -/
def ensureBy (locate : String → Traced NotFound Path) (family : String) :
    Action FontRegistry NotFound (Option Path) := do
  if (← Action.state).isKnown family then return none
  let path ← Action.lift (locate family)
  Action.note (.registeringFont family path)
  Action.change fun registry ↦ registry.add family (String.ofList (trim family.toList))
  return some path

/-- Makes sure that a family has faces, with a file from the resources of a report. -/
def ensure (resources : Resources) (family : String) : Action FontRegistry NotFound (Option Path) :=
  ensureBy resources.locate family

end FontRegistry

end ReportPress
