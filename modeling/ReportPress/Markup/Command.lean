import ReportPress.Json.Printer
import ReportPress.Json.Reader
import ReportPress.Json.Record
import ReportPress.Markup.Arguments

/-!
# Commands

What markup compiles to: texts to draw, line ends, and tags to carry out, in order. A command has a
label for messages, a form in the markup and a form in JSON.
-/

namespace ReportPress

open Text

inductive Command where
  | literal (text : String)
  | newline
  | invoke (name : String) (args : Arguments)
  deriving DecidableEq

namespace Command

/-- How messages name a command. -/
def label : Command → String
  | .literal text => "text " ++ quote text
  | .newline => "newline"
  | .invoke name args => if args.isEmpty then name else name ++ "(" ++ args.toParameters ++ ")"

def markup : Command → String
  | .literal text => text
  | .newline => "\n"
  | command => "\x7b$" ++ command.label ++ "\x7d"

/-! ## The form in JSON -/

def argumentsToJson (args : Arguments) : Json :=
  .object [("positional", .ofStrings args.positional),
    ("keyword", .object (args.keyword.entries.map fun (key, value) ↦ (key, .string value)))]

def toJson : Command → Json
  | .literal text => .object [("kind", .string "literal"), ("text", .string text)]
  | .newline => .object [("kind", .string "newline")]
  | .invoke name args =>
    .object [("kind", .string "invoke"), ("name", .string name), ("args", argumentsToJson args)]

def argumentsOfJson? (value : Json) : Option Arguments := do
  match ← value.fields? ["positional", "keyword"] false with
  | [some positional, some keyword] =>
    return ⟨← positional.list? Json.text?, .ofList (← keyword.texts?)⟩
  | _ => none

/-- A command in a list has this much nesting left below it. -/
def nestingLeft : Nat := 126

def ofJson? (value : Json) : Option Command := do
  let (kind, rest) ← value.tagged? "kind" nestingLeft
  match kind with
  | "literal" =>
    match ← rest.fields? ["text"] false with
    | [some text] => return .literal (← text.text?)
    | _ => none
  | "newline" => (rest.fields? [] false).map fun _ ↦ .newline
  | "invoke" =>
    match ← rest.fields? ["name", "args"] false with
    | [some name, some args] => return .invoke (← name.text?) (← argumentsOfJson? args)
    | _ => none
  | _ => none

def listToText (commands : List Command) : String := Json.pretty (.array (commands.map toJson))

def listOfText? (text : String) : Option (List Command) := do
  (← Json.read? text).list? ofJson?

end Command

end ReportPress
