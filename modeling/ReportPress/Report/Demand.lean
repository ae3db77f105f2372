import ReportPress.Report.Make

/-!
# The files that a report asks for

Once the markup is compiled, a report asks for files in two places only: where a tag places an image
and where a family without faces is selected. The names can be read off the commands, so a host may
look at the files before the report is drawn.
-/

namespace ReportPress

/-- The bare name of the file that a command asks for, if it asks for one. A font that is known by
then is not asked for again. -/
def Command.fileName? : Command → Option String
  | .invoke name args =>
    match Operation.named? name with
    | some .picture => (args.value? 0 "fname").map SearchPath.bareName
    | some .fontName =>
      (args.value? 0 "name").map fun given ↦ SearchPath.bareName (Machine.familyName given)
    | _ => none
  | _ => none

/-- The bare names of the files that a report asks for, given its first family and its commands. -/
def Report.fileNames (family : String) (commands : List Command) : List String :=
  SearchPath.bareName family :: commands.filterMap Command.fileName?

end ReportPress
