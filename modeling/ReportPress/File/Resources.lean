import ReportPress.File.Search
import ReportPress.Journal.Traced

/-!
# Resources

Everything a report may refer to by name: a file system and the directories to look in. A name found
in one of the directories is worth an event; a name that led to its file directly is not.
-/

namespace ReportPress

structure Resources where
  search : SearchPath
  files : FileSystem

namespace Resources

def locate (resources : Resources) (name : String) : Traced NotFound Path :=
  match resources.search.locate resources.files name with
  | .error e => .fail e
  | .ok found =>
    ⟨.ok found.path, if found.direct then [] else [.located (SearchPath.bareName name) found.path]⟩

end Resources

end ReportPress
