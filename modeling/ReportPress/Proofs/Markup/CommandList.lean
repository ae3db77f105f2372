import Mathlib
import ReportPress.Markup.Command
import ReportPress.Proofs.Json.Record
import ReportPress.Proofs.Json.Values
import ReportPress.Proofs.Markup.Keywords

/-!
# Command lists are read back

A command list in JSON holds texts only, so nothing in it is changed by writing it and reading it
again (`Json.read?_pretty`), whatever characters the texts are made of. What is left is each record
on its own: a list of values, an object of keys and values in their order, and the tag of a command
in front of its other fields.
-/

namespace ReportPress

namespace Json

/-- An object of texts. -/
def ofTexts (entries : List (String × String)) : Json :=
  .object (entries.map fun (key, value) ↦ (key, .string value))

@[simp] theorem reread_string (s : String) : (Json.string s).reread = .string s := by
  rw [reread]

@[simp] theorem reread_ofStrings (texts : List String) :
    (ofStrings texts).reread = ofStrings texts := by
  rw [ofStrings, reread, rereadItems_eq_map, List.map_map]
  simp [Function.comp_def]

@[simp] theorem reread_ofTexts (entries : List (String × String)) :
    (ofTexts entries).reread = ofTexts entries := by
  rw [ofTexts, reread]
  congr 1
  induction entries with
  | nil => rfl
  | cons entry entries ih => rw [List.map_cons, rereadMembers, ih, reread_string]

theorem isReadable_ofStrings (depth : ℕ) (texts : List String) :
    isReadable (depth + 1) (ofStrings texts) = true := by
  simp [ofStrings, isReadable]

theorem isReadable_ofTexts (depth : ℕ) (entries : List (String × String)) :
    isReadable (depth + 1) (ofTexts entries) = true := by
  simp [ofTexts, isReadable]

theorem list?_ofStrings (texts : List String) : (ofStrings texts).list? text? = some texts := by
  refine list?_map ?_ texts
  intro s
  rfl

theorem texts?_ofTexts (entries : List (String × String)) :
    (ofTexts entries).texts? = some entries := by
  refine mapM_map_eq_some ?_ entries
  intro entry
  rfl

end Json

namespace Command

theorem argumentsToJson_eq (args : Arguments) :
    argumentsToJson args = .object [("positional", .ofStrings args.positional),
      ("keyword", .ofTexts args.keyword.entries)] := rfl

@[simp] theorem reread_argumentsToJson (args : Arguments) :
    (argumentsToJson args).reread = argumentsToJson args := by
  simp [argumentsToJson_eq, Json.reread, Json.rereadMembers]

theorem argumentsOfJson?_toJson (args : Arguments) :
    argumentsOfJson? (argumentsToJson args) = some args := by
  rw [argumentsOfJson?, argumentsToJson_eq, Json.fields?_object (by rfl) (by decide)]
  simp [Json.list?_ofStrings, Json.texts?_ofTexts, Keywords.ofList_entries]

@[simp] theorem reread_toJson (command : Command) : command.toJson.reread = command.toJson := by
  cases command <;> simp [toJson, Json.reread, Json.rereadMembers]

theorem isReadable_argumentsToJson (depth : ℕ) (args : Arguments) :
    Json.isReadable (depth + 2) (argumentsToJson args) = true := by
  simp [argumentsToJson_eq, Json.isReadable, Json.isReadable_ofStrings, Json.isReadable_ofTexts]

theorem ofJson?_toJson (command : Command) : ofJson? command.toJson = some command := by
  cases command with
  | literal text =>
    rw [ofJson?, toJson, Json.tagged?_object (by simp) (by simp [Json.isReadable, nestingLeft])]
    simp only [Option.bind_eq_bind, Option.bind_some]
    rw [Json.fields?_object (by rfl) (by decide)]
    simp [Json.text?]
  | newline =>
    rw [ofJson?, toJson, Json.tagged?_object (by simp) (by simp [Json.isReadable, nestingLeft])]
    simp [Json.fields?_object]
  | invoke name args =>
    rw [ofJson?, toJson, Json.tagged?_object (by simp) (by
      simp [Json.isReadable, nestingLeft, isReadable_argumentsToJson])]
    simp only [Option.bind_eq_bind, Option.bind_some]
    rw [Json.fields?_object (by rfl) (by decide)]
    simp [Json.text?, argumentsOfJson?_toJson]

/-- **A command list is read back**, whatever texts its commands hold. -/
theorem listOfText?_listToText (commands : List Command) :
    listOfText? (listToText commands) = some commands := by
  have hreread : (Json.array (commands.map toJson)).reread = .array (commands.map toJson) := by
    rw [Json.reread, Json.rereadItems_eq_map, List.map_map]
    simp [Function.comp_def]
  rw [listOfText?, listToText, Json.read?_pretty, hreread]
  exact Json.list?_map ofJson?_toJson commands

end Command

end ReportPress
