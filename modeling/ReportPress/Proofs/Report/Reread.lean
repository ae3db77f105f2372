import ReportPress.Proofs.Canvas.DrawLog
import ReportPress.Proofs.Report.Recorded

/-!
# What a report writes and reads

The two things that have a form in JSON are the draw log of a report and its configuration. Each is
read back exactly if its numbers are finite. Both may have others: a numeral in a configuration may
be past the range of single precision, and lengths in a report may overflow when they are turned
into points or added up.
-/

namespace ReportPress

open Number

/-! ## Draw logs -/

namespace Report

/-- **The draw log of a report is read back exactly if its numbers are finite**, for every markup,
configuration and file system from which there is a report. -/
theorem reread_drawLog_iff [Decoders] (resources : Resources) (config : Config) (markup : String) :
    ∀ rendered, (drawLog resources config markup).result = .ok rendered →
      (DrawLog.ofText? rendered.output.toText = some rendered.output ↔
        ∀ x ∈ rendered.output.numbers, Single.IsFinite x) :=
  fun rendered _ ↦ rendered.output.ofText?_toText_eq_some_iff

theorem reread_drawLog_iff_text : ∃ rendered, (drawLog .empty {} "x").result = .ok rendered ∧
    DrawLog.ofText? rendered.output.toText = some rendered.output := by
  obtain ⟨rendered, h, hfinite⟩ := map_eq_ok.mp
    (show (drawLog .empty {} "x").result.map
      (fun rendered ↦ decide (∀ x ∈ rendered.output.numbers, Single.IsFinite x)) = .ok true by
        decide +kernel)
  exact ⟨rendered, h, (reread_drawLog_iff .empty {} "x" rendered h).mpr (of_decide_eq_true hfinite)⟩

/-- A place can be finite in centimetres and too far to the right in points. -/
theorem exists_drawLog_not_reread :
    ∃ rendered, (drawLog .empty {} "\x7b$MA(1e38,1)\x7dx").result = .ok rendered ∧
      DrawLog.ofText? rendered.output.toText = none := by
  obtain ⟨rendered, h, hfinite⟩ := map_eq_ok.mp
    (show (drawLog .empty {} "\x7b$MA(1e38,1)\x7dx").result.map
      (fun rendered ↦ decide (∀ x ∈ rendered.output.required, Single.IsFinite x)) = .ok false by
        decide +kernel)
  exact ⟨rendered, h, by rw [DrawLog.ofText?_toText, if_neg (of_decide_eq_false hfinite)]⟩

end Report

/-! ## Configurations -/

namespace Config

/-- Every number of a configuration that need not be whole. -/
def numbers (config : Config) : List Float32 :=
  [config.pageWidth, config.pageHeight, config.leftMargin, config.topMargin, config.bottomMargin,
    config.size]

variable {config : Config} {text : String}

theorem ofJson?_name (orientation : Orientation) :
    Orientation.ofJson? (.string orientation.name) = some orientation := by
  cases orientation <;> rfl

theorem list?_reread_ofStrings (paths : List Path) :
    (Json.ofStrings (paths.map Path.text)).reread.list? (fun path ↦ path.text?.map Path.mk)
      = some paths := by
  rw [Json.ofStrings, Json.reread, Json.rereadItems_eq_map, List.map_map, List.map_map]
  exact @Json.list?_map _ (fun path : Path ↦ .string path.text) (·.text?.map Path.mk)
    (fun _ ↦ rfl) paths

theorem ofJson?_reread_toJson (hdepth : config.maxIncludeDepth < UInt64.size) :
    ofJson? config.toJson.reread
      = if ∀ x ∈ config.numbers, Single.IsFinite x then some config else none := by
  have hread : Json.natBelow? UInt64.size (Json.ofNat config.maxIncludeDepth).reread
      = some config.maxIncludeDepth := Json.natBelow?_ofNat hdepth
  have hpaths := list?_reread_ofStrings config.searchPaths
  simp only [toJson, Json.reread, Json.rereadMembers]
  rw [ofJson?, fieldNames, Json.fields?_object (by rfl) (by decide)]
  simp only [List.map_cons, List.map_nil, Option.bind_eq_bind, Option.bind_some, Json.orDefault?,
    Json.text?_string, Json.single?_reread_ofSingle, ofJson?_name, bind_ite_some, hread, hpaths,
    numbers, List.forall_mem_cons, ite_and]
  simp

/-- The depth of a configuration is one that was read, or the default. -/
theorem maxIncludeDepth_lt {value : Json} (h : ofJson? value = some config) :
    config.maxIncludeDepth < UInt64.size := by
  simp only [ofJson?, Option.bind_eq_bind, Option.bind_eq_some_iff] at h
  obtain ⟨fields, -, h⟩ := h
  split at h
  · simp only [Option.bind_eq_some_iff] at h
    obtain ⟨_, -, _, -, _, -, _, -, _, -, _, -, _, -, _, -, _, -, _, -, depth, hdepth, ⟨⟩⟩ := h
    unfold Json.orDefault? at hdepth
    split at hdepth
    · cases hdepth
      show defaultIncludeDepth < UInt64.size
      decide
    · exact Json.lt_of_natBelow? hdepth
  · cases h

theorem ofText_eq_ok_iff : ofText text = .ok config ↔
    (Json.read? text).bind ofJson? = some config ∧ config.validate = .ok () := by
  rw [ofText]
  cases (Json.read? text).bind ofJson? with
  | none => simp
  | some config' =>
    rw [Option.some_inj]
    constructor
    · intro h
      obtain ⟨⟨⟩, hvalid, rfl⟩ := map_eq_ok.mp h
      exact ⟨rfl, hvalid⟩
    · rintro ⟨rfl, hvalid⟩
      exact map_eq_ok.mpr ⟨(), hvalid, rfl⟩

/-- **A configuration that was read is read back exactly if its numbers are finite.** -/
theorem ofText_toText_eq_ok_iff (h : ofText text = .ok config) :
    ofText config.toText = .ok config ↔ ∀ x ∈ config.numbers, Single.IsFinite x := by
  obtain ⟨hread, hvalid⟩ := ofText_eq_ok_iff.mp h
  obtain ⟨value, -, hvalue⟩ := Option.bind_eq_some_iff.mp hread
  rw [ofText_eq_ok_iff, and_iff_left hvalid, toText, Json.read?_pretty, Option.bind_some,
    ofJson?_reread_toJson (maxIncludeDepth_lt hvalue)]
  split_ifs with hfinite
  · exact iff_of_true rfl hfinite
  · exact iff_of_false nofun hfinite

/-- A configuration with a text, numbers, a choice and a list in it. -/
def landscapeText : String :=
  "\x7b \"title\": \"Invoice 7\", \"page_width\": 420.5, \"orientation\": \"landscape\", " ++
    "\"font_size\": 95e-1, \"search_paths\": [\"fonts\", \"b/../images\"], " ++
    "\"max_include_depth\": 3 \x7d"

theorem ofText_toText_eq_ok_iff_landscape : ∃ config : Config,
    ofText landscapeText = .ok config ∧
      (config.title, config.orientation, config.searchPaths, config.maxIncludeDepth)
        = ("Invoice 7", .landscape, [⟨"fonts"⟩, ⟨"b/../images"⟩], 3) ∧
      (config.pageWidth, config.pageHeight, config.size) = (420.5, 841.89, 9.5) ∧
      ofText config.toText = .ok config := by
  obtain ⟨config, h, hfacts⟩ := map_eq_ok.mp
    (show (ofText landscapeText).map (fun config ↦ decide
      ((config.title, config.orientation, config.searchPaths, config.maxIncludeDepth)
        = ("Invoice 7", .landscape, [⟨"fonts"⟩, ⟨"b/../images"⟩], 3) ∧
      (config.pageWidth, config.pageHeight, config.size) = (420.5, 841.89, 9.5) ∧
      ∀ x ∈ config.numbers, Single.IsFinite x)) = .ok true by decide +kernel)
  obtain ⟨htexts, hsizes, hfinite⟩ := of_decide_eq_true hfacts
  exact ⟨config, h, htexts, hsizes, (ofText_toText_eq_ok_iff h).mpr hfinite⟩

/-- A configuration is accepted with a page that is too wide for single precision, and what is
written for it is refused. -/
theorem exists_config_not_reread : ∃ config : Config,
    ofText "\x7b\"page_width\":1e39\x7d" = .ok config ∧
      ofText config.toText = .error .malformed := by
  obtain ⟨config, h, hfinite⟩ := map_eq_ok.mp
    (show (ofText "\x7b\"page_width\":1e39\x7d").map
      (fun config ↦ decide (∀ x ∈ config.numbers, Single.IsFinite x)) = .ok false by decide +kernel)
  obtain ⟨hread, -⟩ := ofText_eq_ok_iff.mp h
  obtain ⟨value, -, hvalue⟩ := Option.bind_eq_some_iff.mp hread
  refine ⟨config, h, ?_⟩
  rw [ofText, toText, Json.read?_pretty, Option.bind_some,
    ofJson?_reread_toJson (maxIncludeDepth_lt hvalue), if_neg (of_decide_eq_false hfinite)]

end Config

end ReportPress
