import Mathlib
import ReportPress.Canvas.DrawLog
import ReportPress.Proofs.Json.Record
import ReportPress.Proofs.Json.Singles

/-!
# Draw logs are read back

What becomes of a log that is written as JSON and read. A step has numbers that it must have, and
the sizes of an image, which it may have; a number that is not finite is lost, so a step with such a
number of the first kind is not read at all, and one of the second kind is read as missing. All else
is read back, so a log is read back exactly if all its numbers are finite.
-/

namespace ReportPress

open Number

theorem bind_ite_some {α β : Type} (p : Prop) [Decidable p] (a : α) (f : α → Option β) :
    (if p then some a else none).bind f = if p then f a else none := by
  split <;> rfl

theorem mapM_map_eq_ite {α β γ : Type} {write : α → β} {read? : β → Option γ} {p : α → Prop}
    [DecidablePred p] {back : α → γ}
    (h : ∀ a, read? (write a) = if p a then some (back a) else none) (items : List α) :
    (items.map write).mapM read? = if ∀ a ∈ items, p a then some (items.map back) else none := by
  induction items with
  | nil => simp
  | cons a items ih =>
    rw [List.map_cons, List.mapM_cons, h, ih]
    by_cases ha : p a
    · by_cases hitems : ∀ a ∈ items, p a
      · simp [ha, if_pos hitems]
      · simp [ha, if_neg hitems]
    · simp [ha]

namespace DrawStep

/-- The numbers that a step has to have. -/
def required : DrawStep → List Float32
  | .text start _ _ size => [start.x, start.y, size]
  | .fillColor red green blue => [red, green, blue]
  | .lineWidth width => [width]
  | .rect a b => [a.x, a.y, b.x, b.y]
  | .roundedRect a b radius => [a.x, a.y, b.x, b.y, radius]
  | .line start stop => [start.x, start.y, stop.x, stop.y]
  | .image _ corner _ _ => [corner.x, corner.y]
  | .registerFont _ _ => []

/-- The numbers that a step may have. -/
def optional : DrawStep → List Float32
  | .image _ _ width height => width.toList ++ height.toList
  | _ => []

/-- The step with the sizes of an image that are numbers to the end. -/
def finiteSizes : DrawStep → DrawStep
  | .image path corner width height =>
    .image path corner (width.filter fun x ↦ Single.IsFinite x)
      (height.filter fun x ↦ Single.IsFinite x)
  | step => step

theorem singles?_reread (xs : List Float32) :
    singles? (xs.map fun x ↦ some (Json.ofSingle x).reread)
      = if ∀ x ∈ xs, Single.IsFinite x then some xs else none := by
  have hread := @mapM_map_eq_ite _ _ _ (fun x ↦ some (Json.ofSingle x).reread)
    (·.bind Json.single?) _ _ id Json.single?_reread_ofSingle xs
  rwa [List.map_id] at hread

/-- Members that are numbers and have the names of a record are read if they are finite. -/
theorem bind_singles?_object {β : Type} {names : List String} (xs : List Float32)
    (hlength : names.length = xs.length) (hnodup : names.Nodup) (k : List Float32 → Option β) :
    ((Json.object (names.zip (xs.map fun x ↦ (Json.ofSingle x).reread))).fields? names false).bind
        (fun fields ↦ (singles? fields).bind k)
      = if ∀ x ∈ xs, Single.IsFinite x then k xs else none := by
  have hlength' : names.length = (xs.map fun x ↦ (Json.ofSingle x).reread).length := by
    rw [List.length_map, hlength]
  have hfields : (names.zip (xs.map fun x ↦ (Json.ofSingle x).reread)).map (fun member ↦ some member.2)
      = xs.map fun x ↦ some (Json.ofSingle x).reread := by
    have hsnd := congrArg (List.map some) (List.map_snd_zip hlength'.ge)
    rwa [List.map_map, List.map_map] at hsnd
  rw [Json.fields?_object (List.map_fst_zip hlength'.le) hnodup, hfields, Option.bind_some,
    singles?_reread, bind_ite_some]

/-- A step is read back without the sizes that are not finite, if there are no other numbers in it
that are not. -/
theorem ofJson?_reread_toJson (step : DrawStep) :
    ofJson? step.toJson.reread
      = if ∀ x ∈ step.required, Single.IsFinite x then some step.finiteSizes else none := by
  -- What is left after the tag are the fields. Where all of them are numbers, one lemma does for
  -- them.
  cases step <;> simp only [toJson, Json.reread, Json.rereadMembers] <;>
    rw [ofJson?, Json.tagged?_object (by simp) (by simp [Json.isReadable, nestingLeft,
      Json.isReadable_reread_ofSingle, Json.isReadable_reread_ofSingle?])] <;>
    simp only [Option.bind_eq_bind, Option.bind_some]
  case text start content face size =>
    rw [Json.fields?_object (by rfl) (by decide)]
    simp only [List.map_cons, List.map_nil, Option.bind_some, Json.single?_reread_ofSingle,
      Json.text?_string, required, finiteSizes, bind_ite_some, List.forall_mem_cons, ite_and]
    simp
  case fillColor red green blue =>
    exact bind_singles?_object [red, green, blue] rfl (by decide) _
  case lineWidth width =>
    exact bind_singles?_object [width] rfl (by decide) _
  case rect a b =>
    exact bind_singles?_object [a.x, a.y, b.x, b.y] rfl (by decide) _
  case roundedRect a b radius =>
    exact bind_singles?_object [a.x, a.y, b.x, b.y, radius] rfl (by decide) _
  case line start stop =>
    exact bind_singles?_object [start.x, start.y, stop.x, stop.y] rfl (by decide) _
  case image path corner width height =>
    rw [Json.fields?_object (by rfl) (by decide)]
    simp only [List.map_cons, List.map_nil, Option.bind_some, Json.single?_reread_ofSingle,
      Json.text?_string, Json.nullable?_reread_ofSingle?, required, finiteSizes, bind_ite_some,
      List.forall_mem_cons, ite_and]
    simp
  case registerFont face path =>
    rw [Json.fields?_object (by rfl) (by decide)]
    simp [Json.text?_string, required, finiteSizes]

theorem finiteSizes_eq_self_iff (step : DrawStep) :
    step.finiteSizes = step ↔ ∀ x ∈ step.optional, Single.IsFinite x := by
  have hfilter (x? : Option Float32) : (x?.filter fun x ↦ Single.IsFinite x) = x? ↔
      ∀ x ∈ x?.toList, Single.IsFinite x := by
    cases x? <;> simp [Option.filter]
  cases step with
  | image path corner width height =>
    simp only [finiteSizes, optional, image.injEq, true_and, hfilter, List.forall_mem_append]
  | _ => simp [finiteSizes, optional]

end DrawStep

namespace DrawLog

/-- The numbers that a log has to have. -/
def required (log : DrawLog) : List Float32 :=
  log.width :: log.height :: log.pages.flatten.flatMap DrawStep.required

def numbers (log : DrawLog) : List Float32 :=
  log.width :: log.height :: log.pages.flatten.flatMap fun step ↦ step.required ++ step.optional

/-- The log without the sizes of images that are not finite. -/
def finiteSizes (log : DrawLog) : DrawLog :=
  { log with pages := log.pages.map fun page ↦ page.map DrawStep.finiteSizes }

theorem pageOfJson?_reread (page : List DrawStep) :
    pageOfJson? (Json.object [("ops", .array (page.map DrawStep.toJson))]).reread
      = if ∀ step ∈ page, ∀ x ∈ step.required, Single.IsFinite x then
          some (page.map DrawStep.finiteSizes) else none := by
  simp only [Json.reread, Json.rereadMembers, Json.rereadItems_eq_map, List.map_map]
  rw [pageOfJson?, Json.fields?_object (by rfl) (by decide)]
  exact mapM_map_eq_ite DrawStep.ofJson?_reread_toJson page

theorem forall_mem_flatMap {pages : List (List DrawStep)} {f : DrawStep → List Float32}
    {p : Float32 → Prop} : (∀ x ∈ pages.flatten.flatMap f, p x) ↔
      ∀ page ∈ pages, ∀ step ∈ page, ∀ x ∈ f step, p x := by
  simp only [List.mem_flatMap, List.mem_flatten]
  exact ⟨fun h page hpage step hstep x hx ↦ h x ⟨step, ⟨page, hpage, hstep⟩, hx⟩,
    fun h x ⟨step, ⟨page, hpage, hstep⟩, hx⟩ ↦ h page hpage step hstep x hx⟩

/-- A log is read back without the sizes that are not finite, if there are no other numbers in it
that are not. -/
theorem ofText?_toText (log : DrawLog) :
    ofText? log.toText
      = if ∀ x ∈ log.required, Single.IsFinite x then some log.finiteSizes else none := by
  have hpages := mapM_map_eq_ite pageOfJson?_reread log.pages
  have hcopies : Json.natBelow? UInt32.size (Json.ofNat log.copies.toNat).reread
      = some log.copies.toNat := Json.natBelow?_ofNat log.copies.toNat_lt
  rw [ofText?, toText, Json.read?_pretty, Option.bind_some]
  simp only [toJson, Json.reread, Json.rereadMembers, Json.rereadItems_eq_map, List.map_map]
  rw [ofJson?, Json.fields?_object (by rfl) (by decide)]
  simp only [List.map_cons, List.map_nil, Option.bind_eq_bind, Option.bind_some, Json.orDefault?,
    Json.text?_string, Json.single?_reread_ofSingle, Json.list?, Function.comp_def, hcopies, hpages,
    required, List.forall_mem_cons, forall_mem_flatMap, bind_ite_some, ite_and]
  rw [UInt32.ofNat_toNat]
  rfl

theorem finiteSizes_eq_self_iff {log : DrawLog} : log.finiteSizes = log ↔
    ∀ page ∈ log.pages, ∀ step ∈ page, ∀ x ∈ step.optional, Single.IsFinite x := by
  have hpage (page : List DrawStep) : page.map DrawStep.finiteSizes = page ↔
      ∀ step ∈ page, ∀ x ∈ step.optional, Single.IsFinite x := by
    conv_lhs => rw [← List.map_id page, List.map_map, List.map_inj_left]
    exact forall₂_congr fun step _ ↦ step.finiteSizes_eq_self_iff
  have hpages : log.finiteSizes = log ↔
      log.pages.map (fun page ↦ page.map DrawStep.finiteSizes) = log.pages := by
    obtain ⟨title, width, height, copies, pages⟩ := log
    simp [finiteSizes]
  rw [hpages]
  conv_lhs => rw [← List.map_id log.pages, List.map_map, List.map_inj_left]
  exact forall₂_congr fun page _ ↦ hpage page

/-- **A log is read back exactly if all its numbers are finite.** -/
theorem ofText?_toText_eq_some_iff (log : DrawLog) :
    ofText? log.toText = some log ↔ ∀ x ∈ log.numbers, Single.IsFinite x := by
  have hsome : ofText? log.toText = some log ↔
      (∀ x ∈ log.required, Single.IsFinite x) ∧ log.finiteSizes = log := by
    rw [ofText?_toText]
    split_ifs with h
    · rw [Option.some_inj, and_iff_right h]
    · exact ⟨nofun, fun hboth ↦ absurd hboth.1 h⟩
  rw [hsome, finiteSizes_eq_self_iff, required, numbers]
  simp only [List.forall_mem_cons, forall_mem_flatMap, List.forall_mem_append, forall_and, and_assoc]

end DrawLog

end ReportPress
