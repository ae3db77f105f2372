import Mathlib
import ReportPress.File.Resources
import ReportPress.Proofs.File.Path
import ReportPress.Proofs.Text.Quotes

/-!
# Searching with and without repetitions

The search path leaves out every directory that is on it already under another spelling. This
shortens the list that is shown when a name is not found, but not what is found: the directory that
was left out would have led to the same file as the one that is there, only later. So a name is
found where it would be found in all directories, each with the two beneath it, in the order in
which they were given.

What is left of the list are first appearances (`firstAppearances_distinct`). That a search does not
miss the others holds of every search that cannot tell spellings apart (`find?_distinct`).
-/

namespace ReportPress

open Text

/-- Whether paths with the same components lead to the same file. -/
def FileSystem.SeesComponents (files : FileSystem) : Prop :=
  ∀ p q : Path, p.components = q.components → files.isFile p = files.isFile q

namespace SearchPath

/-! ## The plain search -/

/-- Whether a name is another without the blanks around it and then without one pair of quotes. -/
def IsBareName (name bare : String) : Prop :=
  ∃ trimmed, Trims name.toList trimmed ∧ Unquotes trimmed bare.toList

/-- The paths of a name in all directories and in the two beneath each. -/
def places (dirs : List Path) (bare : String) : List Path :=
  dirs.flatMap fun dir ↦
    [dir.join bare, (dir.join "images").join bare, (dir.join "templates").join bare]

/-- The search that leaves nothing out: the name as it stands, then, unless it is absolute, in all
directories in order. -/
def plainSearch (dirs : List Path) (files : FileSystem) (bare : String) : Option Path :=
  if files.isFile ⟨bare⟩ then some ⟨bare⟩
  else if (Path.mk bare).isAbsolute then none
  else (places dirs bare).find? files.isFile

/-- Whether a list has the first appearances of paths in another, in order. -/
structure FirstAppearances (paths firsts : List Path) : Prop where
  /-- They stand there in this order. -/
  sublist : firsts.Sublist paths
  /-- No two are the same. -/
  distinct : firsts.Pairwise fun p q ↦ p.components ≠ q.components
  /-- Every path is the same as one of them. -/
  covers : ∀ p ∈ paths, ∃ q ∈ firsts, q.components = p.components
  /-- Each is spelled as the first path that is the same. -/
  first : ∀ q ∈ firsts, paths.find? (·.sameAs q) = some q

theorem isBareName_iff {name bare : String} : IsBareName name bare ↔ bare = bareName name := by
  simp only [IsBareName, trims_iff, unquotes_iff, exists_eq_left]
  rw [bareName, ← String.toList_inj, String.toList_ofList]

theorem places_eq (dirs : List Path) (bare : String) :
    places dirs bare = (dirs.flatMap family).map (·.join bare) := by
  rw [List.map_flatMap]
  rfl

/-! ## Leaving out what is there already -/

def distinct (paths : List Path) : List Path := (paths.foldl add ⟨[]⟩).directories

section Distinct

variable {paths : List Path} {p q : Path}

theorem distinct_concat (paths : List Path) (p : Path) :
    distinct (paths ++ [p])
      = if (distinct paths).any (·.sameAs p) then distinct paths else distinct paths ++ [p] := by
  rw [distinct, List.foldl_append, List.foldl_cons, List.foldl_nil, add, ← distinct]
  split <;> rfl

theorem distinct_concat_cases (paths : List Path) (p : Path) :
    (∃ q ∈ distinct paths, q.components = p.components ∧ distinct (paths ++ [p]) = distinct paths) ∨
      (∀ q ∈ distinct paths, q.components ≠ p.components) ∧
        distinct (paths ++ [p]) = distinct paths ++ [p] := by
  rw [distinct_concat]
  by_cases h : (distinct paths).any (·.sameAs p) = true
  · obtain ⟨q, hq, hsame⟩ := List.any_eq_true.mp h
    exact .inl ⟨q, hq, of_decide_eq_true hsame, if_pos h⟩
  · refine .inr ⟨fun q hq hsame ↦ h ?_, if_neg h⟩
    exact List.any_eq_true.mpr ⟨q, hq, decide_eq_true hsame⟩

/-- **A search that cannot tell spellings apart misses nothing.** -/
theorem find?_distinct {f : Path → Bool} (hf : ∀ p q : Path, p.components = q.components → f p = f q)
    (paths : List Path) : (distinct paths).find? f = paths.find? f := by
  induction paths using List.reverseRecOn with
  | nil => rfl
  | append_singleton paths p ih =>
    rw [List.find?_append, ← ih]
    rcases distinct_concat_cases paths p with ⟨q, hq, hsame, hleft⟩ | ⟨-, hadded⟩
    · rw [hleft]
      -- If the path that was left out is a hit, so is the one that is there.
      cases hp : f p with
      | false => simp [hp]
      | true =>
        obtain ⟨hit, hhit⟩ : ∃ hit, (distinct paths).find? f = some hit := by
          rw [← Option.isSome_iff_exists, List.find?_isSome]
          exact ⟨q, hq, (hf q p hsame).trans hp⟩
        rw [hhit, Option.some_or]
    · rw [hadded, List.find?_append]

theorem sameAs_congr (q : Path) {p p' : Path} (h : p.components = p'.components) :
    p.sameAs q = p'.sameAs q := by
  rw [Path.sameAs, Path.sameAs, h]

theorem exists_mem_distinct (hp : p ∈ paths) : ∃ q ∈ distinct paths, q.components = p.components := by
  have hfound : (paths.find? (·.sameAs p)).isSome = true :=
    List.find?_isSome.mpr ⟨p, hp, decide_eq_true rfl⟩
  rw [← find?_distinct fun _ _ ↦ sameAs_congr p] at hfound
  obtain ⟨q, hq, hsame⟩ := List.find?_isSome.mp hfound
  exact ⟨q, hq, of_decide_eq_true hsame⟩

theorem pairwise_distinct (paths : List Path) :
    (distinct paths).Pairwise fun p q ↦ p.components ≠ q.components := by
  induction paths using List.reverseRecOn with
  | nil => exact .nil
  | append_singleton paths p ih =>
    rcases distinct_concat_cases paths p with ⟨_, _, _, hleft⟩ | ⟨hnew, hadded⟩
    · rwa [hleft]
    · rw [hadded, List.pairwise_append]
      exact ⟨ih, List.pairwise_singleton _ p, fun q hq _ hlast ↦ List.mem_singleton.mp hlast ▸ hnew q hq⟩

theorem distinct_sublist (paths : List Path) : (distinct paths).Sublist paths := by
  induction paths using List.reverseRecOn with
  | nil => exact .slnil
  | append_singleton paths p ih =>
    rcases distinct_concat_cases paths p with ⟨_, _, _, hleft⟩ | ⟨_, hadded⟩
    · rw [hleft]
      exact ih.trans (List.sublist_append_left paths [p])
    · rw [hadded]
      exact ih.append (.refl [p])

theorem find?_sameAs_self (h : paths.Pairwise fun p q ↦ p.components ≠ q.components) (hq : q ∈ paths) :
    paths.find? (·.sameAs q) = some q := by
  induction h with
  | nil => cases hq
  | @cons first rest hfirst _ ih =>
    rcases List.mem_cons.mp hq with rfl | hq
    · exact List.find?_cons_of_pos (decide_eq_true rfl)
    · rw [List.find?_cons_of_neg (by simpa [Path.sameAs] using hfirst q hq), ih hq]

theorem firstAppearances_distinct (paths : List Path) : FirstAppearances paths (distinct paths) where
  sublist := distinct_sublist paths
  distinct := pairwise_distinct paths
  covers _ := exists_mem_distinct
  first q hq := by
    rw [← find?_distinct fun _ _ ↦ sameAs_congr q, find?_sameAs_self (pairwise_distinct paths) hq]

end Distinct

/-! ## Both searches -/

theorem find?_candidates {files : FileSystem} (hfiles : files.SeesComponents) (dirs : List Path)
    (bare : String) :
    ((ofDirectories dirs).candidates bare).find? files.isFile = plainSearch dirs files bare := by
  have hsame : ∀ p q : Path, p.components = q.components →
      (files.isFile ∘ (·.join bare)) p = (files.isFile ∘ (·.join bare)) q :=
    fun p q h ↦ hfiles _ _ (Path.components_join_congr h bare)
  rw [candidates, plainSearch, List.find?_cons]
  cases files.isFile ⟨bare⟩ with
  | true => rfl
  | false =>
    cases (Path.mk bare).isAbsolute with
    | true => rfl
    | false =>
      show ((distinct (dirs.flatMap family)).map (·.join bare)).find? files.isFile = _
      rw [List.find?_map, find?_distinct hsame, ← List.find?_map, places_eq]
      rfl

theorem result_locate (resources : Resources) (name : String) :
    (resources.locate name).result
      = ((resources.search.candidates (bareName name)).find? resources.files.isFile).elim
          (.error ⟨bareName name, resources.search.directories⟩) .ok := by
  rw [Resources.locate, locate]
  cases (resources.search.candidates (bareName name)).find? resources.files.isFile <;> rfl

/-- **Leaving out repetitions changes no search.** Where paths with the same components lead to the
same file, a name is found exactly where the plain search finds it. If it is not found, the error
has the name without blanks and quotes, and the directories with those beneath them, in order and
each only the first time that it appears. -/
theorem locate_eq_plainSearch (dirs : List Path) {files : FileSystem} (hfiles : files.SeesComponents) :
    ∃ searched, FirstAppearances (dirs.flatMap family) searched ∧
      ∀ name, ∃ bare, (∀ other, IsBareName name other ↔ other = bare) ∧
        ((Resources.mk (ofDirectories dirs) files).locate name).result
          = (plainSearch dirs files bare).elim (.error ⟨bare, searched⟩) .ok := by
  refine ⟨_, firstAppearances_distinct (dirs.flatMap family), fun name ↦ ⟨bareName name, ?_, ?_⟩⟩
  · exact fun other ↦ isBareName_iff
  · rw [result_locate, find?_candidates hfiles]
    rfl

/-- The directory beneath another, given before it and spelled differently. -/
theorem locate_eq_plainSearch_respelled :
    let files : FileSystem :=
      ⟨fun p ↦ p.components = ["b".toList, "images".toList, "x".toList], fun _ ↦ .error .notFound⟩
    let dirs : List Path := [⟨"b//images/"⟩, ⟨"b"⟩]
    files.SeesComponents ∧ IsBareName " 'x'" "x" ∧ ∃ searched,
      FirstAppearances (dirs.flatMap family) searched ∧ ⟨"b/images"⟩ ∉ searched ∧
        ((Resources.mk (ofDirectories dirs) files).locate " 'x'").result = .ok ⟨"b//images/x"⟩ ∧
          ((Resources.mk (ofDirectories dirs) files).locate "y").result = .error ⟨"y", searched⟩ := by
  intro files dirs
  have hfiles : files.SeesComponents := by
    intro p q h
    show decide _ = decide _
    rw [h]
  have hx : IsBareName " 'x'" "x" := isBareName_iff.mpr (by decide)
  have hy : IsBareName "y" "y" := isBareName_iff.mpr (by decide)
  obtain ⟨searched, hsearched, hlocate⟩ := locate_eq_plainSearch dirs hfiles
  obtain ⟨found, hbare, hfound⟩ := hlocate " 'x'"
  obtain ⟨lost, hplain, hlost⟩ := hlocate "y"
  rw [← (hbare "x").mp hx, show plainSearch dirs files "x" = some ⟨"b//images/x"⟩ by decide] at hfound
  rw [← (hplain "y").mp hy, show plainSearch dirs files "y" = none by decide] at hlost
  refine ⟨hfiles, hx, searched, hsearched, fun hmem ↦ ?_, hfound, hlost⟩
  have hfirst := hsearched.first _ hmem
  revert hfirst
  decide

end SearchPath

end ReportPress
