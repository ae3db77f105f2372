import Mathlib
import ReportPress.Proofs.Markup.Includes

/-!
# Where errors are raised

Lines fail to compile as the first of their segments that fails. If that segment is an include tag
whose file is found, it is the file that could not be read or does not compile, and so on from file
to file. `Raised` follows this way: it says whether an error was raised in the text itself, and if
not, by way of which files it came. Every error is raised somewhere (`exists_raised`).

Any other segment fails by itself: it is faulty (`Segment.fault?`), or it is an include tag that
does not come to a file (`Tag.Refused`).
-/

namespace ReportPress

open Text Markup

variable {resources : Resources} {limit left line : ℕ} {e : CompileError}

/-! ## Segments with their lines -/

namespace Markup

/-- The segments of lines, each with the number of its line. -/
def placedFrom (first : ℕ) (raws : List (List Char)) : List (Segment × ℕ) :=
  (raws.zipIdx first).flatMap fun (raw, line) ↦ (Segment.scan 1 (clean raw)).map (·, line)

theorem exists_line_of_mem_placedFrom {first : ℕ} {raws : List (List Char)} {s : Segment}
    (h : (s, line) ∈ placedFrom first raws) : ∃ raw ∈ raws, s ∈ Segment.scan 1 (clean raw) := by
  obtain ⟨entry, hentry, hs⟩ := List.mem_flatMap.mp h
  obtain ⟨s', hs', hplace⟩ := List.mem_map.mp hs
  obtain ⟨rfl, -⟩ := Prod.ext_iff.mp hplace
  exact ⟨entry.1, List.fst_mem_of_mem_zipIdx hentry, hs'⟩

end Markup

theorem findSome?_flatMap {α β γ : Type} (g : β → Option γ) (f : α → List β) (items : List α) :
    (items.flatMap f).findSome? g = items.findSome? fun a ↦ (f a).findSome? g := by
  induction items with
  | nil => rfl
  | cons a items ih =>
    rw [List.flatMap_cons, List.findSome?_append, List.findSome?_cons, ih]
    cases (f a).findSome? g <;> rfl

theorem error?_compileLine (expand : Expansion) (line : ℕ) (raw : List Char) :
    error? (compileLine expand line raw).result
      = (Segment.scan 1 (clean raw)).findSome? fun s ↦
          error? (compileSegment expand line s).result := by
  rw [compileLine, error?_bind_pure, Traced.error?_collect]

/-- What goes wrong with lines goes wrong with their first segment that does not compile. -/
theorem error?_compileLines (expand : Expansion) (raws : List (List Char)) :
    error? (compileLines expand raws).result
      = (placedFrom 1 raws).findSome? fun place ↦
          error? (compileSegment expand place.2 place.1).result := by
  rw [compileLines, Traced.error?_collect, placedFrom, findSome?_flatMap]
  congr 1
  funext entry
  obtain ⟨raw, line⟩ := entry
  rw [List.findSome?_map]
  exact error?_compileLine expand line raw

/-! ## Include tags -/

/-- **Why an include tag does not come to its file.** -/
inductive Tag.Refused (resources : Resources) (limit left line : ℕ) (tag : Tag) : CompileError → Prop
  | noFile (hargs : tag.args.positional = []) :
      Refused resources limit left line tag (.malformedTag line tag.text)
  /-- No depth is left. -/
  | tooDeep {file others} (hargs : tag.args.positional = file :: others) (hleft : left = 0) :
      Refused resources limit left line tag (.tooDeep file limit)
  | missing {file others cause} (hargs : tag.args.positional = file :: others) (hleft : left ≠ 0)
      (hlocate : (resources.locate file).result = .error cause) :
      Refused resources limit left line tag (.missingInclude line cause)

/-- Whether an include tag comes to a file. -/
def Tag.Finds (resources : Resources) (tag : Tag) (path : Path) : Prop :=
  ∃ file others, tag.args.positional = file :: others ∧
    (resources.locate file).result = .ok path

section Include

variable {tag : Tag} {path : Path} {bytes : ByteArray}

theorem Tag.Refused.result_eq_error (h : tag.Refused resources limit left line e) :
    (expandInclude resources limit left line tag).result = .error e := by
  cases h with
  | noFile hargs =>
    rw [expandInclude, hargs]
    rfl
  | tooDeep hargs hleft =>
    rw [hleft, expandInclude, hargs]
    rfl
  | missing hargs hleft hlocate =>
    obtain ⟨deeper, rfl⟩ := Nat.exists_eq_add_one_of_ne_zero hleft
    rw [expandInclude, hargs]
    exact Traced.result_bind_eq_error.mpr (.inl (mapError_eq_error.mpr ⟨_, hlocate, rfl⟩))

theorem Tag.Finds.result_expandInclude (h : tag.Finds resources path) (limit deeper line : ℕ) :
    (expandInclude resources limit (deeper + 1) line tag).result
      = ((resources.files.read path).mapError (CompileError.unreadable path)).bind fun bytes ↦
          (compileLines (expandInclude resources limit deeper)
            (lines (Utf8.decodeInput bytes).toList)).result := by
  obtain ⟨file, others, hargs, hlocate⟩ := h
  rw [expandInclude, hargs]
  simp only [Traced.result_bind, Traced.result_mapError, hlocate]
  rfl

theorem Tag.exists_refused_or_finds (resources : Resources) (limit left line : ℕ) (tag : Tag) :
    (∃ e, tag.Refused resources limit left line e) ∨
      ∃ deeper path, left = deeper + 1 ∧ tag.Finds resources path := by
  cases hargs : tag.args.positional with
  | nil => exact .inl ⟨_, .noFile hargs⟩
  | cons file others =>
    cases left with
    | zero => exact .inl ⟨_, .tooDeep hargs rfl⟩
    | succ deeper =>
      cases hlocate : (resources.locate file).result with
      | ok path => exact .inr ⟨deeper, path, rfl, file, others, hargs, hlocate⟩
      | error cause => exact .inl ⟨_, .missing hargs (Nat.succ_ne_zero deeper) hlocate⟩

end Include

namespace Markup

/-! ## Segments that fail by themselves -/

/-- What is wrong with a segment of a line, if anything is. -/
def Segment.fault? (line : ℕ) : Segment → Option CompileError
  | .text _ => none
  | .unclosed column => some (.unclosedTag line column)
  | .tag body =>
    match Tag.ofBody? body with
    | none => some (.malformedTag line (String.ofList (trim body)))
    | some _ => none

/-! ## Errors of the text itself -/

def Segment.IsIncludeTag (s : Segment) (tag : Tag) : Prop :=
  ∃ body, s = .tag body ∧ Tag.ofBody? body = some tag ∧ tag.name = Tag.includeName

/-- **An error that a segment raises itself**: it is faulty, or it is an include tag that does not
come to its file. -/
inductive Segment.Raises (resources : Resources) (limit left line : ℕ) : Segment → CompileError → Prop
  | fault {s e} (hfault : s.fault? line = some e) : Raises resources limit left line s e
  /-- An include tag. -/
  | refused {s tag e} (htag : s.IsIncludeTag tag) (hrefused : tag.Refused resources limit left line e) :
      Raises resources limit left line s e

section Segment

variable {s : Segment} {tag : Tag} {expand : Expansion}

theorem Segment.IsIncludeTag.compileSegment_eq (h : s.IsIncludeTag tag) (expand : Expansion)
    (line : ℕ) : compileSegment expand line s = expand line tag := by
  obtain ⟨body, rfl, htag, hname⟩ := h
  rw [compileSegment, htag]
  exact if_pos hname

/-- What goes wrong with a segment is its fault, or goes wrong with the include it stands for. -/
theorem fault_or_isIncludeTag (h : (compileSegment expand line s).result = .error e) :
    s.fault? line = some e ∨ ∃ tag, s.IsIncludeTag tag := by
  cases s with
  | text content => cases h
  | unclosed column =>
    obtain rfl := Except.error.inj h
    exact .inl rfl
  | tag body =>
    rw [compileSegment] at h
    rw [Segment.fault?]
    cases htag : Tag.ofBody? body with
    | none =>
      rw [htag] at h
      obtain rfl := Except.error.inj h
      exact .inl rfl
    | some tag =>
      simp only [htag] at h
      split at h
      · exact .inr ⟨tag, body, rfl, htag, ‹_›⟩
      · cases h

theorem result_compileSegment_of_fault (h : s.fault? line = some e) :
    (compileSegment expand line s).result = .error e := by
  cases s with
  | text content => cases h
  | unclosed column =>
    obtain rfl := Option.some.inj h
    rfl
  | tag body =>
    rw [Segment.fault?] at h
    split at h
    · obtain rfl := Option.some.inj h
      rw [compileSegment, ‹Tag.ofBody? body = none›]
      rfl
    · cases h

theorem Segment.Raises.result_eq_error (h : s.Raises resources limit left line e) :
    (compileSegment (expandInclude resources limit left) line s).result = .error e := by
  cases h with
  | fault hfault => exact result_compileSegment_of_fault hfault
  | refused htag hrefused =>
    rw [htag.compileSegment_eq]
    exact hrefused.result_eq_error

/-- Whether a segment compiles, with some depth of includes left. Where it stands does not
matter. -/
def Segment.InOrder (resources : Resources) (left : ℕ) (s : Segment) : Prop :=
  ∃ part, (Piece.segment s).Compiles (fun tag ↦ Includes resources left tag.args) part

theorem error?_compileSegment_eq_none_iff :
    error? (compileSegment (expandInclude resources limit left) line s).result = none ↔
      s.InOrder resources left := by
  rw [error?_eq_none_iff]
  exact exists_congr fun part ↦ result_compileSegment_eq_ok
    (fun tag part ↦ result_expandInclude_eq_ok line tag part) s part

end Segment

/-! ## Where compilation stops -/

/-- Whether a segment on a line is the first of a text that does not compile. -/
def StopsAt (resources : Resources) (left : ℕ) (source : String) (s : Segment) (line : ℕ) : Prop :=
  ∃ before after, placedFrom 1 (lines source.toList) = before ++ (s, line) :: after ∧
    ∀ place ∈ before, place.1.InOrder resources left

/-- **Where an error is raised**, with some depth of includes left: in the text itself, or in a file
that includes lead to, one in the text, then one in each of the files up to it. -/
inductive Raised (resources : Resources) (limit : ℕ) : ℕ → String → List Path → CompileError → Prop
  | here {left source s line e} (hstops : StopsAt resources left source s line)
      (hraises : s.Raises resources limit left line e) : Raised resources limit left source [] e
  /-- A file cannot be read. -/
  | unreadable {deeper source s line tag path cause}
      (hstops : StopsAt resources (deeper + 1) source s line) (htag : s.IsIncludeTag tag)
      (hfinds : tag.Finds resources path) (hread : resources.files.read path = .error cause) :
      Raised resources limit (deeper + 1) source [path] (.unreadable path cause)
  /-- In a file, or further on. -/
  | inside {deeper source s line tag path bytes files e}
      (hstops : StopsAt resources (deeper + 1) source s line) (htag : s.IsIncludeTag tag)
      (hfinds : tag.Finds resources path) (hread : resources.files.read path = .ok bytes)
      (hraised : Raised resources limit deeper (Utf8.decodeInput bytes) files e) :
      Raised resources limit (deeper + 1) source (path :: files) e

section Raised

variable {source : String} {files : List Path} {s : Segment}

/-- Compilation fails as the segment at which it stops. -/
theorem result_compileLines_eq_error :
    (compileLines (expandInclude resources limit left) (lines source.toList)).result = .error e ↔
      ∃ s line, StopsAt resources left source s line ∧
        (compileSegment (expandInclude resources limit left) line s).result = .error e := by
  rw [← error?_eq_some_iff, error?_compileLines, List.findSome?_eq_some_iff]
  simp only [error?_eq_some_iff, error?_compileSegment_eq_none_iff]
  constructor
  · rintro ⟨before, ⟨s, line⟩, after, hplaced, herror, hbefore⟩
    exact ⟨s, line, ⟨before, after, hplaced, hbefore⟩, herror⟩
  · rintro ⟨s, line, ⟨before, after, hplaced, hbefore⟩, herror⟩
    exact ⟨before, (s, line), after, hplaced, herror, hbefore⟩

theorem Raised.result_eq_error (h : Raised resources limit left source files e) :
    (compileLines (expandInclude resources limit left) (lines source.toList)).result = .error e := by
  induction h with
  | here hstops hraises =>
    exact result_compileLines_eq_error.mpr ⟨_, _, hstops, hraises.result_eq_error⟩
  | unreadable hstops htag hfinds hread =>
    refine result_compileLines_eq_error.mpr ⟨_, _, hstops, ?_⟩
    rw [htag.compileSegment_eq, hfinds.result_expandInclude, hread]
    rfl
  | inside hstops htag hfinds hread _ ih =>
    refine result_compileLines_eq_error.mpr ⟨_, _, hstops, ?_⟩
    rw [htag.compileSegment_eq, hfinds.result_expandInclude, hread]
    exact ih

theorem raised_or_finds
    (h : (compileLines (expandInclude resources limit left) (lines source.toList)).result
      = .error e) :
    Raised resources limit left source [] e ∨ ∃ deeper s line tag path, left = deeper + 1 ∧
      StopsAt resources left source s line ∧ s.IsIncludeTag tag ∧ tag.Finds resources path ∧
      (expandInclude resources limit left line tag).result = .error e := by
  obtain ⟨s, line, hstops, herror⟩ := result_compileLines_eq_error.mp h
  rcases fault_or_isIncludeTag herror with hfault | ⟨tag, htag⟩
  · exact .inl (.here hstops (.fault hfault))
  rw [htag.compileSegment_eq] at herror
  rcases tag.exists_refused_or_finds resources limit left line with
    ⟨e', hrefused⟩ | ⟨deeper, path, hdeeper, hfinds⟩
  · obtain rfl := Except.error.inj (hrefused.result_eq_error.symm.trans herror)
    exact .inl (.here hstops (.refused htag hrefused))
  · exact .inr ⟨deeper, s, line, tag, path, hdeeper, hstops, htag, hfinds, herror⟩

theorem exists_raised
    (h : (compileLines (expandInclude resources limit left) (lines source.toList)).result
      = .error e) : ∃ files, Raised resources limit left source files e := by
  -- By induction on the depth that is left, which goes down by one for a file.
  induction left generalizing source with
  | zero =>
    rcases raised_or_finds h with hhere | ⟨_, _, _, _, _, hzero, -⟩
    · exact ⟨[], hhere⟩
    · cases hzero
  | succ deeper ih =>
    rcases raised_or_finds h with
      hhere | ⟨_, s, line, tag, path, hdeeper, hstops, htag, hfinds, herror⟩
    · exact ⟨[], hhere⟩
    obtain rfl := Nat.succ.inj hdeeper
    rw [hfinds.result_expandInclude] at herror
    cases hread : resources.files.read path with
    | error cause =>
      rw [hread] at herror
      obtain rfl := Except.error.inj herror
      exact ⟨[path], .unreadable hstops htag hfinds hread⟩
    | ok bytes =>
      rw [hread] at herror
      obtain ⟨files, hraised⟩ := ih herror
      exact ⟨path :: files, .inside hstops htag hfinds hread hraised⟩

end Raised

end Markup

end ReportPress
