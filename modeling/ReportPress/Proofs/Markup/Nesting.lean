import Mathlib
import ReportPress.File.Tree
import ReportPress.Proofs.Markup.Raised

/-!
# How deep includes are nested

Following the include tags of a text from file to file gives chains of nested tags. A compiler that
looks no deeper than a limit succeeds only on texts all of whose chains are within the limit, and
then the limit does not show: any larger one gives the same commands. Nor can it stop for the limit
unless there is a chain that is longer by one tag.

A file that includes itself, be it by way of others, lies on chains of every length. So there is
none among the files that a text which compiles leads to, and circles need no other guard than the
limit. The compiler itself comes to an end on every file system, because each include uses up one
level of the depth that is left.
-/

namespace ReportPress

open Text Markup

variable {resources : Resources} {limit left : ℕ} {source text file : String} {tag : Tag}
  {path : Path} {commands : List Command}

/-! ## Chains of tags -/

namespace Markup

def HasInclude (source : String) (tag : Tag) : Prop :=
  ∃ raw ∈ lines source.toList, ∃ body, .tag body ∈ Segment.scan 1 (clean raw) ∧
    Tag.ofBody? body = some tag ∧ tag.name = Tag.includeName

/-- Whether an include tag stands for the file at a path, and this is the text of the file. -/
def Opens (resources : Resources) (tag : Tag) (path : Path) (text : String) : Prop :=
  ∃ file others bytes, tag.args.positional = file :: others ∧
    (resources.locate file).result = .ok path ∧ resources.files.read path = .ok bytes ∧
    text = Utf8.decodeInput bytes

/-- **A chain of nested include tags**: the first stands in the text, and every other in the file
that the one before it stands for. -/
inductive Nested (resources : Resources) : String → List Tag → Prop
  | last {source : String} {tag : Tag} (htag : HasInclude source tag) : Nested resources source [tag]
  | step {source text : String} {tag : Tag} {path : Path} {tags : List Tag}
      (htag : HasInclude source tag) (hopens : Opens resources tag path text)
      (hrest : Nested resources text tags) : Nested resources source (tag :: tags)

/-- Whether the include tags of a text lead to a file, be it by way of others. -/
inductive Reaches (resources : Resources) : String → Path → Prop
  | direct {source text : String} {tag : Tag} {path : Path} (htag : HasInclude source tag)
      (hopens : Opens resources tag path text) : Reaches resources source path
  | through {source text : String} {tag : Tag} {between path : Path}
      (htag : HasInclude source tag) (hopens : Opens resources tag between text)
      (hrest : Reaches resources text path) : Reaches resources source path

/-- Whether a file leads to itself. -/
def IncludesItself (resources : Resources) (path : Path) : Prop :=
  ∃ bytes, resources.files.read path = .ok bytes ∧
    Reaches resources (Utf8.decodeInput bytes) path

theorem Reaches.exists_nested {bytes : ByteArray} {tags : List Tag}
    (h : Reaches resources source path) (hread : resources.files.read path = .ok bytes)
    (hnested : Nested resources (Utf8.decodeInput bytes) tags) :
    ∃ longer, Nested resources source longer ∧ tags.length < longer.length := by
  induction h with
  | @direct source text tag path htag hopens =>
    have hopens' := hopens
    obtain ⟨_, _, _, _, _, hbytes, rfl⟩ := hopens'
    obtain rfl := Except.ok.inj (hread.symm.trans hbytes)
    exact ⟨tag :: tags, .step htag hopens hnested, Nat.lt_succ_self _⟩
  | @through source text tag between path htag hopens _ ih =>
    obtain ⟨longer, hlonger, hlength⟩ := ih hread
    exact ⟨tag :: longer, .step htag hopens hlonger, Nat.lt_succ_of_lt hlength⟩

/-- From a file that leads to itself there are chains of every length. -/
theorem IncludesItself.exists_nested {bytes : ByteArray} (h : IncludesItself resources path)
    (hread : resources.files.read path = .ok bytes) (n : ℕ) :
    ∃ tags, Nested resources (Utf8.decodeInput bytes) tags ∧ n < tags.length := by
  obtain ⟨bytes', hread', hreaches⟩ := h
  obtain rfl := Except.ok.inj (hread.symm.trans hread')
  induction n with
  | zero =>
    cases hreaches with
    | direct htag => exact ⟨_, .last htag, Nat.one_pos⟩
    | through htag => exact ⟨_, .last htag, Nat.one_pos⟩
  | succ n ih =>
    obtain ⟨tags, htags, hlength⟩ := ih
    obtain ⟨longer, hlonger, hlonger_length⟩ := hreaches.exists_nested hread htags
    exact ⟨longer, hlonger, by omega⟩

/-! ## When markup compiles -/

/-- The file of every include tag compiles, at one level less. -/
theorem exists_compile_of_hasInclude (h : (compile resources limit source).result = .ok commands)
    (htag : HasInclude source tag) :
    ∃ deeper path text part, limit = deeper + 1 ∧ Opens resources tag path text ∧
      (compile resources deeper text).result = .ok part := by
  obtain ⟨raw, hraw, body, hbody, hofBody, hname⟩ := htag
  have hpiece := Piece.segment_mem_ofLines.mpr ⟨raw, hraw, hbody⟩
  obtain ⟨part, hpart⟩ := (result_compile_eq_ok.mp h).exists_part _ hpiece
  cases hpart with
  | invoke htag hother =>
    obtain rfl := Option.some.inj (hofBody.symm.trans htag)
    exact absurd hname hother
  | expand htag _ hincludes =>
    obtain rfl := Option.some.inj (hofBody.symm.trans htag)
    obtain ⟨file, others, deeper, path, bytes, hargs, hlimit, hlocate, hread, hcompile⟩ := hincludes
    exact ⟨deeper, path, _, part, hlimit, ⟨file, others, bytes, hargs, hlocate, hread, rfl⟩, hcompile⟩

theorem Opens.unique {path' : Path} {text' : String} (h : Opens resources tag path text)
    (h' : Opens resources tag path' text') : path' = path ∧ text' = text := by
  obtain ⟨file, others, bytes, hargs, hlocate, hread, rfl⟩ := h
  obtain ⟨file', others', bytes', hargs', hlocate', hread', rfl⟩ := h'
  obtain ⟨rfl, -⟩ := List.cons.inj (hargs.symm.trans hargs')
  obtain rfl := Except.ok.inj (hlocate.symm.trans hlocate')
  obtain rfl := Except.ok.inj (hread.symm.trans hread')
  exact ⟨rfl, rfl⟩

theorem Nested.length_le {tags : List Tag} (h : Nested resources source tags)
    (hcompile : (compile resources limit source).result = .ok commands) : tags.length ≤ limit := by
  induction h generalizing limit commands with
  | last htag =>
    obtain ⟨deeper, -, -, -, rfl, -⟩ := exists_compile_of_hasInclude hcompile htag
    exact Nat.succ_le_succ (Nat.zero_le deeper)
  | step htag hopens _ ih =>
    obtain ⟨deeper, path, text, part, rfl, hopens', hpart⟩ :=
      exists_compile_of_hasInclude hcompile htag
    obtain ⟨-, rfl⟩ := hopens.unique hopens'
    exact Nat.succ_le_succ (ih hpart)

theorem not_includesItself (hreaches : Reaches resources source path)
    (hcompile : (compile resources limit source).result = .ok commands) :
    ¬IncludesItself resources path := by
  intro hself
  obtain ⟨bytes, hread, -⟩ := id hself
  obtain ⟨tags, htags, hlength⟩ := hself.exists_nested hread limit
  obtain ⟨longer, hlonger, hlonger_length⟩ := hreaches.exists_nested hread htags
  have hle := hlonger.length_le hcompile
  omega

theorem compile_mono {larger : ℕ} (h : (compile resources limit source).result = .ok commands)
    (hle : limit ≤ larger) : (compile resources larger source).result = .ok commands := by
  -- The files that are included have one level less at either limit.
  induction limit using Nat.strong_induction_on generalizing larger source commands with
  | _ limit ih =>
    refine result_compile_eq_ok.mpr ((result_compile_eq_ok.mp h).mono fun piece _ part ↦ ?_)
    refine Piece.Compiles.mono fun tag part hincludes ↦ ?_
    obtain ⟨file, others, deeper, path, bytes, hargs, rfl, hlocate, hread, hpart⟩ := hincludes
    obtain ⟨larger, rfl⟩ := Nat.exists_eq_add_one_of_ne_zero (by omega : larger ≠ 0)
    have hdeeper := ih deeper (Nat.lt_succ_self deeper) hpart (Nat.le_of_succ_le_succ hle)
    exact ⟨file, others, larger, path, bytes, hargs, rfl, hlocate, hread, hdeeper⟩

/-! ## When the limit is reached -/

theorem StopsAt.hasInclude {s : Segment} {line : ℕ} (h : StopsAt resources left source s line)
    (htag : s.IsIncludeTag tag) : HasInclude source tag := by
  obtain ⟨before, after, hplaced, -⟩ := h
  obtain ⟨body, rfl, hofBody, hname⟩ := htag
  have hmem : (.tag body, line) ∈ placedFrom 1 (lines source.toList) :=
    hplaced ▸ List.mem_append_right before List.mem_cons_self
  obtain ⟨raw, hraw, hbody⟩ := exists_line_of_mem_placedFrom hmem
  exact ⟨raw, hraw, body, hbody, hofBody, hname⟩

theorem opens_of_finds {bytes : ByteArray} (h : tag.Finds resources path)
    (hread : resources.files.read path = .ok bytes) :
    Opens resources tag path (Utf8.decodeInput bytes) := by
  obtain ⟨file, others, hargs, hlocate⟩ := h
  exact ⟨file, others, bytes, hargs, hlocate, hread, rfl⟩

theorem Segment.fault?_ne_tooDeep (s : Segment) (line depth : ℕ) (file : String) :
    s.fault? line ≠ some (.tooDeep file depth) := by
  intro hfault
  cases s with
  | text content => cases hfault
  | unclosed column => cases hfault
  | tag body =>
    rw [Segment.fault?] at hfault
    split at hfault <;> cases hfault

/-- The include tags on the way to where the limit is reached are a chain that uses it up, and the
tag there goes on. -/
theorem Raised.exists_nested {files : List Path} {depth : ℕ}
    (h : Raised resources limit left source files (.tooDeep file depth)) :
    depth = limit ∧ ∃ tags tag others, Nested resources source (tags ++ [tag]) ∧
      tags.length = left ∧ tag.args.positional = file :: others := by
  -- By induction on the way to the error. The limit is told by it, so the error has to stay the
  -- same along the way.
  generalize he : CompileError.tooDeep file depth = e at h
  induction h with
  | here hstops hraises =>
    subst he
    cases hraises with
    | fault hfault => exact absurd hfault (Segment.fault?_ne_tooDeep _ _ _ _)
    | refused htag hrefused =>
      cases hrefused with
      | tooDeep hargs hleft =>
        exact ⟨rfl, [], _, _, .last (hstops.hasInclude htag), hleft.symm, hargs⟩
  | unreadable => cases he
  | inside hstops htag hfinds hread _ ih =>
    obtain ⟨hdepth, tags, last, others, hnested, hlength, hargs⟩ := ih he
    exact ⟨hdepth, _ :: tags, last, others,
      .step (hstops.hasInclude htag) (opens_of_finds hfinds hread) hnested,
      congrArg Nat.succ hlength, hargs⟩

/-- When the depth that is left does not suffice, there is a chain that uses it up and goes on. -/
theorem exists_nested_of_tooDeep {depth : ℕ}
    (h : (compileLines (expandInclude resources limit left) (lines source.toList)).result
      = .error (.tooDeep file depth)) :
    depth = limit ∧ ∃ tags tag others, Nested resources source (tags ++ [tag]) ∧
      tags.length = left ∧ tag.args.positional = file :: others := by
  obtain ⟨files, hraised⟩ := exists_raised h
  exact hraised.exists_nested

/-- **The limit is on chains of nested include tags, and shows nowhere else.** When markup compiles,
every chain of nested include tags that starts in it is within the limit, no file that it leads to
includes itself, and every larger limit gives the same commands. When the limit is said to be
exceeded, it is this limit, and there is a chain that is longer by the tag that the error names. -/
theorem compile_limits_nesting (resources : Resources) (limit : ℕ) (source : String) :
    (∀ commands, (compile resources limit source).result = .ok commands →
      (∀ tags, Nested resources source tags → tags.length ≤ limit) ∧
      (∀ path, Reaches resources source path → ¬IncludesItself resources path) ∧
      ∀ larger, limit ≤ larger → (compile resources larger source).result = .ok commands) ∧
    ∀ file depth, (compile resources limit source).result = .error (.tooDeep file depth) →
      depth = limit ∧ ∃ tags tag others, Nested resources source (tags ++ [tag]) ∧
        tags.length = limit ∧ tag.args.positional = file :: others := by
  constructor
  · intro commands hcompile
    refine ⟨?_, ?_, ?_⟩
    · exact fun tags htags ↦ htags.length_le hcompile
    · exact fun path hreaches ↦ not_includesItself hreaches hcompile
    · exact fun larger hle ↦ compile_mono hcompile hle
  · exact fun file depth herror ↦ exists_nested_of_tooDeep herror

def nestedFiles : Resources :=
  ⟨⟨[]⟩, FileTree.toFileSystem
    ⟨[(["a"], .file "x\x7b$INCLUDE(b)\x7d".toUTF8), (["b"], .file "y".toUTF8),
      (["c"], .file "\x7b$INCLUDE(c)\x7d".toUTF8)]⟩ []⟩

theorem compile_limits_nesting_circle :
    ((∀ tags, Nested nestedFiles "\x7b$INCLUDE(a)\x7dz" tags → tags.length ≤ 2) ∧
      (compile nestedFiles 9 "\x7b$INCLUDE(a)\x7dz").result
        = .ok [.literal "x", .literal "y", .literal "z"]) ∧
    ∃ tags tag others, Nested nestedFiles "\x7b$INCLUDE(c)\x7d" (tags ++ [tag]) ∧
      tags.length = 3 ∧ tag.args.positional = "c" :: others := by
  have hcompile : (compile nestedFiles 2 "\x7b$INCLUDE(a)\x7dz").result
      = .ok [.literal "x", .literal "y", .literal "z"] := by
    decide +kernel
  have hcircle : (compile nestedFiles 3 "\x7b$INCLUDE(c)\x7d").result
      = .error (.tooDeep "c" 3) := by
    decide +kernel
  obtain ⟨hlength, -, hlarger⟩ := (compile_limits_nesting _ _ _).1 _ hcompile
  obtain ⟨-, hnested⟩ := (compile_limits_nesting _ _ _).2 _ _ hcircle
  exact ⟨⟨hlength, hlarger 9 (by decide)⟩, hnested⟩

end Markup

end ReportPress
