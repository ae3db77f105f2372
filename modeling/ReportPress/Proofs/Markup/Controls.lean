import Mathlib
import ReportPress.Markup.Compile
import ReportPress.Proofs.Journal.Collect
import ReportPress.Proofs.Markup.Line
import ReportPress.Proofs.Text.Utf8

/-!
# Controls are not seen

Controls other than tabs and line feeds may stand anywhere in markup, and may be left out anywhere:
in front of line feeds, between the two characters of a mark, inside names and arguments, in files
that are included. The markup compiles to the same, and if it does not compile it fails with the
same error.

Leaving them out can make one line vanish, the last, when it holds nothing else; such a line
compiles to nothing. All other lines stay where they are, are cleaned to the same and keep their
line feeds.
-/

namespace ReportPress

open Text

/-! ## What is seen -/

namespace Markup

/-- Whether a character is a control other than a tab and a line feed. -/
def isHidden (c : Char) : Bool := isControl c && c ≠ '\t' && c ≠ '\n'

def visible (cs : List Char) : List Char := cs.filter fun c ↦ !isHidden c

section Visible

variable {c : Char} {cs raw : List Char}

theorem visible_cons_of_isHidden (h : isHidden c = true) : visible (c :: cs) = visible cs := by
  simp [visible, h]

theorem visible_cons_of_not_isHidden (h : isHidden c = false) :
    visible (c :: cs) = c :: visible cs := by
  simp [visible, h]

@[simp] theorem visible_visible (cs : List Char) : visible (visible cs) = visible cs := by
  simp [visible]

theorem visible_filter (p : Char → Bool) (cs : List Char) :
    visible (cs.filter p) = (visible cs).filter p := by
  simp only [visible, List.filter_filter, Bool.and_comm]

theorem clean_visible (line : List Char) : clean (visible line) = clean line := by
  have hstripped (c : Char) : (!isStripped c && !isHidden c) = !isStripped c := by
    simp only [isStripped, isHidden]
    cases isControl c <;> cases decide (c ≠ '\t') <;> simp
  simp only [clean, visible, List.filter_filter, hstripped]

/-! ### Lines -/

theorem getLast?_visible (hraw : raw ∈ lines cs) :
    (visible raw).getLast? = some '\n' ↔ raw.getLast? = some '\n' := by
  constructor
  · intro h
    exact getLast?_of_lineFeed_mem hraw (List.mem_of_mem_filter (List.mem_of_getLast? h))
  · intro h
    obtain ⟨front, rfl⟩ := List.getLast?_eq_some_iff.mp h
    rw [visible, List.filter_append]
    simp [isHidden]

theorem map_visible_consLines_of_isHidden (h : isHidden c = true) {rows : List (List Char)}
    (hne : rows ≠ []) : (consLines c rows).map visible = rows.map visible := by
  cases rows with
  | nil => exact absurd rfl hne
  | cons first others =>
    have hc : c ≠ '\n' := by
      rintro rfl
      cases h
    rw [consLines, if_neg hc, List.map_cons, visible_cons_of_isHidden h, List.map_cons]

theorem map_visible_consLines_of_not_isHidden (h : isHidden c = false) (rows : List (List Char)) :
    (consLines c rows).map visible = consLines c (rows.map visible) := by
  cases rows with
  | nil => simp [consLines, visible, h]
  | cons first others =>
    by_cases hc : c = '\n'
    · simp [consLines, visible, hc, show isHidden '\n' = false by decide]
    · simp [consLines, hc, visible_cons_of_not_isHidden h]

/-- An empty line at the end either stays there or takes the character. -/
theorem exists_consLines_append (c : Char) (rows : List (List Char)) {gone : List (List Char)}
    (hgone : gone = [] ∨ gone = [[]]) :
    ∃ still, consLines c (rows ++ gone) = consLines c rows ++ still ∧
      (still = [] ∨ still = [[]]) := by
  rcases hgone with rfl | rfl
  · exact ⟨[], by simp, .inl rfl⟩
  · by_cases hc : c = '\n'
    · refine ⟨[[]], ?_, .inr rfl⟩
      cases rows <;> simp [consLines, hc]
    · cases rows with
      | nil => exact ⟨[], by simp [consLines, hc], .inl rfl⟩
      | cons first others => exact ⟨[[]], by simp [consLines, hc], .inr rfl⟩

/-- **Lines stay where they are.** Only the last can vanish, and only if nothing of it is seen. -/
theorem exists_visible_lines (cs : List Char) :
    ∃ gone, (lines cs).map visible = lines (visible cs) ++ gone ∧ (gone = [] ∨ gone = [[]]) := by
  -- By induction from the back. A hidden character can be the only one on its line, and then the
  -- line is gone.
  induction cs with
  | nil => exact ⟨[], rfl, .inl rfl⟩
  | cons c cs ih =>
    obtain ⟨gone, hlines, hgone⟩ := ih
    show ∃ gone, (consLines c (lines cs)).map visible = _ ∧ _
    cases h : isHidden c with
    | true =>
      rw [visible_cons_of_isHidden h]
      by_cases hne : lines cs = []
      · rw [hne, List.map_nil, List.nil_eq, List.append_eq_nil_iff] at hlines
        rw [hne, hlines.1]
        exact ⟨[[]], by simp [consLines, visible, h], .inr rfl⟩
      · rw [map_visible_consLines_of_isHidden h hne, hlines]
        exact ⟨gone, rfl, hgone⟩
    | false =>
      rw [visible_cons_of_not_isHidden h, map_visible_consLines_of_not_isHidden h, hlines]
      exact exists_consLines_append c _ hgone

end Visible

/-! ## Compiling -/

section Compiling

variable {resources resources' : Resources} {expand : Expansion} {line limit : ℕ} {cs raw : List Char}

theorem compileLine_nil (expand : Expansion) (line : ℕ) : compileLine expand line [] = pure [] := by
  have hscan : Segment.scan 1 (clean []) = [] := Segment.scan_eq_ofText (by decide) 1
  simp [compileLine, hscan, Traced.collect]

theorem compileLine_visible (hraw : raw ∈ lines cs) :
    compileLine expand line (visible raw) = compileLine expand line raw := by
  simp only [compileLine, clean_visible, getLast?_visible hraw]

theorem compileLines_concat_nil (expand : Expansion) (raws : List (List Char)) :
    compileLines expand (raws ++ [[]]) = compileLines expand raws := by
  rw [compileLines, List.zipIdx_append, Traced.collect_append]
  simp [compileLines, Traced.collect, compileLine_nil]

/-- **Lines compile to what is seen of them.** -/
theorem compileLines_visible (expand : Expansion) (cs : List Char) :
    compileLines expand (lines (visible cs)) = compileLines expand (lines cs) := by
  have hmap : compileLines expand ((lines cs).map visible) = compileLines expand (lines cs) := by
    rw [compileLines, List.zipIdx_map, Traced.collect_map, compileLines]
    exact Traced.collect_congr fun entry hentry ↦
      compileLine_visible (List.fst_mem_of_mem_zipIdx hentry)
  obtain ⟨gone, hlines, rfl | rfl⟩ := exists_visible_lines cs
  · rw [← hmap, hlines, List.append_nil]
  · rw [← hmap, hlines, compileLines_concat_nil]

/-- Whether two places for files have the same files, apart from hidden characters in texts. -/
structure ReadAlike (resources resources' : Resources) : Prop where
  search : resources'.search = resources.search
  isFile : resources'.files.isFile = resources.files.isFile
  /-- What is read is the same, or both are texts in UTF-8 and what is seen of them is the same. -/
  read : ∀ path, resources'.files.read path = resources.files.read path ∨
    ∃ text text' : String, resources.files.read path = .ok text.toUTF8 ∧
      resources'.files.read path = .ok text'.toUTF8 ∧ visible text'.toList = visible text.toList

theorem ReadAlike.refl (resources : Resources) : ReadAlike resources resources :=
  ⟨rfl, rfl, fun _ ↦ .inl rfl⟩

theorem ReadAlike.locate_eq (h : ReadAlike resources resources') (file : String) :
    resources'.locate file = resources.locate file := by
  rw [Resources.locate, Resources.locate, SearchPath.locate, SearchPath.locate, h.search, h.isFile]

theorem visible_decodeInput {text text' : String} (h : visible text'.toList = visible text.toList) :
    visible (Utf8.decodeInput text'.toUTF8).toList = visible (Utf8.decodeInput text.toUTF8).toList := by
  rw [Utf8.decodeInput_toUTF8, Utf8.decodeInput_toUTF8, String.toList_ofList, String.toList_ofList,
    visible_filter, visible_filter, h]

theorem compileLines_congr_visible {other : List Char} (expand : Expansion)
    (h : visible other = visible cs) :
    compileLines expand (lines other) = compileLines expand (lines cs) := by
  rw [← compileLines_visible, h, compileLines_visible]

/-- Files that look alike are included alike, at every depth. -/
theorem ReadAlike.expandInclude_eq (h : ReadAlike resources resources') (limit left : ℕ) :
    expandInclude resources' limit left = expandInclude resources limit left := by
  -- By induction on the depth that is left: lines are compiled with the expansion for one level
  -- less.
  induction left with
  | zero =>
    funext line tag
    rw [expandInclude, expandInclude]
  | succ left ih =>
    funext line tag
    rw [expandInclude, expandInclude]
    cases tag.args.positional with
    | nil => rfl
    | cons file others =>
      simp only [ih, h.locate_eq]
      congr 1
      funext path
      congr 1
      funext _
      rcases h.read path with hread | ⟨text, text', hread, hread', hvisible⟩
      · rw [hread]
      · rw [hread, hread']
        exact compileLines_congr_visible _ (visible_decodeInput hvisible)

/-- **Controls are not seen.** Markup compiles to the same, or fails with the same error, when all
hidden characters are left out of it, and in general when what is seen of it is the same; the files
that it includes may differ in hidden characters as well. -/
theorem compile_ignores_controls (h : ReadAlike resources resources') (limit : ℕ) (source : String) :
    compile resources' limit (String.ofList (visible source.toList)) = compile resources limit source ∧
      ∀ other : String, visible other.toList = visible source.toList →
        compile resources' limit other = compile resources limit source := by
  have hother (other : String) (hvisible : visible other.toList = visible source.toList) :
      compile resources' limit other = compile resources limit source := by
    rw [compile, compile, h.expandInclude_eq, compileLines_congr_visible _ hvisible]
  exact ⟨hother _ (by rw [String.toList_ofList, visible_visible]), hother⟩

def onePart (text : String) : Resources :=
  ⟨⟨[]⟩, ⟨fun path ↦ path = ⟨"part"⟩,
    fun path ↦ if path = ⟨"part"⟩ then .ok text.toUTF8 else .error .notFound⟩⟩

theorem readAlike_onePart {text text' : String} (h : visible text'.toList = visible text.toList) :
    ReadAlike (onePart text) (onePart text') := by
  refine ⟨rfl, rfl, fun path ↦ ?_⟩
  by_cases hpath : path = ⟨"part"⟩
  · exact .inr ⟨text, text', if_pos hpath, if_pos hpath, h⟩
  · exact .inl ((if_neg hpath).trans (if_neg hpath).symm)

theorem compile_ignores_controls_form_feed :
    ReadAlike (onePart "b") (onePart "b\x0d\x1b") ∧
      (compile (onePart "b\x0d\x1b") 1 "a\x7b\x07$INC\x0cLUDE(part)\x7d\x0d\n\x00").result
        = .ok [.literal "a", .literal "b", .newline] := by
  have halike : ReadAlike (onePart "b") (onePart "b\x0d\x1b") := readAlike_onePart (by decide)
  refine ⟨halike, ?_⟩
  rw [(compile_ignores_controls halike 1 "a\x7b$INCLUDE(part)\x7d\n").2 _ (by decide)]
  decide +kernel

end Compiling

end Markup

end ReportPress
