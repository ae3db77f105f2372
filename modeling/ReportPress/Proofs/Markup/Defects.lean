import Mathlib
import ReportPress.Proofs.Markup.Raised
import ReportPress.Proofs.Markup.Written

/-!
# Where markup does not compile

Markup without includes compiles unless it has a defect: an opening mark that is not closed on its
line, or a tag whose body is malformed. Defects are looked for in the lines as they are read,
without controls and blanks at the end, and only where a mark opens a tag, behind text and tags that
are closed; a mark inside a tag is part of the tag. The error is that of the first defect, line by
line and from left to right.

The compiler goes through segments, and the first faulty one decides. A segment has no place of its
own, but what stands before it in its line is what the segments before it are made of (`Renders`),
so the order of segments is the order of columns.
-/

namespace ReportPress

open Text Markup

/-! ## Malformed tags -/

namespace Tag

variable {body : List Char}

/-- The name in the body of a tag: what stands before the first parenthesis, without blanks around
it. -/
def nameOf (body : List Char) : List Char := trim ((trim body).takeWhile (· ≠ '('))

/-- **When a body is malformed**: a parenthesis is not matched at its end, or its name is not a
word. -/
def Malformed (body : List Char) : Prop :=
  ('(' ∈ body ∧ (trim body).getLast? ≠ some ')') ∨ nameOf body = [] ∨
    ∃ c ∈ nameOf body, isBlank c = true

theorem ofBody?_eq_none_iff : ofBody? body = none ↔ Malformed body := by
  rw [Malformed, ← mem_trim_iff (show isBlank '(' = false by decide), ofBody?]
  by_cases hmem : '(' ∈ trim body
  · obtain ⟨front, rest, hbody, hfront⟩ := List.eq_append_cons_of_mem hmem
    have hname : nameOf body = trim front := by rw [nameOf, hbody, takeWhile_ne_append hfront]
    have hlast : (trim body).getLast? = some ')' ↔ rest.getLast? = some ')' := by
      rw [hbody, List.getLast?_append_cons, List.getLast?_cons]
      cases rest.getLast? <;> simp
    have hsplit := split?_append hfront (trimEnd_of_trim hbody)
    rw [← hbody] at hsplit
    rw [hsplit, hname, Ne, hlast]
    by_cases hclosed : rest.getLast? = some ')' <;> simp [hclosed, hmem, or_iff_not_imp_left]
  · have hname : nameOf body = trim body := by
      rw [nameOf, List.takeWhile_eq_self_iff.mpr (forall_ne_of_not_mem hmem), trim_trim]
    rw [split?_of_not_mem hmem, hname]
    simp [hmem, or_iff_not_imp_left]

end Tag

/-! ## Faulty lines -/

namespace Markup

/-- What is wrong with a line, if anything is: what is wrong with its first faulty segment. -/
def lineFault? (line : ℕ) (raw : List Char) : Option CompileError :=
  (Segment.scan 1 (clean raw)).findSome? (Segment.fault? line)

section Reference

variable {resources : Resources} {limit line : ℕ} {source : String} {raw : List Char}

def leaveAlone : Expansion := fun _ tag ↦ pure [.invoke tag.name tag.args]

theorem error?_compileSegment_leaveAlone (line : ℕ) (s : Segment) :
    error? (compileSegment leaveAlone line s).result = s.fault? line := by
  cases s with
  | text | unclosed => rfl
  | tag body =>
    rw [compileSegment, Segment.fault?]
    cases Tag.ofBody? body with
    | none => rfl
    | some tag =>
      show error? (if tag.name = Tag.includeName then _ else _ : Traced CompileError _).result = _
      split <;> rfl

theorem error?_compileLine_leaveAlone (line : ℕ) (raw : List Char) :
    error? (compileLine leaveAlone line raw).result = lineFault? line raw := by
  rw [error?_compileLine]
  simp only [error?_compileSegment_leaveAlone, lineFault?]

theorem compileSegment_eq_leaveAlone (expand : Expansion) {s : Segment} (h : s.isInclude = false) :
    compileSegment expand line s = compileSegment leaveAlone line s := by
  cases s with
  | text | unclosed => rfl
  | tag body =>
    rw [compileSegment, compileSegment]
    cases htag : Tag.ofBody? body with
    | none => rfl
    | some tag =>
      have hname : tag.name ≠ Tag.includeName := by simpa [Segment.isInclude, htag] using h
      simp only [if_neg hname]

/-- Markup without includes compiles as it does when they are left alone. -/
theorem compile_eq_compileReference (h : HasNoInclude source) :
    compile resources limit source = compileReference source := by
  refine Traced.collect_congr fun (raw, line) hentry ↦ ?_
  have hsegments := h raw (List.fst_mem_of_mem_zipIdx hentry)
  simp only [compileLine]
  rw [Traced.collect_congr fun s hs ↦ compileSegment_eq_leaveAlone _ (hsegments s hs)]
  rfl

theorem error?_compileReference (source : String) :
    error? (compileReference source).result
      = ((lines source.toList).zipIdx 1).findSome? fun entry ↦ lineFault? entry.2 entry.1 := by
  rw [compileReference, compileLines, Traced.error?_collect]
  congr 1
  funext entry
  exact error?_compileLine_leaveAlone entry.2 entry.1

end Reference

/-! ## Defects of a line -/

/-- **A defect of a line** as it is read, at a column, with the error that describes it. What stands
before it is text and tags that are closed. -/
inductive LineDefect (line : ℕ) (cs : List Char) : (column : ℕ) → CompileError → Prop
  /-- A mark that no brace closes. -/
  | unclosed {front rest segments} (hfront : Segment.Renders segments front)
      (hline : cs = front ++ '\x7b' :: '$' :: rest) (hrest : '\x7d' ∉ rest) :
      LineDefect line cs (front.length + 1) (.unclosedTag line (front.length + 1))
  /-- A tag with a malformed body. -/
  | malformed {front body after segments} (hfront : Segment.Renders segments front)
      (hline : cs = front ++ '\x7b' :: '$' :: (body ++ '\x7d' :: after)) (hbody : '\x7d' ∉ body)
      (hmalformed : Tag.Malformed body) :
      LineDefect line cs (front.length + 1) (.malformedTag line (String.ofList (trim body)))

namespace LineDefect

variable {line column column' : ℕ} {cs : List Char} {e e' : CompileError}

theorem error_unique (h : LineDefect line cs column e) (h' : LineDefect line cs column e') :
    e = e' := by
  -- Defects in one column begin at one mark, and what follows the mark tells the two kinds apart.
  have hrest {front front' rest rest' : List Char} (hcolumn : front.length + 1 = front'.length + 1)
      (hline : cs = front ++ '\x7b' :: '$' :: rest) (hline' : cs = front' ++ '\x7b' :: '$' :: rest') :
      rest = rest' := by
    obtain ⟨-, hmarks⟩ := List.append_inj (hline.symm.trans hline') (Nat.succ.inj hcolumn)
    exact (List.cons.inj (List.cons.inj hmarks).2).2
  generalize hcolumn : column = other at h'
  cases h with
  | unclosed hfront hline hopen =>
    cases h' with
    | unclosed hfront' hline' hopen' => rw [hcolumn]
    | malformed hfront' hline' hbody' hmalformed' =>
      rw [hrest hcolumn hline hline'] at hopen
      exact absurd (List.mem_append_right _ List.mem_cons_self) hopen
  | malformed hfront hline hbody hmalformed =>
    cases h' with
    | unclosed hfront' hline' hopen' =>
      rw [← hrest hcolumn hline hline'] at hopen'
      exact absurd (List.mem_append_right _ List.mem_cons_self) hopen'
    | malformed hfront' hline' hbody' hmalformed' =>
      have hbodies := congrArg (List.takeWhile (· ≠ '\x7d')) (hrest hcolumn hline hline')
      rw [takeWhile_ne_append hbody, takeWhile_ne_append hbody'] at hbodies
      rw [hbodies]

/-- A defect is a faulty segment, behind the segments that stand before it. -/
theorem exists_fault (h : LineDefect line cs column e) :
    ∃ before s after front, Segment.scan 1 cs = before ++ s :: after ∧ s.fault? line = some e ∧
      Segment.Renders before front ∧ column = front.length + 1 := by
  cases h with
  | @unclosed front rest segments hfront hline hrest =>
    refine ⟨segments, .unclosed (front.length + 1), [], front, ?_, rfl, hfront, rfl⟩
    rw [hline, hfront.scan_mark, Segment.scan_openMark_unclosed hrest, Nat.add_comm 1]
  | @malformed front body after segments hfront hline hbody hmalformed =>
    refine ⟨segments, .tag body, Segment.scan (1 + front.length + 2 + body.length + 1) after, front,
      ?_, ?_, hfront, rfl⟩
    · rw [hline, hfront.scan_mark, Segment.scan_openMark_tag hbody]
    · rw [Segment.fault?, Tag.ofBody?_eq_none_iff.mpr hmalformed]

/-- A faulty segment is a defect, right behind what the segments before it make up. -/
theorem of_fault {s : Segment} {before after : List Segment}
    (hscan : Segment.scan 1 cs = before ++ s :: after) (hfault : s.fault? line = some e) :
    ∃ front, Segment.Renders before front ∧ LineDefect line cs (front.length + 1) e := by
  have hs (content : List Char) : s ≠ .text content := by
    rintro rfl
    cases hfault
  obtain ⟨front, rest, hfront, hline, hback⟩ := Segment.exists_renders_of_scan hs hscan
  refine ⟨front, hfront, ?_⟩
  -- What the scan finds at the mark depends on whether a brace closes it.
  by_cases hclosed : '\x7d' ∈ rest
  · obtain ⟨body, tail, rfl, hbody⟩ := List.eq_append_cons_of_mem hclosed
    rw [Segment.scan_openMark_tag hbody] at hback
    obtain ⟨rfl, -⟩ := List.cons.inj hback
    rw [Segment.fault?] at hfault
    split at hfault
    · obtain rfl := Option.some.inj hfault
      exact .malformed hfront hline hbody (Tag.ofBody?_eq_none_iff.mp ‹_›)
    · cases hfault
  · rw [Segment.scan_openMark_unclosed hclosed] at hback
    obtain ⟨rfl, -⟩ := List.cons.inj hback
    obtain rfl := Option.some.inj hfault
    rw [Nat.add_comm 1]
    exact .unclosed hfront hline hclosed

end LineDefect

section Line

variable {line column : ℕ} {raw : List Char} {e : CompileError}

theorem lineFault?_ne_none (h : LineDefect line (clean raw) column e) : lineFault? line raw ≠ none := by
  obtain ⟨before, s, after, front, hscan, hfault, -⟩ := h.exists_fault
  have hmem : s ∈ Segment.scan 1 (clean raw) := hscan ▸ List.mem_append_right before List.mem_cons_self
  intro hnone
  rw [List.findSome?_eq_none_iff.mp hnone s hmem] at hfault
  cases hfault

theorem exists_defect_of_lineFault? (h : lineFault? line raw = some e) :
    ∃ column, LineDefect line (clean raw) column e ∧
      ∀ column' e', LineDefect line (clean raw) column' e' → column ≤ column' := by
  obtain ⟨before, s, after, hscan, hfault, hnone⟩ := List.findSome?_eq_some_iff.mp h
  obtain ⟨front, hfront, hdefect⟩ := LineDefect.of_fault hscan hfault
  refine ⟨_, hdefect, fun column' e' h' ↦ ?_⟩
  obtain ⟨before', s', after', front', hscan', hfault', hfront', rfl⟩ := h'.exists_fault
  -- The segments before the other defect go at least as far.
  have hprefix : before <+: before' := by
    rcases List.append_eq_append_iff.mp (hscan.symm.trans hscan') with
      ⟨middle, rfl, -⟩ | ⟨middle, rfl, htail⟩
    · exact List.prefix_append before middle
    · cases middle with
      | nil => rw [List.append_nil]
      | cons first middle =>
        obtain ⟨rfl, -⟩ := List.cons.inj htail
        rw [hnone s' (List.mem_append_right before' List.mem_cons_self)] at hfault'
        cases hfault'
  obtain ⟨middle, rfl⟩ := hprefix
  rw [← hfront.flatMap_markup, ← hfront'.flatMap_markup, List.flatMap_append, List.length_append]
  omega

end Line

/-! ## Defects of a text -/

/-- **A defect of a text**, at a line and a column counted from one, with the error that describes
it. -/
def Defect (source : String) (place : ℕ ×ₗ ℕ) (e : CompileError) : Prop :=
  ∃ raw line column, place = toLex (line, column) ∧ (raw, line) ∈ (lines source.toList).zipIdx 1 ∧
    LineDefect line (clean raw) column e

section Text

variable {source : String} {place : ℕ ×ₗ ℕ} {e e' : CompileError}

theorem Defect.error_unique (h : Defect source place e) (h' : Defect source place e') : e = e' := by
  obtain ⟨raw, line, column, rfl, hraw, hdefect⟩ := h
  obtain ⟨raw', line', column', hplace, hraw', hdefect'⟩ := h'
  obtain ⟨rfl, rfl⟩ := Prod.ext_iff.mp (toLex.injective hplace)
  rw [List.mk_mem_zipIdx_iff_le_and_getElem?_sub] at hraw hraw'
  obtain rfl := Option.some.inj (hraw.2.symm.trans hraw'.2)
  exact hdefect.error_unique hdefect'

theorem pairwise_zipIdx {α : Type} (items : List α) (start : ℕ) :
    (items.zipIdx start).Pairwise fun a b ↦ a.2 < b.2 := by
  rw [← List.pairwise_map, List.zipIdx_map_snd]
  exact List.pairwise_lt_range' 1 Nat.one_pos

theorem exists_defect_of_error (h : (compileReference source).result = .error e) :
    ∃ place, Defect source place e ∧ ∀ place' e', Defect source place' e' → place ≤ place' := by
  rw [← error?_eq_some_iff, error?_compileReference] at h
  obtain ⟨before, ⟨raw, line⟩, after, hlines, hfault, hnone⟩ := List.findSome?_eq_some_iff.mp h
  obtain ⟨column, hdefect, hleast⟩ := exists_defect_of_lineFault? hfault
  have hmem : (raw, line) ∈ (lines source.toList).zipIdx 1 :=
    hlines ▸ List.mem_append_right before List.mem_cons_self
  refine ⟨toLex (line, column), ⟨raw, line, column, rfl, hmem, hdefect⟩, ?_⟩
  rintro _ e' ⟨raw', line', column', rfl, hraw', hdefect'⟩
  rw [Prod.Lex.toLex_le_toLex]
  -- Another defect is on a line before, which is in order, on the same line, or further down.
  rw [hlines, List.mem_append, List.mem_cons] at hraw'
  rcases hraw' with hbefore | hsame | hafter
  · exact absurd (hnone _ hbefore) (lineFault?_ne_none hdefect')
  · obtain ⟨rfl, rfl⟩ := Prod.ext_iff.mp hsame
    exact .inr ⟨rfl, hleast column' e' hdefect'⟩
  · have hnumbers := pairwise_zipIdx (lines source.toList) 1
    rw [hlines, List.pairwise_append, List.pairwise_cons] at hnumbers
    exact .inl (hnumbers.2.1.1 _ hafter)

theorem Defect.exists_error (h : Defect source place e) :
    ∃ e, (compileReference source).result = .error e := by
  obtain ⟨raw, line, column, -, hraw, hdefect⟩ := h
  cases hresult : (compileReference source).result with
  | error e => exact ⟨e, rfl⟩
  | ok commands =>
    have hnone := error?_compileReference source
    rw [hresult] at hnone
    exact absurd (List.findSome?_eq_none_iff.mp hnone.symm _ hraw) (lineFault?_ne_none hdefect)

/-- **Markup fails at its first defect.** Markup without includes does not compile exactly when it
has a defect. The error is then that of the defect which no other comes before, by lines first and
by columns on the same line. -/
theorem compile_fails_at_first_defect (h : HasNoInclude source) (resources : Resources) (limit : ℕ) :
    ((∃ e, (compile resources limit source).result = .error e) ↔
        ∃ place e, Defect source place e) ∧
      ∀ e, (compile resources limit source).result = .error e ↔
        ∃ place, Defect source place e ∧ ∀ place' e', Defect source place' e' → place ≤ place' := by
  rw [compile_eq_compileReference h]
  refine ⟨⟨?_, ?_⟩, fun e ↦ ⟨exists_defect_of_error, ?_⟩⟩
  · rintro ⟨e, he⟩
    obtain ⟨place, hdefect, -⟩ := exists_defect_of_error he
    exact ⟨place, e, hdefect⟩
  · rintro ⟨place, e, hdefect⟩
    exact hdefect.exists_error
  · rintro ⟨place, hdefect, hleast⟩
    obtain ⟨e', he'⟩ := hdefect.exists_error
    obtain ⟨place', hdefect', hleast'⟩ := exists_defect_of_error he'
    obtain rfl := le_antisymm (hleast place' e' hdefect') (hleast' place e hdefect)
    rw [he', hdefect.error_unique hdefect']

def twoDefects : String := "ok\n\x7b$SF(\x7d \x7b$LEND"

theorem compile_fails_at_first_defect_two :
    HasNoInclude twoDefects ∧
      (compile .empty 0 twoDefects).result = .error (.malformedTag 2 "SF(") ∧
      ∃ place, Defect twoDefects place (.malformedTag 2 "SF(") ∧
        ∀ place' e', Defect twoDefects place' e' → place ≤ place' := by
  have hinclude : HasNoInclude twoDefects := by
    unfold HasNoInclude
    decide +kernel
  have herror : (compile .empty 0 twoDefects).result = .error (.malformedTag 2 "SF(") := by
    decide +kernel
  exact ⟨hinclude, herror, ((compile_fails_at_first_defect hinclude .empty 0).2 _).mp herror⟩

end Text

end Markup

end ReportPress
