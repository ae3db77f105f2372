import Mathlib
import ReportPress.File.Tree
import ReportPress.Proofs.Markup.Raised

/-!
# Markup put together

Texts can be compiled one after the other when they are cut between lines. The commands of the whole
are those of its parts, and it fails as the first part that does. All that the lines before it do to
an error is to move it down, as far as it has to do with lines of the text itself: what goes wrong
in an included file says where it is in the file.

Whether it went wrong in the text or in a file cannot be told from an error, so what is said is
about where errors are raised (`Raised`).
-/

namespace ReportPress

open Text Markup

variable {resources : Resources} {limit left line : ℕ} {e : CompileError}

/-! ## Further down -/

/-- An error that many lines further down. -/
def CompileError.movedDown (count : ℕ) : CompileError → CompileError
  | .unclosedTag line column => .unclosedTag (line + count) column
  | .malformedTag line tag => .malformedTag (line + count) tag
  | .missingInclude line cause => .missingInclude (line + count) cause
  | .tooDeep file depth => .tooDeep file depth
  | .unreadable path cause => .unreadable path cause

namespace Markup

variable {s : Segment}

theorem Segment.Raises.movedDown (h : s.Raises resources limit left line e) (count : ℕ) :
    s.Raises resources limit left (line + count) (e.movedDown count) := by
  cases h with
  | fault hfault =>
    refine .fault ?_
    cases s with
    | text content => cases hfault
    | unclosed column =>
      obtain rfl := Option.some.inj hfault
      rfl
    | tag body =>
      rw [Segment.fault?] at hfault ⊢
      split at hfault
      · obtain rfl := Option.some.inj hfault
        rfl
      · cases hfault
  | refused htag hrefused =>
    refine .refused htag ?_
    cases hrefused with
    | noFile hargs => exact .noFile hargs
    | tooDeep hargs hleft => exact .tooDeep hargs hleft
    | missing hargs hleft hlocate => exact .missing hargs hleft hlocate

theorem placedFrom_append (first : ℕ) (raws others : List (List Char)) :
    placedFrom first (raws ++ others)
      = placedFrom first raws ++ placedFrom (raws.length + first) others := by
  rw [placedFrom, List.zipIdx_append, List.flatMap_append, Nat.add_comm first]
  rfl

def placesDown (count : ℕ) (places : List (Segment × ℕ)) : List (Segment × ℕ) :=
  places.map (Prod.map id (· + count))

theorem placedFrom_add (count first : ℕ) (raws : List (List Char)) :
    placedFrom (count + first) raws = placesDown count (placedFrom first raws) := by
  rw [placesDown, placedFrom, ← List.map_snd_add_zipIdx_eq_zipIdx, List.flatMap_map, placedFrom,
    List.map_flatMap]
  simp only [List.map_map]
  rfl

/-! ## Two texts -/

section Append

variable {front back : String} {files : List Path}

/-- Whether a text has no line that goes on behind it. -/
def WholeLines (source : String) : Prop := source = "" ∨ source.toList.getLast? = some '\n'

theorem WholeLines.lines_append (h : WholeLines front) (back : String) :
    lines (front ++ back).toList = lines front.toList ++ lines back.toList := by
  rw [String.toList_append]
  refine Markup.lines_append (fun c hc ↦ ?_) _
  rcases h with rfl | hlast
  · cases hc
  · exact (Option.some.inj (hlast.symm.trans hc)).symm

theorem WholeLines.placed_append (h : WholeLines front) (back : String) :
    placedFrom 1 (lines (front ++ back).toList)
      = placedFrom 1 (lines front.toList)
        ++ placesDown (lines front.toList).length (placedFrom 1 (lines back.toList)) := by
  rw [h.lines_append, placedFrom_append, placedFrom_add]

theorem StopsAt.append_right (h : StopsAt resources left front s line) (hfront : WholeLines front)
    (back : String) : StopsAt resources left (front ++ back) s line := by
  obtain ⟨before, after, hplaced, hbefore⟩ := h
  refine ⟨before, after ++ placesDown (lines front.toList).length (placedFrom 1 (lines back.toList)),
    ?_, hbefore⟩
  rw [hfront.placed_append, hplaced, List.append_assoc, List.cons_append]

theorem StopsAt.append_left (h : StopsAt resources left back s line) (hfront : WholeLines front)
    (hcompiles : ∀ place ∈ placedFrom 1 (lines front.toList), place.1.InOrder resources left) :
    StopsAt resources left (front ++ back) s (line + (lines front.toList).length) := by
  obtain ⟨before, after, hplaced, hbefore⟩ := h
  refine ⟨placedFrom 1 (lines front.toList) ++ placesDown (lines front.toList).length before,
    placesDown (lines front.toList).length after, ?_, ?_⟩
  · rw [hfront.placed_append, hplaced, placesDown, List.map_append, List.map_cons, List.append_assoc]
    rfl
  · intro place hplace
    rcases List.mem_append.mp hplace with hplace | hplace
    · exact hcompiles place hplace
    · obtain ⟨other, hother, rfl⟩ := List.mem_map.mp hplace
      exact hbefore other hother

theorem inOrder_of_compile {commands : List Command}
    (h : (compile resources limit front).result = .ok commands) :
    ∀ place ∈ placedFrom 1 (lines front.toList), place.1.InOrder resources limit := by
  have hnone : error? (compile resources limit front).result = none := error?_eq_none_iff.mpr ⟨_, h⟩
  rw [compile, error?_compileLines, List.findSome?_eq_none_iff] at hnone
  exact fun place hplace ↦ error?_compileSegment_eq_none_iff.mp (hnone place hplace)

theorem Raised.append_right (h : Raised resources limit left front files e)
    (hfront : WholeLines front) (back : String) :
    Raised resources limit left (front ++ back) files e := by
  cases h with
  | here hstops hraises => exact .here (hstops.append_right hfront back) hraises
  | unreadable hstops htag hfinds hread =>
    exact .unreadable (hstops.append_right hfront back) htag hfinds hread
  | inside hstops htag hfinds hread hraised =>
    exact .inside (hstops.append_right hfront back) htag hfinds hread hraised

/-- What is raised in the second text itself moves down with it. -/
theorem Raised.append_left (h : Raised resources limit left back [] e) (hfront : WholeLines front)
    (hcompiles : ∀ place ∈ placedFrom 1 (lines front.toList), place.1.InOrder resources left) :
    Raised resources limit left (front ++ back) [] (e.movedDown (lines front.toList).length) := by
  cases h with
  | here hstops hraises =>
    exact .here (hstops.append_left hfront hcompiles) (hraises.movedDown _)

/-- What is raised in a file stays. -/
theorem Raised.append_left_of_cons {path : Path}
    (h : Raised resources limit left back (path :: files) e) (hfront : WholeLines front)
    (hcompiles : ∀ place ∈ placedFrom 1 (lines front.toList), place.1.InOrder resources left) :
    Raised resources limit left (front ++ back) (path :: files) e := by
  cases h with
  | unreadable hstops htag hfinds hread =>
    exact .unreadable (hstops.append_left hfront hcompiles) htag hfinds hread
  | inside hstops htag hfinds hread hraised =>
    exact .inside (hstops.append_left hfront hcompiles) htag hfinds hread hraised

/-- **Texts compile one after the other.** When the first is made of whole lines, the commands of
both are the commands of the whole. When the first does not compile, the whole fails as it does.
When only the second does not, the whole fails as that does, its lines being counted on from the
first if the error was raised in the text itself, and not if it was raised in a file that is
included there. -/
theorem compile_append (hfront : WholeLines front) (resources : Resources) (limit : ℕ)
    (back : String) :
    (∀ first second, (compile resources limit front).result = .ok first →
        (compile resources limit back).result = .ok second →
        (compile resources limit (front ++ back)).result = .ok (first ++ second)) ∧
      (∀ e, (compile resources limit front).result = .error e →
        (compile resources limit (front ++ back)).result = .error e) ∧
      ∀ first e, (compile resources limit front).result = .ok first →
        (compile resources limit back).result = .error e →
        (∃ files, Raised resources limit limit back files e) ∧
          (Raised resources limit limit back [] e →
            (compile resources limit (front ++ back)).result
              = .error (e.movedDown (lines front.toList).length)) ∧
          ∀ path files, Raised resources limit limit back (path :: files) e →
            (compile resources limit (front ++ back)).result = .error e := by
  refine ⟨?_, ?_, ?_⟩
  · intro first second hfirst hsecond
    rw [result_compile_eq_ok] at hfirst hsecond ⊢
    rw [hfront.lines_append, Piece.ofLines, List.flatMap_append]
    exact Assembles.append_iff.mpr ⟨first, second, hfirst, hsecond, rfl⟩
  · intro e herror
    obtain ⟨files, hraised⟩ := exists_raised herror
    exact (hraised.append_right hfront back).result_eq_error
  · intro first e hfirst herror
    have hcompiles := inOrder_of_compile hfirst
    refine ⟨exists_raised herror, fun hhere ↦ ?_, fun path files hinside ↦ ?_⟩
    · exact (hhere.append_left hfront hcompiles).result_eq_error
    · exact (hinside.append_left_of_cons hfront hcompiles).result_eq_error

def brokenFile : Resources :=
  ⟨⟨[]⟩, FileTree.toFileSystem ⟨[(["bad"], .file "\x7b$LEND".toUTF8)]⟩ []⟩

/-- The same mark, on the second line of the whole and in a file that is included there. -/
theorem compile_append_broken :
    (compile brokenFile 1 ("ok\n" ++ "\x7b$LEND")).result = .error (.unclosedTag 2 1) ∧
      (compile brokenFile 1 ("ok\n" ++ "\x7b$INCLUDE(bad)\x7d")).result
        = .error (.unclosedTag 1 1) := by
  have hfront : WholeLines "ok\n" := .inr (by decide)
  have hok : (compile brokenFile 1 "ok\n").result = .ok [.literal "ok", .newline] := by
    decide +kernel
  have hstops {source : String} {s : Segment} (left : ℕ)
      (h : placedFrom 1 (lines source.toList) = [(s, 1)]) : StopsAt brokenFile left source s 1 :=
    ⟨[], [], h, List.forall_mem_nil _⟩
  have hmark : placedFrom 1 (lines "\x7b$LEND".toList) = [(.unclosed 1, 1)] := by decide +kernel
  have htag : placedFrom 1 (lines "\x7b$INCLUDE(bad)\x7d".toList)
      = [(.tag "INCLUDE(bad)".toList, 1)] := by
    decide +kernel
  have hbroken (left : ℕ) : Raised brokenFile 1 left "\x7b$LEND" [] (.unclosedTag 1 1) :=
    .here (hstops left hmark) (.fault rfl)
  have htext : Utf8.decodeInput "\x7b$LEND".toUTF8 = "\x7b$LEND" := by decide +kernel
  have hinside : Raised brokenFile 1 1 "\x7b$INCLUDE(bad)\x7d" [⟨"bad"⟩] (.unclosedTag 1 1) :=
    .inside (hstops 1 htag) ⟨_, rfl, rfl, by decide +kernel⟩
      ⟨"bad", [], by decide +kernel, by decide +kernel⟩ rfl (htext.symm ▸ hbroken 0)
  obtain ⟨-, -, hback⟩ := compile_append hfront brokenFile 1 "\x7b$LEND"
  obtain ⟨-, -, hback'⟩ := compile_append hfront brokenFile 1 "\x7b$INCLUDE(bad)\x7d"
  exact ⟨(hback _ _ hok (hbroken 1).result_eq_error).2.1 (hbroken 1),
    (hback' _ _ hok hinside.result_eq_error).2.2 _ _ hinside⟩

end Append

end Markup

end ReportPress
