import Mathlib
import ReportPress.Proofs.Markup.Includes
import ReportPress.Proofs.Markup.Tag
import ReportPress.Proofs.Report.Recorded

/-!
# No character is lost

The commands of markup without includes, each written as it stood in the markup, are the markup:
that is, its lines without controls and without blanks at their ends, which is what a line is
cleaned to before it is read. Of a tag the body is kept as it was written, blanks and all, and it
denotes the name and the arguments of the command.
-/

namespace ReportPress

open Text Markup

/-! ## Writing pieces -/

/-- A segment as it stands in its line. An unclosed mark is nothing that compiles. -/
def Markup.Segment.markup : Segment → List Char
  | .text content => content
  | .tag body => '\x7b' :: '$' :: (body ++ ['\x7d'])
  | .unclosed _ => []

def Piece.markup : Piece → List Char
  | .segment s => s.markup
  | .lineEnd => ['\n']

namespace Markup

theorem Segment.flatMap_ofText (content : List Char) :
    (Segment.ofText content).flatMap Segment.markup = content := by
  cases content <;> simp [Segment.ofText, Segment.markup]

theorem Segment.Renders.flatMap_markup {segments : List Segment} {cs : List Char}
    (h : Segment.Renders segments cs) : segments.flatMap Segment.markup = cs := by
  induction h with
  | text => exact Segment.flatMap_ofText _
  | tag _ _ _ ih =>
    rw [List.flatMap_append, List.flatMap_cons, Segment.flatMap_ofText, ih]
    simp [Segment.markup]

theorem Segment.Renders.not_mem_body {segments : List Segment} {cs body : List Char}
    (h : Segment.Renders segments cs) (hbody : .tag body ∈ segments) : '\x7d' ∉ body := by
  have htext (content : List Char) : Segment.tag body ∉ Segment.ofText content := by
    cases content <;> simp [Segment.ofText]
  induction h with
  | text => exact absurd hbody (htext _)
  | tag _ hclose _ ih =>
    rcases List.mem_append.mp hbody with hbefore | hrest
    · exact absurd hbefore (htext _)
    · rcases List.mem_cons.mp hrest with htag | hafter
      · rwa [Segment.tag.inj htag]
      · exact ih hafter

/-- A line as it is read: cleaned, with its line feed. -/
def cleanLine (raw : List Char) : List Char :=
  clean raw ++ if raw.getLast? = some '\n' then ['\n'] else []

/-- A text with every line as it is read. -/
def cleanText (source : String) : List Char := (lines source.toList).flatMap cleanLine

end Markup

theorem Piece.flatMap_markup_ofLine {raw : List Char}
    (h : Segment.Renders (Segment.scan 1 (clean raw)) (clean raw)) :
    (Piece.ofLine raw).flatMap Piece.markup = cleanLine raw := by
  have hsegments : ((Segment.scan 1 (clean raw)).map Piece.segment).flatMap Piece.markup
      = clean raw := by
    rw [List.flatMap_map]
    exact h.flatMap_markup
  rw [Piece.ofLine, List.flatMap_append, hsegments, cleanLine, Piece.lineEnd?]
  split <;> simp [Piece.markup]

/-! ## Writing commands -/

/-- **How a command stands in the markup.** -/
inductive Command.WrittenAs : Command → List Char → Prop
  | literal (text : String) : WrittenAs (.literal text) text.toList
  | newline : WrittenAs .newline ['\n']
  /-- A body that denotes the name and the arguments. -/
  | invoke {body : List Char} {name : String} {args : Arguments} (hclose : '\x7d' ∉ body)
      (hbody : Tag.Denotes body name args) :
      WrittenAs (.invoke name args) ('\x7b' :: '$' :: (body ++ ['\x7d']))

namespace Markup

def Segment.isInclude : Segment → Bool
  | .tag body => (Tag.ofBody? body).any (·.name = Tag.includeName)
  | _ => false

def HasNoInclude (source : String) : Prop :=
  ∀ raw ∈ lines source.toList, ∀ s ∈ Segment.scan 1 (clean raw), s.isInclude = false

/-- A piece that is no include tag compiles to one command, which is written as the piece stands. -/
theorem exists_writtenAs {includes : Tag → List Command → Prop} {piece : Piece}
    {part : List Command} (h : piece.Compiles includes part)
    (hclose : ∀ body, piece = .segment (.tag body) → '\x7d' ∉ body)
    (hinclude : ∀ s, piece = .segment s → s.isInclude = false) :
    ∃ command, part = [command] ∧ command.WrittenAs piece.markup := by
  cases h with
  | text content =>
    have hwritten := Command.WrittenAs.literal (String.ofList content)
    rw [String.toList_ofList] at hwritten
    exact ⟨_, rfl, hwritten⟩
  | lineEnd => exact ⟨_, rfl, .newline⟩
  | @invoke body tag htag hname =>
    have hdenotes := (Tag.ofBody?_eq_some_iff.mp ⟨tag.text, htag⟩).1
    exact ⟨_, rfl, .invoke (hclose body rfl) hdenotes⟩
  | @expand body tag part htag hname =>
    have hnone := hinclude _ rfl
    simp [Segment.isInclude, htag, hname] at hnone

theorem renders_of_compile {resources : Resources} {limit : ℕ} {source : String}
    {commands : List Command} (h : (compile resources limit source).result = .ok commands) :
    ∀ raw ∈ lines source.toList, Segment.Renders (Segment.scan 1 (clean raw)) (clean raw) := by
  intro raw hraw
  refine (Segment.scan_eq_iff fun column hmem ↦ ?_).mp (rfl : Segment.scan 1 (clean raw) = _)
  -- An unclosed mark would have to compile to something.
  have hpiece := Piece.segment_mem_ofLines.mpr ⟨raw, hraw, hmem⟩
  obtain ⟨part, ⟨⟩⟩ := (result_compile_eq_ok.mp h).exists_part _ hpiece

/-- **No character is lost.** The commands that markup without includes compiles to can be written
as they stand in the markup, and then they are the markup, line by line without controls and without
blanks at the end. -/
theorem exists_written_of_compile {resources : Resources} {limit : ℕ} {source : String}
    {commands : List Command} (h : (compile resources limit source).result = .ok commands)
    (hinclude : HasNoInclude source) :
    ∃ written, List.Forall₂ Command.WrittenAs commands written ∧
      written.flatten = cleanText source := by
  have hpieces := result_compile_eq_ok.mp h
  have hrenders := renders_of_compile h
  refine ⟨(Piece.ofLines (lines source.toList)).map Piece.markup, ?_, ?_⟩
  · refine List.forall₂_map_right_iff.mpr (List.Forall₂.flip (hpieces.forall₂ ?_))
    intro piece hpiece part hpart
    refine exists_writtenAs hpart ?_ ?_
    · rintro body rfl
      obtain ⟨raw, hraw, hmem⟩ := Piece.segment_mem_ofLines.mp hpiece
      exact (hrenders raw hraw).not_mem_body hmem
    · rintro s rfl
      obtain ⟨raw, hraw, hmem⟩ := Piece.segment_mem_ofLines.mp hpiece
      exact hinclude raw hraw s hmem
  · rw [← List.flatMap_def, Piece.ofLines, List.flatMap_assoc, cleanText]
    exact List.flatMap_congr fun raw hraw ↦ Piece.flatMap_markup_ofLine (hrenders raw hraw)

theorem exists_written_of_compile_two_lines :
    ∃ written, List.Forall₂ Command.WrittenAs
        [.literal "a", .invoke "SF" ⟨["12"], .empty⟩, .literal "b", .newline, .invoke "LEND" .none]
        written ∧
      written.flatten = "a\x7b$ SF ( 12 ) \x7db\n\x7b$LEND\x7d".toList := by
  have hcompile : (compile .empty 0 "a\x7b$ SF ( 12 ) \x7d\x0cb \t\n\x7b$LEND\x7d").result = .ok
      [.literal "a", .invoke "SF" ⟨["12"], .empty⟩, .literal "b", .newline,
        .invoke "LEND" .none] := by
    decide +kernel
  have hinclude : HasNoInclude "a\x7b$ SF ( 12 ) \x7d\x0cb \t\n\x7b$LEND\x7d" := by
    unfold HasNoInclude
    decide +kernel
  obtain ⟨written, hwritten, hflatten⟩ := exists_written_of_compile hcompile hinclude
  exact ⟨written, hwritten, hflatten.trans (by decide +kernel)⟩

end Markup

end ReportPress
