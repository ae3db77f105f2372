import Mathlib
import ReportPress.Markup.Compile
import ReportPress.Proofs.Journal.Collect
import ReportPress.Proofs.Markup.Line

/-!
# What markup compiles to

To a compiler markup is a row of pieces: the segments of its lines, and the line ends. When it
succeeds, its commands are assembled from what each piece compiles to; where a piece stands only
matters for the errors. An include tag compiles to whatever the compiler's way with includes makes
of it, and every other piece to one command.
-/

namespace ReportPress

open Text Markup

inductive Piece where
  | segment (segment : Segment)
  | lineEnd

namespace Piece

def lineEnd? (raw : List Char) : List Piece := if raw.getLast? = some '\n' then [.lineEnd] else []

def ofLine (raw : List Char) : List Piece :=
  (Segment.scan 1 (clean raw)).map .segment ++ lineEnd? raw

def ofLines (raws : List (List Char)) : List Piece := raws.flatMap ofLine

theorem segment_mem_ofLine {raw : List Char} {s : Segment} :
    .segment s ∈ ofLine raw ↔ s ∈ Segment.scan 1 (clean raw) := by
  have hlineEnd : Piece.segment s ∉ lineEnd? raw := by
    rw [lineEnd?]
    split <;> simp
  simp [ofLine, hlineEnd]

theorem segment_mem_ofLines {raws : List (List Char)} {s : Segment} :
    .segment s ∈ ofLines raws ↔ ∃ raw ∈ raws, s ∈ Segment.scan 1 (clean raw) := by
  simp [ofLines, segment_mem_ofLine]

/-- **What a piece compiles to**, with `includes` for what becomes of an include tag. -/
inductive Compiles (includes : Tag → List Command → Prop) : Piece → List Command → Prop
  | text (content : List Char) :
      Compiles includes (.segment (.text content)) [.literal (String.ofList content)]
  | lineEnd : Compiles includes .lineEnd [.newline]
  | invoke {body : List Char} {tag : Tag} (htag : Tag.ofBody? body = some tag)
      (hname : tag.name ≠ Tag.includeName) :
      Compiles includes (.segment (.tag body)) [.invoke tag.name tag.args]
  /-- An include tag stands for something else. -/
  | expand {body : List Char} {tag : Tag} {part : List Command}
      (htag : Tag.ofBody? body = some tag) (hname : tag.name = Tag.includeName)
      (hpart : includes tag part) : Compiles includes (.segment (.tag body)) part

theorem Compiles.mono {includes includes' : Tag → List Command → Prop} {piece : Piece}
    {part : List Command} (himp : ∀ tag part, includes tag part → includes' tag part)
    (h : piece.Compiles includes part) : piece.Compiles includes' part := by
  cases h with
  | text content => exact .text content
  | lineEnd => exact .lineEnd
  | invoke htag hname => exact .invoke htag hname
  | expand htag hname hpart => exact .expand htag hname (himp _ _ hpart)

section Compiles

variable {includes : Tag → List Command → Prop} {part : List Command}

@[simp] theorem compiles_text {content : List Char} :
    Compiles includes (.segment (.text content)) part ↔
      part = [.literal (String.ofList content)] := by
  constructor
  · rintro ⟨⟩
    rfl
  · rintro rfl
    exact .text content

@[simp] theorem not_compiles_unclosed {column : ℕ} :
    ¬Compiles includes (.segment (.unclosed column)) part := by
  rintro ⟨⟩

theorem compiles_tag {body : List Char} :
    Compiles includes (.segment (.tag body)) part ↔
      ∃ tag, Tag.ofBody? body = some tag ∧
        if tag.name = Tag.includeName then includes tag part
        else part = [.invoke tag.name tag.args] := by
  constructor
  · intro h
    cases h with
    | invoke htag hname => exact ⟨_, htag, by rw [if_neg hname]⟩
    | expand htag hname hpart => exact ⟨_, htag, by rwa [if_pos hname]⟩
  · rintro ⟨tag, htag, hpart⟩
    split at hpart
    · exact .expand htag ‹_› hpart
    · rw [hpart]
      exact .invoke htag ‹_›

@[simp] theorem compiles_lineEnd :
    Compiles includes .lineEnd part ↔ part = [.newline] := by
  constructor
  · rintro ⟨⟩
    rfl
  · rintro rfl
    exact .lineEnd

end Compiles

theorem assembles_lineEnd? {includes : Tag → List Command → Prop} {raw : List Char}
    {part : List Command} :
    Assembles (Compiles includes) (lineEnd? raw) part ↔
      part = if raw.getLast? = some '\n' then [.newline] else [] := by
  rw [lineEnd?]
  split <;> simp

end Piece

section Compile

variable {expand : Expansion} {includes : Tag → List Command → Prop} {line : ℕ}
  {commands : List Command}

theorem result_compileSegment_eq_ok
    (hincludes : ∀ tag part, (expand line tag).result = .ok part ↔ includes tag part)
    (segment : Segment) (part : List Command) :
    (compileSegment expand line segment).result = .ok part ↔
      (Piece.segment segment).Compiles includes part := by
  cases segment with
  | text content => simp [compileSegment, eq_comm]
  | unclosed column => exact iff_of_false (fun h ↦ nomatch h) Piece.not_compiles_unclosed
  | tag body =>
    rw [compileSegment, Piece.compiles_tag]
    cases Tag.ofBody? body with
    | none =>
      refine iff_of_false (fun h ↦ nomatch h) ?_
      rintro ⟨tag, ⟨⟩, -⟩
    | some tag =>
      simp only [Option.some.injEq, exists_eq_left']
      split
      · exact hincludes tag part
      · simp [eq_comm]

theorem result_compileLine_eq_ok
    (hincludes : ∀ tag part, (expand line tag).result = .ok part ↔ includes tag part)
    (raw : List Char) (part : List Command) :
    (compileLine expand line raw).result = .ok part ↔
      Assembles (Piece.Compiles includes) (Piece.ofLine raw) part := by
  have hsegments (front : List Command) :
      (Traced.collect (compileSegment expand line) (Segment.scan 1 (clean raw))).result = .ok front ↔
        Assembles (Piece.Compiles includes) ((Segment.scan 1 (clean raw)).map .segment) front := by
    rw [Traced.result_collect_eq_ok, Assembles.map_iff]
    exact Assembles.congr (result_compileSegment_eq_ok hincludes)
  simp only [compileLine, Traced.result_bind_eq_ok, Traced.result_pure, Except.ok.injEq, hsegments,
    Piece.ofLine, Assembles.append_iff, Piece.assembles_lineEnd?, exists_and_left, exists_eq_left,
    eq_comm (a := part)]

/-- **Commands are assembled piece by piece.** -/
theorem result_compileLines_eq_ok {raws : List (List Char)}
    (hincludes : ∀ line tag part, (expand line tag).result = .ok part ↔ includes tag part) :
    (compileLines expand raws).result = .ok commands ↔
      Assembles (Piece.Compiles includes) (Piece.ofLines raws) commands := by
  have hlines : Assembles (fun item part ↦ (compileLine expand item.2 item.1).result = .ok part)
        (raws.zipIdx 1) commands ↔
      Assembles (fun item ↦ Assembles (Piece.Compiles includes) (Piece.ofLine item.1))
        (raws.zipIdx 1) commands :=
    Assembles.congr fun item part ↦ result_compileLine_eq_ok (hincludes item.2) item.1 part
  rw [compileLines, Traced.result_collect_eq_ok, hlines, Piece.ofLines, Assembles.flatMap_iff,
    ← List.zipIdx_map_fst 1 raws, Assembles.map_iff, List.zipIdx_map_fst]

end Compile

end ReportPress
