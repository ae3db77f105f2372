import Mathlib
import ReportPress.Proofs.Markup.Nesting
import ReportPress.Proofs.Markup.Parameters
import ReportPress.Proofs.Markup.Printing
import ReportPress.Proofs.Markup.Written
import ReportPress.Proofs.Render.Performing

/-!
# The shape of what is compiled

What every command of compiled markup is like, whatever files were included on the way. Its
characters are those of a cleaned line, and of those every step takes some away: the scanner the
marks around a tag, the tag the parenthesis after its name, the arguments their commas. So the line
ends of the markup are all in the commands for them, and no text that is drawn holds one.
-/

namespace ReportPress

open Text Markup

/-! ## Characters -/

namespace Markup

theorem isStripped_eq_false_iff {c : Char} : isStripped c = false ↔ (isControl c = true → c = '\t') := by
  simp [isStripped]

theorem isStripped_of_mem_clean {raw : List Char} {c : Char} (h : c ∈ clean raw) :
    isStripped c = false := by
  rw [clean, trimEnd_eq_rdropWhile] at h
  have hmem := (List.rdropWhile_prefix isBlank _).subset h
  simpa using List.of_mem_filter hmem

namespace Segment.Renders

variable {segments : List Segment} {cs content : List Char} {s : Segment}

theorem of_mem_text (h : Renders segments cs) (hmem : .text content ∈ segments) :
    content ≠ [] ∧ ¬openMark <:+: content := by
  have htext {before : List Char} (hbefore : ¬openMark <:+: before)
      (hmem : .text content ∈ ofText before) : content ≠ [] ∧ ¬openMark <:+: content := by
    obtain rfl := Segment.text.inj (eq_text_of_mem_ofText hmem)
    refine ⟨?_, hbefore⟩
    rintro rfl
    cases hmem
  induction h with
  | text hcontent => exact htext hcontent hmem
  | tag hbefore _ _ ih =>
    rcases List.mem_append.mp hmem with hmem | hmem
    · exact htext hbefore hmem
    · exact ih ((List.mem_cons.mp hmem).resolve_left nofun)

theorem mem_of_mem_markup (h : Renders segments cs) (hmem : s ∈ segments) :
    ∀ c ∈ s.markup, c ∈ cs := by
  intro c hc
  rw [← h.flatMap_markup]
  exact List.mem_flatMap.mpr ⟨s, hmem, hc⟩

end Segment.Renders

end Markup

/-! ## Tags -/

def Token.texts : Token → List String
  | .positional value => [value]
  | .keyword key value => [key, value]

theorem Token.mem_of_mem_texts {piece : List Char} {token : Token} (h : ofText? piece = some token) :
    ∀ text ∈ token.texts, ∀ c ∈ text.toList, c ∈ piece := by
  have hchars := ofText?_eq_some h
  cases token with
  | positional value => simpa [texts] using hchars
  | keyword key value => simpa [texts] using hchars.2

namespace Arguments

variable {raw text : String}

theorem exists_token_of_mem_texts (h : text ∈ (ofParameters raw).texts) :
    ∃ token ∈ Token.all raw, text ∈ token.texts := by
  rcases List.mem_append.mp h with hvalue | hentry
  · obtain ⟨token, htoken, hpositional⟩ := List.mem_filterMap.mp hvalue
    cases token with
    | positional value =>
      obtain rfl := Option.some.inj hpositional
      exact ⟨_, htoken, List.mem_singleton_self value⟩
    | keyword => cases hpositional
  · obtain ⟨entry, hentry, htext⟩ := List.mem_flatMap.mp hentry
    obtain ⟨token, htoken, hkeyword⟩ := List.mem_filterMap.mp (Keywords.mem_of_mem_ofList hentry)
    cases token with
    | positional => cases hkeyword
    | keyword key value =>
      obtain rfl := Option.some.inj hkeyword
      exact ⟨_, htoken, htext⟩

theorem mem_of_mem_texts (h : text ∈ (ofParameters raw).texts) :
    ∀ c ∈ text.toList, c ∈ raw.toList ∧ c ≠ ',' := by
  obtain ⟨token, htoken, htext⟩ := exists_token_of_mem_texts h
  obtain ⟨piece, hpiece, hofText⟩ := Token.exists_piece_of_mem_ofPieces htoken
  exact fun c hc ↦ hpiece c (Token.mem_of_mem_texts hofText text htext c hc)

end Arguments

namespace Tag.Denotes

variable {body : List Char} {name : String} {args : Arguments}

theorem mem_of_mem_name (h : Denotes body name args) : ∀ c ∈ name.toList, c ∈ body ∧ c ≠ '(' := by
  intro c hc
  cases h with
  | bare hbare =>
    rw [String.toList_ofList] at hc
    exact ⟨(trim_sublist body).mem hc, fun hparen ↦ hbare (hparen ▸ hc)⟩
  | @withParameters front parameters hfront hbody =>
    rw [String.toList_ofList] at hc
    have hmem := (trim_sublist front).mem hc
    exact ⟨(trim_sublist body).mem (hbody ▸ List.mem_append_left _ hmem),
      fun hparen ↦ hfront (hparen ▸ hmem)⟩

theorem mem_of_mem_texts (h : Denotes body name args) {text : String} (htext : text ∈ args.texts) :
    ∀ c ∈ text.toList, c ∈ body ∧ c ≠ ',' := by
  cases h with
  | bare => cases htext
  | @withParameters front parameters hfront hbody =>
    intro c hc
    obtain ⟨hmem, hcomma⟩ := Arguments.mem_of_mem_texts htext c hc
    rw [String.toList_ofList] at hmem
    refine ⟨(trim_sublist body).mem (hbody ▸ ?_), hcomma⟩
    exact List.mem_append_right _ (List.mem_cons_of_mem _ (List.mem_append_left _ hmem))

theorem isKey_of_mem (h : Denotes body name args) :
    ∀ entry ∈ args.keyword.entries, Token.IsKey entry.1.toList := by
  cases h with
  | bare => exact List.forall_mem_nil _
  | withParameters => exact fun entry hentry ↦ ((Arguments.bound_ofParameters _).key entry hentry).1

end Tag.Denotes

/-! ## Commands -/

namespace Command

/-- **The shape of a tag that was compiled.** -/
structure ShapedTag (name : String) (args : Arguments) : Prop where
  ne_empty : name ≠ ""
  ne_include : name ≠ Tag.includeName
  /-- Its name is one word that ends neither itself nor the tag. -/
  name_chars : ∀ c ∈ name.toList, isBlank c = false ∧ isControl c = false ∧ c ≠ '(' ∧ c ≠ '\x7d'
  /-- Nothing in its arguments divides them, ends the tag or is a control other than a tab. -/
  args_chars : ∀ text ∈ args.texts, ∀ c ∈ text.toList,
    c ≠ ',' ∧ c ≠ '\x7d' ∧ (isControl c = true → c = '\t')
  keys : ∀ entry ∈ args.keyword.entries, Token.IsKey entry.1.toList

/-- **The shape of a command that was compiled.** -/
def IsShaped : Command → Prop
  | .literal text => PrintableText text
  | .newline => True
  | .invoke name args => ShapedTag name args

variable {segments : List Segment} {raw : List Char}

theorem isShaped_literal {content : List Char} (h : Segment.Renders segments (clean raw))
    (hmem : .text content ∈ segments) : PrintableText (String.ofList content) := by
  obtain ⟨hne, hmark⟩ := h.of_mem_text hmem
  refine ⟨fun hempty ↦ hne (String.ofList_eq_empty_iff.mp hempty), ?_, ?_⟩
  · rwa [String.toList_ofList]
  · rw [String.toList_ofList]
    exact fun c hc ↦ isStripped_of_mem_clean (h.mem_of_mem_markup hmem c hc)

theorem isShaped_invoke {body : List Char} {tag : Tag} (h : Segment.Renders segments (clean raw))
    (hmem : .tag body ∈ segments) (htag : Tag.ofBody? body = some tag)
    (hname : tag.name ≠ Tag.includeName) : ShapedTag tag.name tag.args := by
  obtain ⟨hdenotes, hne, hword⟩ := Tag.ofBody?_eq_some_iff.mp ⟨tag.text, htag⟩
  have hbody (c : Char) (hc : c ∈ body) : c ≠ '\x7d' ∧ (isControl c = true → c = '\t') := by
    refine ⟨fun hclose ↦ h.not_mem_body hmem (hclose ▸ hc), isStripped_eq_false_iff.mp ?_⟩
    refine isStripped_of_mem_clean (h.mem_of_mem_markup hmem c ?_)
    simp [Segment.markup, hc]
  refine ⟨hne, hname, fun c hc ↦ ?_, fun text htext c hc ↦ ?_, hdenotes.isKey_of_mem⟩
  · obtain ⟨hmem, hparen⟩ := hdenotes.mem_of_mem_name c hc
    refine ⟨hword c hc, Bool.eq_false_iff.mpr fun hcontrol ↦ ?_, hparen, (hbody c hmem).1⟩
    -- A control in the line would be a tab, and that is a blank.
    have hblank := hword c hc
    rw [(hbody c hmem).2 hcontrol] at hblank
    exact absurd hblank (by decide)
  · obtain ⟨hmem, hcomma⟩ := hdenotes.mem_of_mem_texts htext c hc
    exact ⟨hcomma, hbody c hmem⟩

end Command

/-- What a piece of a line compiles to has that shape, if what includes stand for has it. -/
theorem Piece.Compiles.isShaped {includes : Tag → List Command → Prop} {piece : Piece}
    {part : List Command} {raw : List Char} (h : piece.Compiles includes part)
    (hpiece : piece ∈ ofLine raw)
    (hrenders : Segment.Renders (Segment.scan 1 (clean raw)) (clean raw))
    (hincludes : ∀ tag part, includes tag part → ∀ command ∈ part, command.IsShaped) :
    ∀ command ∈ part, command.IsShaped := by
  cases h with
  | text content =>
    have hmem := segment_mem_ofLine.mp hpiece
    exact List.forall_mem_singleton.mpr (Command.isShaped_literal hrenders hmem)
  | lineEnd => exact List.forall_mem_singleton.mpr trivial
  | invoke htag hname =>
    have hmem := segment_mem_ofLine.mp hpiece
    exact List.forall_mem_singleton.mpr (Command.isShaped_invoke hrenders hmem htag hname)
  | expand _ _ hpart => exact hincludes _ _ hpart

namespace Markup

variable {resources : Resources} {limit : ℕ} {source : String} {commands : List Command}

theorem isShaped_of_compile (h : (compile resources limit source).result = .ok commands) :
    ∀ command ∈ commands, command.IsShaped := by
  -- The files that are included have one level less.
  induction limit using Nat.strong_induction_on generalizing source commands with
  | _ limit ih =>
    have hincludes (tag : Tag) (part : List Command) (hpart : Includes resources limit tag.args part) :
        ∀ command ∈ part, command.IsShaped := by
      obtain ⟨file, others, deeper, path, bytes, -, rfl, -, -, hcompile⟩ := hpart
      exact ih deeper (Nat.lt_succ_self deeper) hcompile
    refine (result_compile_eq_ok.mp h).forall_mem fun piece hpiece part hpart ↦ ?_
    obtain ⟨raw, hraw, hpiece⟩ := List.mem_flatMap.mp hpiece
    exact hpart.isShaped hpiece (renders_of_compile h raw hraw) hincludes

end Markup

/-! ## Texts that are drawn -/

theorem mem_of_mem_withoutLineFeed {text : String} {c : Char}
    (h : c ∈ (withoutLineFeed text).toList) : c ∈ text.toList := by
  rw [withoutLineFeed] at h
  cases hbody : Machine.withoutLineFeed? text with
  | none => rwa [hbody] at h
  | some body =>
    rw [hbody] at h
    rw [Machine.withoutLineFeed?_eq_some.mp hbody, String.toList_append]
    exact List.mem_append_left _ h

/-- The text that a tag shows is one of its arguments, or there is none. -/
theorem Arguments.shown_mem_texts (args : Arguments) :
    (args.keyword.get? "line" <|> args.positional.head?).getD "" ∈ "" :: args.texts := by
  cases hkey : args.keyword.get? "line" with
  | some value =>
    obtain ⟨front, back, hsplit, -⟩ := List.lookup_eq_some_iff.mp hkey
    have hentry : ("line", value) ∈ args.keyword.entries :=
      hsplit ▸ List.mem_append_right _ List.mem_cons_self
    have hvalue : value ∈ args.keyword.entries.flatMap fun entry ↦ [entry.1, entry.2] :=
      List.mem_flatMap.mpr ⟨_, hentry, List.mem_cons_of_mem "line" (List.mem_singleton_self value)⟩
    exact List.mem_cons_of_mem _ (List.mem_append_right _ hvalue)
  | none =>
    cases hplace : args.positional.head? with
    | none => exact List.mem_cons_self
    | some value =>
      exact List.mem_cons_of_mem _ (List.mem_append_left _ (List.mem_of_mem_head? hplace))

/-- No text that shaped commands ask for holds a control other than a tab. -/
theorem eq_tab_of_mem_textsOf {commands : List Command} (h : ∀ command ∈ commands, command.IsShaped)
    {text : String} (htext : text ∈ textsOf commands) :
    ∀ c ∈ text.toList, isControl c = true → c = '\t' := by
  obtain ⟨asked, hasked, rfl⟩ := List.mem_map.mp (List.mem_of_mem_filter htext)
  obtain ⟨command, hcommand, hask⟩ := List.mem_filterMap.mp hasked
  intro c hc
  replace hc := mem_of_mem_withoutLineFeed hc
  have hshaped := h command hcommand
  cases command with
  | newline => cases hask
  | literal text =>
    obtain rfl := Option.some.inj hask
    exact isStripped_eq_false_iff.mp (hshaped.chars c hc)
  | invoke name args =>
    rw [Command.text?] at hask
    split at hask
    · obtain rfl := Option.some.inj hask
      rcases List.mem_cons.mp args.shown_mem_texts with hempty | hmem
      · rw [hempty] at hc
        cases hc
      · exact (hshaped.args_chars _ hmem c hc).2.2
    · cases hask

namespace Markup

/-- **The shape of compiled markup.** Whatever compiles, compiles to commands that have the shape of
text, tags and line ends as they can stand in a line. When they are carried out, on any canvas and
from any state, and whether or not one of them fails, all that happens to the canvas are calls, and
no text in them holds a line feed, nor any other control than a tab; nor does any text that they put
on record. -/
theorem compile_isShaped {resources : Resources} {limit : ℕ} {source : String}
    {commands : List Command} (h : (compile resources limit source).result = .ok commands) :
    (∀ command ∈ commands, command.IsShaped) ∧
      (∀ {C Output : Type} [Canvas C Output] (files : Resources) (m : Machine C), ∃ calls,
        (Machine.run files commands m).2.canvas = CanvasCall.performAll m.canvas calls ∧
        ∀ text ∈ calls.filterMap CanvasCall.text?,
          '\n' ∉ text.toList ∧ ∀ c ∈ text.toList, isControl c = true → c = '\t') ∧
      ∀ [Decoders] (files : Resources) (m : Machine Recorder), ∃ drawn,
        (Machine.run files commands m).2.canvas.texts = m.canvas.texts ++ drawn ∧
        ∀ text ∈ drawn,
          '\n' ∉ text.toList ∧ ∀ c ∈ text.toList, isControl c = true → c = '\t' := by
  have hshaped := isShaped_of_compile h
  have hline (text : String) (htext : text ∈ textsOf commands) :
      '\n' ∉ text.toList ∧ ∀ c ∈ text.toList, isControl c = true → c = '\t' := by
    have hchars := eq_tab_of_mem_textsOf hshaped htext
    exact ⟨fun hmem ↦ absurd (hchars _ hmem (by decide)) (by decide), hchars⟩
  refine ⟨hshaped, fun files m ↦ Machine.performs_run files hline m, fun files m ↦ ?_⟩
  obtain ⟨calls, hcanvas, htexts⟩ := Machine.performs_run files hline m
  exact ⟨_, by rw [hcanvas, Recorder.texts_performAll], htexts⟩

/-- A control in the text, a file, and a tag with two arguments. -/
theorem compile_isShaped_showLine :
    let commands : List Command :=
      [.literal "ab", .literal "y", .invoke "SHOWLINE" (.ofParameters "one,line=two"), .newline]
    (∀ command ∈ commands, command.IsShaped) ∧
      ∃ drawn, (Machine.run nestedFiles commands
          (Machine.blank (Recorder.new 595.28 841.89) {})).2.canvas.texts = drawn ∧
        ∀ text ∈ drawn, '\n' ∉ text.toList := by
  intro commands
  have hcompile : (compile nestedFiles 1
      "a\x07b\x7b$INCLUDE(b)\x7d\x7b$SHOWLINE( one , line= 'two' )\x7d\n").result
        = .ok commands := by
    decide +kernel
  obtain ⟨hshaped, -, hrecord⟩ := compile_isShaped hcompile
  obtain ⟨drawn, hdrawn, htexts⟩ :=
    hrecord nestedFiles (Machine.blank (Recorder.new 595.28 841.89) {})
  exact ⟨hshaped, drawn, hdrawn, fun text htext ↦ (htexts text htext).1⟩

end Markup

end ReportPress
