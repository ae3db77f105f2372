import Mathlib
import ReportPress.Proofs.Markup.Includes
import ReportPress.Proofs.Markup.Tag
import ReportPress.Proofs.Report.Recorded

/-!
# Compiling undoes printing

Commands that are printed one after the other compile to themselves. For this, what is printed has
to be read as it was meant: a text holds nothing that is cleaned away or opens a tag and does not
run into another text, a name and arguments hold nothing that ends them too early, and the arguments
are those that their own parameter text denotes (`Command.Printable`).

A printed line ends at its line feed, so the commands are taken apart at the line ends; between them
every command is one segment of the line.
-/

namespace ReportPress

open Text Markup

/-! ## Commands that can be printed -/

/-- All texts in arguments: the values and the keys. -/
def Arguments.texts (args : Arguments) : List String :=
  args.positional ++ args.keyword.entries.flatMap fun (key, value) ↦ [key, value]

namespace Command

/-- Whether a text can be printed. -/
structure PrintableText (text : String) : Prop where
  ne_empty : text ≠ ""
  /-- It opens no tag. -/
  not_opens : ¬openMark <:+: text.toList
  /-- Nothing in it is stripped. -/
  chars : ∀ c ∈ text.toList, isStripped c = false

/-- Whether a tag can be printed. -/
structure PrintableTag (name : String) (args : Arguments) : Prop where
  ne_empty : name ≠ ""
  ne_include : name ≠ Tag.includeName
  /-- The name is one word and ends neither itself nor the tag. -/
  name_chars : ∀ c ∈ name.toList, isBlank c = false ∧ isControl c = false ∧ c ≠ '(' ∧ c ≠ '\x7d'
  /-- Nothing in the arguments ends the tag or is stripped. -/
  args_chars : ∀ text ∈ args.texts, ∀ c ∈ text.toList, c ≠ '\x7d' ∧ isStripped c = false
  /-- The arguments are those of their own parameter text. -/
  parameters : .ofParameters args.toParameters = args

/-- Whether what a command holds can be printed. -/
def IsPrintable : Command → Prop
  | .literal text => PrintableText text
  | .newline => True
  | .invoke name args => PrintableTag name args

/-- Whether a command may stand right before another: a text not before a text, and not with a blank
at its end before a line end. -/
def MayPrecede : Command → Command → Prop
  | .literal _, .literal _ => False
  | .literal text, .newline => ∀ c ∈ text.toList.getLast?, isBlank c = false
  | _, _ => True

-- What is said of the characters of a text is decided by going through the text, and not by going
-- through all characters there are.
attribute [local instance (2000)] List.decidableBAll Option.decidableForallMem

instance (text : String) : Decidable (PrintableText text) :=
  decidable_of_iff
    (text ≠ "" ∧ ¬openMark <:+: text.toList ∧ ∀ c ∈ text.toList, isStripped c = false)
    ⟨fun ⟨h₁, h₂, h₃⟩ ↦ ⟨h₁, h₂, h₃⟩, fun ⟨h₁, h₂, h₃⟩ ↦ ⟨h₁, h₂, h₃⟩⟩

instance (name : String) (args : Arguments) : Decidable (PrintableTag name args) :=
  decidable_of_iff
    (name ≠ "" ∧ name ≠ Tag.includeName ∧
      (∀ c ∈ name.toList, isBlank c = false ∧ isControl c = false ∧ c ≠ '(' ∧ c ≠ '\x7d') ∧
      (∀ text ∈ args.texts, ∀ c ∈ text.toList, c ≠ '\x7d' ∧ isStripped c = false) ∧
      .ofParameters args.toParameters = args)
    ⟨fun ⟨h₁, h₂, h₃, h₄, h₅⟩ ↦ ⟨h₁, h₂, h₃, h₄, h₅⟩,
      fun ⟨h₁, h₂, h₃, h₄, h₅⟩ ↦ ⟨h₁, h₂, h₃, h₄, h₅⟩⟩

instance : DecidablePred IsPrintable
  | .literal text => inferInstanceAs (Decidable (PrintableText text))
  | .newline => .isTrue trivial
  | .invoke name args => inferInstanceAs (Decidable (PrintableTag name args))

instance : DecidableRel MayPrecede
  | .literal _, .literal _ => .isFalse id
  | .literal text, .newline => inferInstanceAs (Decidable (∀ c ∈ text.toList.getLast?, _))
  | .literal _, .invoke _ _ => .isTrue trivial
  | .newline, _ => .isTrue trivial
  | .invoke _ _, _ => .isTrue trivial

/-- **Whether commands can be printed.** What is printed last stands as before a line end. -/
structure Printable (commands : List Command) : Prop where
  each : ∀ command ∈ commands, command.IsPrintable
  chain : List.IsChain MayPrecede (commands ++ [.newline])

instance (commands : List Command) : Decidable (Printable commands) :=
  decidable_of_iff ((∀ command ∈ commands, command.IsPrintable) ∧
      List.IsChain MayPrecede (commands ++ [.newline]))
    ⟨fun h ↦ ⟨h.1, h.2⟩, fun h ↦ ⟨h.each, h.chain⟩⟩

def markupOf (commands : List Command) : String := String.join (commands.map Command.markup)

variable {front rest : List Command}

@[simp] theorem toList_markupOf (commands : List Command) :
    (markupOf commands).toList = commands.flatMap fun command ↦ command.markup.toList := by
  rw [markupOf, String.toList_join, List.flatMap_map]

theorem Printable.of_append (h : Printable (front ++ .newline :: rest)) :
    Printable front ∧ Printable rest := by
  have hsplit : front ++ .newline :: rest ++ [.newline]
      = (front ++ [.newline]) ++ (rest ++ [.newline]) := by simp
  have hchain := h.chain
  rw [hsplit, List.isChain_append] at hchain
  exact ⟨⟨fun command hcommand ↦ h.each command (List.mem_append_left _ hcommand), hchain.1⟩,
    ⟨fun command hcommand ↦
      h.each command (List.mem_append_right _ (List.mem_cons_of_mem _ hcommand)), hchain.2.1⟩⟩

/-! ## What a tag is printed as -/

theorem markup_invoke (name : String) (args : Arguments) :
    (invoke name args).markup.toList
      = '\x7b' :: '$' :: ((invoke name args).label.toList ++ ['\x7d']) := by
  simp [markup, show "\x7b$".toList = ['\x7b', '$'] from rfl, show "\x7d".toList = ['\x7d'] from rfl]

end Command

theorem Arguments.eq_none_of_isEmpty {args : Arguments} (h : args.isEmpty = true) : args = .none := by
  obtain ⟨positional, ⟨entries, sorted⟩⟩ := args
  obtain ⟨hpositional, hentries⟩ := Bool.and_eq_true_iff.mp h
  obtain rfl := List.isEmpty_iff.mp hpositional
  obtain rfl : entries = [] := List.isEmpty_iff.mp hentries
  rfl

theorem mem_of_mem_intercalate {c : Char} {separator : List Char} :
    ∀ {parts : List (List Char)}, c ∈ separator.intercalate parts →
      c ∈ separator ∨ ∃ part ∈ parts, c ∈ part
  | [], h => absurd h List.not_mem_nil
  | [part], h => .inr ⟨part, List.mem_singleton_self part, by simpa [List.intercalate] using h⟩
  | part :: other :: others, h => by
    rw [List.intercalate_cons_cons, List.mem_append, List.mem_append] at h
    rcases h with (hpart | hseparator) | hothers
    · exact .inr ⟨part, List.mem_cons_self, hpart⟩
    · exact .inl hseparator
    · rcases mem_of_mem_intercalate hothers with hseparator | ⟨found, hfound, hc⟩
      · exact .inl hseparator
      · exact .inr ⟨found, List.mem_cons_of_mem _ hfound, hc⟩

/-- A parameter text holds what the arguments hold, and separators, equals signs and quotation
marks. -/
theorem Arguments.forall_mem_toParameters {P : Char → Prop} {args : Arguments}
    (hmarks : P ',' ∧ P ' ' ∧ P '=' ∧ P '"') (h : ∀ text ∈ args.texts, ∀ c ∈ text.toList, P c) :
    ∀ c ∈ args.toParameters.toList, P c := by
  obtain ⟨hcomma, hspace, hequals, hquote⟩ := hmarks
  intro c hc
  rw [toParameters, String.toList_intercalate] at hc
  -- A character is in a separator, in a positional argument, or in one with a key.
  rcases mem_of_mem_intercalate hc with hseparator | ⟨part, hpart, hc⟩
  · have : c = ',' ∨ c = ' ' := by simpa [show ", ".toList = [',', ' '] from rfl] using hseparator
    rcases this with rfl | rfl
    · exact hcomma
    · exact hspace
  · obtain ⟨text, htext, rfl⟩ := List.mem_map.mp hpart
    rcases List.mem_append.mp htext with hpositional | hkeyword
    · obtain ⟨value, hvalue, rfl⟩ := List.mem_map.mp hpositional
      have hP := h value (List.mem_append_left _ hvalue)
      simp only [positionalText] at hc
      split at hc
      · have : c = '"' ∨ c ∈ value.toList := by
          simpa [or_comm, show "\x22".toList = ['"'] from rfl] using hc
        rcases this with rfl | hc
        · exact hquote
        · exact hP c hc
      · exact hP c hc
    · obtain ⟨⟨key, value⟩, hentry, rfl⟩ := List.mem_map.mp hkeyword
      have hmem (text : String) (htext : text ∈ [key, value]) : text ∈ args.texts :=
        List.mem_append_right _ (List.mem_flatMap.mpr ⟨(key, value), hentry, htext⟩)
      have : c ∈ key.toList ∨ c = '=' ∨ c ∈ value.toList := by
        simpa [keywordText, show "=".toList = ['='] from rfl] using hc
      rcases this with hc | rfl | hc
      · exact h key (hmem key (by simp)) c hc
      · exact hequals
      · exact h value (hmem value (by simp)) c hc

namespace Command

variable {commands front : List Command} {name : String} {args : Arguments}

theorem toList_label_invoke (name : String) (args : Arguments) :
    (invoke name args).label.toList = if args.isEmpty then name.toList
      else name.toList ++ '(' :: (args.toParameters.toList ++ [')']) := by
  rw [label]
  split <;> simp [show "(".toList = ['('] from rfl, show ")".toList = [')'] from rfl]

/-- Nothing in the body of a printed tag ends it too early or is cleaned away. -/
theorem PrintableTag.forall_mem_label (h : PrintableTag name args) :
    ∀ c ∈ (invoke name args).label.toList, c ≠ '\x7d' ∧ isStripped c = false := by
  have hnameChar : ∀ c ∈ name.toList, c ≠ '\x7d' ∧ isStripped c = false := by
    intro c hc
    obtain ⟨-, hcontrol, -, hclose⟩ := h.name_chars c hc
    exact ⟨hclose, by simp [isStripped, hcontrol]⟩
  have hparameters := Arguments.forall_mem_toParameters
    (P := fun c ↦ c ≠ '\x7d' ∧ isStripped c = false) (by decide) h.args_chars
  rw [toList_label_invoke]
  split
  · exact hnameChar
  · intro c hc
    simp only [List.mem_append, List.mem_cons, List.not_mem_nil, or_false] at hc
    rcases hc with hc | rfl | hc | rfl
    · exact hnameChar c hc
    · decide
    · exact hparameters c hc
    · decide

theorem PrintableTag.isBlank_eq_false (h : PrintableTag name args) :
    ∀ c ∈ name.toList, isBlank c = false := fun c hc ↦ (h.name_chars c hc).1

theorem PrintableTag.denotes (h : PrintableTag name args) :
    Tag.Denotes (invoke name args).label.toList name args := by
  have hword := h.isBlank_eq_false
  have hopen : '(' ∉ name.toList := by
    intro hmem
    obtain ⟨-, -, hne, -⟩ := h.name_chars _ hmem
    exact hne rfl
  have hhead (c : Char) (hc : name.toList.head? = some c) : isBlank c = false :=
    hword c (List.mem_of_mem_head? hc)
  have htrim : trim name.toList = name.toList :=
    trim_eq_self hhead fun c hc ↦ hword c (List.mem_of_getLast? hc)
  rw [toList_label_invoke]
  split
  · rename_i hempty
    obtain rfl := Arguments.eq_none_of_isEmpty hempty
    have hbare := Tag.Denotes.bare (htrim.symm ▸ hopen)
    rwa [htrim, String.ofList_toList] at hbare
  -- Neither end of the body is blank: it begins like the name and ends in the parenthesis.
  · have hbody : trim (name.toList ++ '(' :: (args.toParameters.toList ++ [')']))
        = name.toList ++ '(' :: (args.toParameters.toList ++ [')']) := by
      refine trim_eq_self (fun c hc ↦ hhead c ?_) (fun c hc ↦ ?_)
      · rwa [List.head?_append_of_ne_nil _ (String.toList_eq_nil_iff.not.mpr h.ne_empty)] at hc
      · rw [← List.cons_append, ← List.append_assoc, List.getLast?_concat] at hc
        obtain rfl := Option.some.inj hc
        decide
    have hwith := Tag.Denotes.withParameters hopen hbody
    rwa [htrim, String.ofList_toList, String.ofList_toList, h.parameters] at hwith

/-! ## Lines of commands -/

def piece : Command → Piece
  | .literal text => .segment (.text text.toList)
  | .newline => .lineEnd
  | .invoke name args => .segment (.tag (invoke name args).label.toList)

theorem IsPrintable.compiles {command : Command} {includes : Tag → List Command → Prop}
    (h : command.IsPrintable) : command.piece.Compiles includes [command] := by
  cases command with
  | literal text =>
    have htext := @Piece.Compiles.text includes text.toList
    rwa [String.ofList_toList] at htext
  | newline => exact .lineEnd
  | invoke name args =>
    replace h : PrintableTag name args := h
    obtain ⟨text, htag⟩ :=
      Tag.ofBody?_eq_some_iff.mpr ⟨h.denotes, h.ne_empty, h.isBlank_eq_false⟩
    exact .invoke htag h.ne_include

theorem exists_renders (hline : newline ∉ front) (heach : ∀ command ∈ front, command.IsPrintable)
    (hchain : List.IsChain MayPrecede front) :
    ∃ segments, segments.map Piece.segment = front.map piece ∧
      Segment.Renders segments (markupOf front).toList := by
  rw [toList_markupOf]
  induction front with
  | nil => exact ⟨[], rfl, .text (show ¬openMark <:+: [] by decide)⟩
  | cons command rest ih =>
    rw [List.mem_cons, not_or] at hline
    obtain ⟨hcommand, hrest⟩ := List.forall_mem_cons.mp heach
    obtain ⟨segments, hsegments, hrenders⟩ := ih hline.2 hrest hchain.tail
    rw [List.flatMap_cons]
    cases command with
    | newline => exact absurd rfl hline.1
    | invoke name args =>
      refine ⟨_ :: segments, by rw [List.map_cons, List.map_cons, hsegments, piece], ?_⟩
      rw [markup_invoke, List.cons_append, List.cons_append, List.append_assoc]
      exact hrenders.cons_tag fun hmem ↦
        (PrintableTag.forall_mem_label hcommand _ hmem).1 rfl
    | literal text =>
      replace hcommand : PrintableText text := hcommand
      refine ⟨_ :: segments, by rw [List.map_cons, List.map_cons, hsegments, piece], ?_⟩
      refine hrenders.cons_text (String.toList_eq_nil_iff.not.mpr hcommand.ne_empty)
        hcommand.not_opens fun other hother ↦ ?_
      -- Text before text would be one text, which `MayPrecede` rules out.
      obtain ⟨tail, rfl⟩ := List.head?_eq_some_iff.mp hother
      cases rest with
      | nil => cases hsegments
      | cons next rest =>
        have hnext := (List.cons.inj hsegments).1
        have hprecede := (List.isChain_cons_cons.mp hchain).1
        cases next with
        | literal => exact hprecede
        | newline => cases hnext
        | invoke => cases hnext

/-- A printed command holds nothing that is stripped, unless it is a line end. -/
theorem IsPrintable.forall_mem_markup {command : Command} (h : command.IsPrintable)
    (hne : command ≠ .newline) : ∀ c ∈ command.markup.toList, isStripped c = false := by
  cases command with
  | literal text => exact PrintableText.chars h
  | newline => exact absurd rfl hne
  | invoke name args =>
    intro c hc
    simp only [markup_invoke, List.mem_cons, List.mem_append, List.not_mem_nil, or_false] at hc
    rcases hc with rfl | rfl | hc | rfl
    · decide
    · decide
    · exact (PrintableTag.forall_mem_label h c hc).2
    · decide

/-- A printed command before a line end does not end in a blank. -/
theorem IsPrintable.getLast?_markup {command : Command} (h : command.IsPrintable)
    (hprecede : MayPrecede command .newline) (hne : command ≠ .newline) :
    ∃ c, command.markup.toList.getLast? = some c ∧ isBlank c = false := by
  cases command with
  | literal text =>
    have htext : text.toList ≠ [] := String.toList_eq_nil_iff.not.mpr (PrintableText.ne_empty h)
    exact ⟨_, List.getLast?_eq_some_getLast htext,
      hprecede _ (List.getLast?_eq_some_getLast htext)⟩
  | newline => exact absurd rfl hne
  | invoke name args =>
    refine ⟨'\x7d', ?_, by decide⟩
    rw [markup_invoke, ← List.cons_append, ← List.cons_append, List.getLast?_concat]

section Line

variable (h : Printable front) (hline : newline ∉ front)

include h hline

theorem Printable.forall_mem_markupOf : ∀ c ∈ (markupOf front).toList, isStripped c = false := by
  intro c hc
  rw [toList_markupOf] at hc
  obtain ⟨command, hcommand, hc⟩ := List.mem_flatMap.mp hc
  exact (h.each command hcommand).forall_mem_markup (fun heq ↦ hline (heq ▸ hcommand)) c hc

theorem Printable.clean_markupOf : clean (markupOf front).toList = (markupOf front).toList := by
  refine clean_eq_self (h.forall_mem_markupOf hline) fun c hc ↦ ?_
  rcases List.eq_nil_or_concat front with rfl | ⟨init, last, rfl⟩
  · cases hc
  · rw [List.concat_eq_append] at *
    have hmem : last ∈ init ++ [last] := List.mem_append_right _ (List.mem_singleton_self last)
    have hprecede := (List.isChain_append.mp h.chain).2.2 last List.getLast?_concat .newline rfl
    obtain ⟨d, hd, hblank⟩ := (h.each last hmem).getLast?_markup hprecede fun heq ↦
      hline (heq ▸ hmem)
    rw [toList_markupOf, List.flatMap_append, List.flatMap_singleton, List.getLast?_append, hd]
      at hc
    exact Option.some.inj hc ▸ hblank

theorem Printable.scan_markupOf :
    (Segment.scan 1 (clean (markupOf front).toList)).map Piece.segment = front.map piece := by
  obtain ⟨segments, hsegments, hrenders⟩ :=
    exists_renders hline h.each (List.isChain_append.mp h.chain).1
  rw [h.clean_markupOf hline, hrenders.scan_eq, hsegments]

theorem Printable.not_mem_markupOf : '\n' ∉ (markupOf front).toList := by
  intro hmem
  exact absurd (h.forall_mem_markupOf hline _ hmem) (by decide)

end Line

/-- **Printed commands are read piece by piece.** -/
theorem Printable.ofLines_markupOf (h : Printable commands) :
    Piece.ofLines (lines (markupOf commands).toList) = commands.map piece := by
  -- By induction on the number of commands, which are taken apart at the first line end.
  induction hlength : commands.length using Nat.strong_induction_on generalizing commands with
  | _ n ih =>
    by_cases hmem : newline ∈ commands
    · obtain ⟨front, rest, rfl, hline⟩ := List.eq_append_cons_of_mem hmem
      obtain ⟨hfront, hrest⟩ := h.of_append
      have hlines : lines (markupOf (front ++ newline :: rest)).toList
          = ((markupOf front).toList ++ ['\n']) :: lines (markupOf rest).toList := by
        rw [← lines_append_lineFeed (hfront.not_mem_markupOf hline)]
        simp [markup, show "\n".toList = ['\n'] from rfl]
      have hshorter : rest.length < n := by
        rw [← hlength, List.length_append, List.length_cons]
        omega
      have hrestLines := ih rest.length hshorter hrest rfl
      rw [hlines, Piece.ofLines, List.flatMap_cons, ← Piece.ofLines, hrestLines, Piece.ofLine,
        clean_concat_lineFeed, hfront.scan_markupOf hline, Piece.lineEnd?, List.getLast?_concat,
        if_pos rfl, List.map_append, List.map_cons, List.append_assoc]
      rfl
    · have hscan := h.scan_markupOf hmem
      have hfeed := h.not_mem_markupOf hmem
      by_cases hempty : (markupOf commands).toList = []
      · have hnil : Segment.scan 1 (clean []) = [] :=
          Segment.scan_eq_ofText (show ¬openMark <:+: [] by decide) 1
        rw [hempty, hnil] at hscan
        rw [hempty]
        exact hscan
      · have hlast : (markupOf commands).toList.getLast? ≠ some '\n' := fun hlast ↦
          hfeed (List.mem_of_getLast? hlast)
        rw [lines_eq_singleton hfeed hempty, Piece.ofLines, List.flatMap_singleton, Piece.ofLine,
          hscan, Piece.lineEnd?, if_neg hlast, List.append_nil]

end Command

/-- **Compiling undoes printing.** -/
theorem Markup.compile_markupOf {resources : Resources} {limit : ℕ} {commands : List Command}
    (h : Command.Printable commands) :
    (compile resources limit (Command.markupOf commands)).result = .ok commands := by
  rw [result_compile_eq_ok, h.ofLines_markupOf, Assembles.map_iff]
  exact Assembles.self fun command hcommand ↦ (h.each command hcommand).compiles

theorem Markup.compile_markupOf_two_lines :
    (compile .empty 0 "\x7b\x7b$PIC(\x22a=b\x22, imgwidth=10)\x7d \x7d\n\x7b$LEND\x7d").result = .ok
      [.literal "\x7b", .invoke "PIC" ⟨["a=b"], .ofList [("imgwidth", "10")]⟩, .literal " \x7d",
        .newline, .invoke "LEND" .none] := by
  have hprinted : Command.markupOf
      [.literal "\x7b", .invoke "PIC" ⟨["a=b"], .ofList [("imgwidth", "10")]⟩, .literal " \x7d",
        .newline, .invoke "LEND" .none]
      = "\x7b\x7b$PIC(\x22a=b\x22, imgwidth=10)\x7d \x7d\n\x7b$LEND\x7d" := by decide +kernel
  rw [← hprinted]
  exact compile_markupOf (by decide +kernel)

end ReportPress
