import Mathlib
import ReportPress.Markup.Line
import ReportPress.Proofs.Text.Cut
import ReportPress.Proofs.Text.Trim

/-!
# What lines and segments are

Cutting a text into lines loses nothing, and a line ends at the first line feed. Reading a line as
segments loses nothing either: the segments of a line without an unclosed mark are the only ones
that make up the line, given that text holds no opening mark and does not come in two pieces, and
that a tag holds no closing brace. The relation `Renders` says this, and `scan_eq_iff` that it is
what the scanner computes. With an unclosed mark the segments still have their place: what stands
before a segment in the line is what the segments before it make up (`exists_renders_of_scan`).
-/

namespace ReportPress.Markup

open Text

/-! ## Lines -/

section Lines

variable {c : Char} {front rest cs raw : List Char}

theorem lines_lineFeed (rest : List Char) : lines ('\n' :: rest) = ['\n'] :: lines rest := by
  show consLines '\n' (lines rest) = _
  cases lines rest <;> rfl

theorem lines_append_lineFeed (h : '\n' ∉ front) :
    lines (front ++ '\n' :: rest) = (front ++ ['\n']) :: lines rest := by
  induction front with
  | nil => exact lines_lineFeed rest
  | cons c front ih =>
    rw [List.mem_cons, not_or] at h
    obtain ⟨hc, hfront⟩ := h
    show consLines c (lines (front ++ '\n' :: rest)) = _
    rw [ih hfront, consLines, if_neg (Ne.symm hc)]
    rfl

theorem lines_eq_singleton (h : '\n' ∉ cs) (hne : cs ≠ []) : lines cs = [cs] := by
  induction cs with
  | nil => exact absurd rfl hne
  | cons c cs ih =>
    rw [List.mem_cons, not_or] at h
    obtain ⟨hc, hcs⟩ := h
    show consLines c (lines cs) = _
    rcases eq_or_ne cs [] with rfl | hrest
    · rfl
    · rw [ih hcs hrest, consLines, if_neg (Ne.symm hc)]

/-- A character that ends no line goes in front of the first line, if there is one. -/
theorem lines_cons_of_ne (h : c ≠ '\n') (cs : List Char) :
    lines (c :: cs) = (c :: (lines cs).head?.getD []) :: (lines cs).tail := by
  show consLines c (lines cs) = _
  cases lines cs with
  | nil => rfl
  | cons first others => exact if_neg h

/-- A line feed is the last character of its line. -/
theorem getLast?_of_lineFeed_mem (hraw : raw ∈ lines cs) (h : '\n' ∈ raw) :
    raw.getLast? = some '\n' := by
  induction cs generalizing raw with
  | nil => cases hraw
  | cons c cs ih =>
    by_cases hc : c = '\n'
    · rw [hc, lines_lineFeed, List.mem_cons] at hraw
      rcases hraw with rfl | hraw
      · rfl
      · exact ih hraw h
    · rw [lines_cons_of_ne hc] at hraw
      -- A character that ends no line goes in front of the first line, or makes one.
      cases hlines : lines cs with
      | nil =>
        rw [hlines] at hraw
        obtain rfl := List.mem_singleton.mp hraw
        exact absurd (List.mem_singleton.mp h).symm hc
      | cons first others =>
        rw [hlines] at hraw ih
        rcases List.mem_cons.mp hraw with rfl | hraw
        · have hfirst : '\n' ∈ first := (List.mem_cons.mp h).resolve_left (Ne.symm hc)
          have hlast := ih List.mem_cons_self hfirst
          rw [List.head?_cons, Option.getD_some, List.getLast?_cons, hlast]
          rfl
        · exact ih (List.mem_cons_of_mem first hraw) h

/-- **Lines are the text.** -/
theorem flatten_lines (cs : List Char) : (lines cs).flatten = cs := by
  induction cs with
  | nil => rfl
  | cons c cs ih =>
    show (consLines c (lines cs)).flatten = _
    cases hlines : lines cs with
    | nil =>
      rw [hlines] at ih
      simp [consLines, ← ih]
    | cons first others =>
      rw [hlines] at ih
      rw [consLines]
      split
      · rw [List.flatten_cons, ih, ‹c = '\n'›, List.singleton_append]
      · rw [List.flatten_cons, List.cons_append, ← List.flatten_cons, ih]

theorem lines_append (h : ∀ c ∈ front.getLast?, c = '\n') (rest : List Char) :
    lines (front ++ rest) = lines front ++ lines rest := by
  induction front with
  | nil => rfl
  | cons c front ih =>
    rcases eq_or_ne front [] with rfl | hfront
    · obtain rfl := h c rfl
      exact lines_lineFeed rest
    · rw [List.getLast?_cons_of_ne_nil hfront] at h
      show consLines c (lines (front ++ rest)) = consLines c (lines front) ++ lines rest
      rw [ih h]
      cases hlines : lines front with
      | nil => exact absurd (flatten_lines front) (by rw [hlines]; exact Ne.symm hfront)
      | cons first others =>
        rw [List.cons_append, consLines, consLines]
        split <;> rfl

end Lines

/-! ## Cleaning -/

theorem clean_concat_lineFeed (cs : List Char) : clean (cs ++ ['\n']) = clean cs := by
  rw [clean, clean, List.filter_append, show List.filter _ ['\n'] = [] from rfl, List.append_nil]

theorem clean_eq_self {cs : List Char} (h : ∀ c ∈ cs, isStripped c = false)
    (hend : ∀ c, cs.getLast? = some c → isBlank c = false) : clean cs = cs := by
  rw [clean, List.filter_eq_self.mpr fun c hc ↦ by rw [h c hc]; rfl]
  exact trimEnd_eq_self hend

/-! ## Segments -/

def openMark : List Char := ['\x7b', '$']

namespace Segment

variable {cs before body : List Char} {segments : List Segment}

theorem not_openMark_infix_cons {c : Char} :
    ¬openMark <:+: c :: cs ↔ ¬openMark <+: c :: cs ∧ ¬openMark <:+: cs := by
  rw [List.infix_cons_iff, not_or]

theorem openMark_prefix_cons {c : Char} :
    openMark <+: c :: cs ↔ c = '\x7b' ∧ ∃ rest, cs = '$' :: rest := by
  constructor
  · rintro ⟨rest, hrest⟩
    obtain ⟨rfl, rfl⟩ := List.cons.inj hrest
    exact ⟨rfl, rest, rfl⟩
  · rintro ⟨rfl, rest, rfl⟩
    exact ⟨rest, rfl⟩

theorem breakOpen_cons {c : Char} (h : ¬openMark <+: c :: cs) :
    breakOpen (c :: cs) = (c :: (breakOpen cs).1, (breakOpen cs).2) := by
  rw [openMark_prefix_cons] at h
  rw [breakOpen]
  rintro rest rfl rfl
  exact h ⟨rfl, rest, rfl⟩

theorem breakOpen_eq_self (h : ¬openMark <:+: cs) : breakOpen cs = (cs, none) := by
  induction cs with
  | nil => rfl
  | cons c cs ih =>
    obtain ⟨hstart, hnone⟩ := not_openMark_infix_cons.mp h
    rw [breakOpen_cons hstart, ih hnone]

theorem breakOpen_append (h : ¬openMark <:+: before) (rest : List Char) :
    breakOpen (before ++ '\x7b' :: '$' :: rest) = (before, some rest) := by
  induction before with
  | nil => rfl
  | cons c before ih =>
    obtain ⟨hstart, hnone⟩ := not_openMark_infix_cons.mp h
    -- The mark cannot begin with the last character of `before`: it would go on with a brace.
    have hcons : ¬openMark <+: c :: (before ++ '\x7b' :: '$' :: rest) := by
      rw [openMark_prefix_cons] at hstart ⊢
      rintro ⟨rfl, tail, htail⟩
      cases before with
      | nil => cases htail
      | cons d before => exact hstart ⟨rfl, before, by rw [(List.cons.inj htail).1]⟩
    rw [List.cons_append, breakOpen_cons hcons, ih hnone]

/-- What stands before the first opening mark, and what is left. -/
theorem breakOpen_cases (cs : List Char) :
    (breakOpen cs = (cs, none) ∧ ¬openMark <:+: cs) ∨
      ∃ before rest, breakOpen cs = (before, some rest) ∧ cs = before ++ '\x7b' :: '$' :: rest ∧
        ¬openMark <:+: before := by
  induction cs with
  | nil => exact .inl ⟨rfl, by decide⟩
  | cons c cs ih =>
    by_cases hstart : openMark <+: c :: cs
    · obtain ⟨rfl, rest, rfl⟩ := openMark_prefix_cons.mp hstart
      exact .inr ⟨[], rest, rfl, rfl, by decide⟩
    · rw [breakOpen_cons hstart]
      rcases ih with ⟨hbreak, hnone⟩ | ⟨before, rest, hbreak, rfl, hnone⟩
      · rw [hbreak]
        exact .inl ⟨rfl, not_openMark_infix_cons.mpr ⟨hstart, hnone⟩⟩
      · rw [hbreak]
        refine .inr ⟨c :: before, rest, rfl, rfl, not_openMark_infix_cons.mpr ⟨?_, hnone⟩⟩
        exact fun hmark ↦ hstart (hmark.trans (List.prefix_append (c :: before) _))

/-- **What segments a line is made of.** -/
inductive Renders : List Segment → List Char → Prop
  /-- Text to the end of the line. -/
  | text {content : List Char} (hcontent : ¬openMark <:+: content) : Renders (ofText content) content
  /-- Text before a tag, and what comes after the tag. -/
  | tag {before body after : List Char} {segments : List Segment}
      (hbefore : ¬openMark <:+: before) (hbody : '\x7d' ∉ body) (hafter : Renders segments after) :
      Renders (ofText before ++ .tag body :: segments)
        (before ++ '\x7b' :: '$' :: (body ++ '\x7d' :: after))

theorem scan_of_breakOpen_eq_none (h : breakOpen cs = (before, none)) (column : ℕ) :
    scan column cs = ofText before := by
  rw [scan]
  split
  · obtain ⟨rfl, -⟩ := Prod.ext_iff.mp (h.symm.trans ‹_›)
    rfl
  · cases h.symm.trans ‹_›

theorem scan_of_breakOpen_eq_some {rest : List Char} (h : breakOpen cs = (before, some rest))
    (column : ℕ) :
    scan column cs = ofText before ++
      match rest.dropWhile (· ≠ '\x7d') with
      | [] => [.unclosed (column + before.length)]
      | _ :: after =>
        .tag (rest.takeWhile (· ≠ '\x7d')) ::
          scan (column + before.length + 2 + (rest.takeWhile (· ≠ '\x7d')).length + 1) after := by
  rw [scan]
  split
  · cases h.symm.trans ‹_›
  · obtain ⟨rfl, hrest⟩ := Prod.ext_iff.mp (h.symm.trans ‹_›)
    obtain rfl := Option.some.inj hrest
    split
    · rename_i hclose
      rw [hclose]
    · rename_i hclose
      rw [hclose]

theorem scan_eq_ofText (h : ¬openMark <:+: cs) (column : ℕ) : scan column cs = ofText cs :=
  scan_of_breakOpen_eq_none (breakOpen_eq_self h) column

theorem scan_append (h : ¬openMark <:+: before) (hbody : '\x7d' ∉ body) (after : List Char)
    (column : ℕ) :
    scan column (before ++ '\x7b' :: '$' :: (body ++ '\x7d' :: after))
      = ofText before ++ .tag body ::
          scan (column + before.length + 2 + body.length + 1) after := by
  rw [scan_of_breakOpen_eq_some (breakOpen_append h _), dropWhile_ne_append hbody,
    takeWhile_ne_append hbody]

theorem scan_unclosed {rest : List Char} (h : ¬openMark <:+: before) (hrest : '\x7d' ∉ rest)
    (column : ℕ) :
    scan column (before ++ '\x7b' :: '$' :: rest)
      = ofText before ++ [.unclosed (column + before.length)] := by
  rw [scan_of_breakOpen_eq_some (breakOpen_append h _), dropWhile_ne_of_not_mem hrest]

theorem scan_openMark_unclosed {rest : List Char} (hrest : '\x7d' ∉ rest) (column : ℕ) :
    scan column ('\x7b' :: '$' :: rest) = [.unclosed column] :=
  scan_unclosed (show ¬openMark <:+: [] by decide) hrest column

theorem scan_openMark_tag (hbody : '\x7d' ∉ body) (after : List Char) (column : ℕ) :
    scan column ('\x7b' :: '$' :: (body ++ '\x7d' :: after))
      = .tag body :: scan (column + 2 + body.length + 1) after :=
  scan_append (show ¬openMark <:+: [] by decide) hbody after column

/-- What is made up of segments is read first, and a mark behind it from its own column. -/
theorem Renders.scan_mark {front : List Char} (h : Renders segments front) (column : ℕ)
    (rest : List Char) :
    scan column (front ++ '\x7b' :: '$' :: rest)
      = segments ++ scan (column + front.length) ('\x7b' :: '$' :: rest) := by
  induction h generalizing column with
  | @text content hcontent =>
    by_cases hclosed : '\x7d' ∈ rest
    · obtain ⟨body, after, rfl, hbody⟩ := List.eq_append_cons_of_mem hclosed
      rw [scan_append hcontent hbody, scan_openMark_tag hbody]
    · rw [scan_unclosed hcontent hclosed, scan_openMark_unclosed hclosed]
  | @tag before body after segments hbefore hbody hafter ih =>
    have hcons : before ++ '\x7b' :: '$' :: (body ++ '\x7d' :: after) ++ '\x7b' :: '$' :: rest
        = before ++ '\x7b' :: '$' :: (body ++ '\x7d' :: (after ++ '\x7b' :: '$' :: rest)) := by
      simp
    have hcolumn : column + before.length + 2 + body.length + 1 + after.length
        = column + (before ++ '\x7b' :: '$' :: (body ++ '\x7d' :: after)).length := by
      simp only [List.length_append, List.length_cons]
      omega
    rw [hcons, scan_append hbefore hbody, ih, hcolumn, List.append_assoc, List.cons_append]

theorem Renders.scan_eq (h : Renders segments cs) (column : ℕ) : scan column cs = segments := by
  induction h generalizing column with
  | text hcontent => exact scan_eq_ofText hcontent column
  | tag hbefore hbody _ ih => rw [scan_append hbefore hbody, ih]

theorem renders_scan (column : ℕ) (cs : List Char)
    (h : ∀ other, .unclosed other ∉ scan column cs) : Renders (scan column cs) cs := by
  fun_induction scan column cs with
  | case1 column cs before hopen =>
    rcases breakOpen_cases cs with ⟨hbreak, hnone⟩ | ⟨other, rest, hbreak, -⟩
    · obtain ⟨rfl, -⟩ := Prod.ext_iff.mp (hopen.symm.trans hbreak)
      exact .text hnone
    · cases hopen.symm.trans hbreak
  | case2 => exact absurd (List.mem_append_right _ (List.mem_singleton_self _)) (h _)
  | case3 column cs before rest hopen body close after hclose ih =>
    have hafter : Renders (scan _ after) after := ih fun other hother ↦
      h other (List.mem_append_right _ (List.mem_cons_of_mem _ hother))
    rcases breakOpen_cases cs with ⟨hbreak, -⟩ | ⟨front, tail, hbreak, rfl, hnone⟩
    · cases hopen.symm.trans hbreak
    · obtain ⟨rfl, htail⟩ := Prod.ext_iff.mp (hbreak.symm.trans hopen)
      obtain rfl := Option.some.inj htail
      obtain ⟨hbody, hrest⟩ := eq_append_of_dropWhile_ne hclose
      rw [hrest]
      exact .tag hnone hbody hafter

/-- Text may stand before segments that do not begin with text. -/
theorem Renders.cons_text {content : List Char} (h : Renders segments cs) (hne : content ≠ [])
    (hcontent : ¬openMark <:+: content) (hnext : ∀ other, segments.head? ≠ some (.text other)) :
    Renders (.text content :: segments) (content ++ cs) := by
  have hself : ofText content = [.text content] := by
    cases content with
    | nil => exact absurd rfl hne
    | cons => rfl
  cases h with
  | text =>
    cases cs with
    | nil =>
      rw [List.append_nil]
      exact hself ▸ .text hcontent
    | cons c other => exact absurd rfl (hnext (c :: other))
  | @tag before body after segments hbefore hbody hafter =>
    cases before with
    | nil =>
      have htag := Renders.tag hcontent hbody hafter
      rwa [hself] at htag
    | cons c before => exact absurd rfl (hnext (c :: before))

theorem Renders.cons_tag (h : Renders segments cs) (hbody : '\x7d' ∉ body) :
    Renders (.tag body :: segments) ('\x7b' :: '$' :: (body ++ '\x7d' :: cs)) :=
  .tag (show ¬openMark <:+: [] by decide) hbody h

/-- **The segments of a line are those that make it up.** -/
theorem scan_eq_iff (h : ∀ other, .unclosed other ∉ segments) {column : ℕ} :
    scan column cs = segments ↔ Renders segments cs := by
  constructor
  · rintro rfl
    exact renders_scan column cs h
  · exact fun hrenders ↦ hrenders.scan_eq column

/-! ### Segments in their line -/

theorem eq_text_of_mem_ofText {content : List Char} {s : Segment} (h : s ∈ ofText content) :
    s = .text content := by
  cases content with
  | nil => cases h
  | cons => exact List.mem_singleton.mp h

/-- A segment that is no text is the first behind some text, or it stands further back. -/
theorem eq_or_of_ofText_append {content : List Char} {first s : Segment}
    {others before after : List Segment} (hs : ∀ content, s ≠ .text content)
    (h : ofText content ++ first :: others = before ++ s :: after) :
    (before = ofText content ∧ s = first ∧ after = others) ∨
      ∃ middle, before = ofText content ++ first :: middle ∧ others = middle ++ s :: after := by
  rcases List.append_eq_append_iff.mp h with ⟨middle, rfl, htail⟩ | ⟨middle, hfront, htail⟩
  · cases middle with
    | nil =>
      obtain ⟨rfl, rfl⟩ := List.cons.inj htail
      exact .inl ⟨List.append_nil _, rfl, rfl⟩
    | cons second middle =>
      obtain ⟨rfl, rfl⟩ := List.cons.inj htail
      exact .inr ⟨middle, rfl, rfl⟩
  · cases middle with
    | nil =>
      obtain ⟨rfl, rfl⟩ := List.cons.inj htail
      exact .inl ⟨by rw [hfront, List.append_nil], rfl, rfl⟩
    | cons second middle =>
      -- The segment would be the text itself.
      obtain ⟨rfl, -⟩ := List.cons.inj htail
      have hmem : s ∈ ofText content := hfront ▸ List.mem_append_right before List.mem_cons_self
      exact absurd (eq_text_of_mem_ofText hmem) (hs content)

/-- What stands before a segment that is no text is made up of the segments before it. -/
theorem exists_renders_of_scan {column : ℕ} {cs : List Char} {s : Segment}
    {before after : List Segment} (hs : ∀ content, s ≠ .text content)
    (h : scan column cs = before ++ s :: after) :
    ∃ front rest, Renders before front ∧ cs = front ++ '\x7b' :: '$' :: rest ∧
      scan (column + front.length) ('\x7b' :: '$' :: rest) = s :: after := by
  have hback {front rest : List Char} (hrenders : Renders before front)
      (hcs : cs = front ++ '\x7b' :: '$' :: rest) :
      scan (column + front.length) ('\x7b' :: '$' :: rest) = s :: after := by
    rw [hcs, hrenders.scan_mark] at h
    exact List.append_cancel_left h
  suffices hfront : ∃ front rest, Renders before front ∧ cs = front ++ '\x7b' :: '$' :: rest by
    obtain ⟨front, rest, hrenders, hcs⟩ := hfront
    exact ⟨front, rest, hrenders, hcs, hback hrenders hcs⟩
  -- By induction along the scan. What follows the segment takes no part in it.
  clear hback
  fun_induction scan column cs generalizing before with
  | case1 column cs content hopen =>
    have hmem : s ∈ ofText content := h ▸ List.mem_append_right before List.mem_cons_self
    exact absurd (eq_text_of_mem_ofText hmem) (hs content)
  | case2 column cs content rest hopen hclose =>
    rcases breakOpen_cases cs with ⟨hbreak, -⟩ | ⟨front, tail, hbreak, rfl, hnone⟩
    · cases hopen.symm.trans hbreak
    · obtain ⟨rfl, -⟩ := Prod.ext_iff.mp (hbreak.symm.trans hopen)
      rcases eq_or_of_ofText_append hs h with ⟨rfl, -⟩ | ⟨middle, -, hmiddle⟩
      · exact ⟨front, tail, .text hnone, rfl⟩
      · cases middle <;> cases hmiddle
  | case3 column cs content rest hopen body close tail hclose =>
    rename_i ih
    rcases breakOpen_cases cs with ⟨hbreak, -⟩ | ⟨front, others, hbreak, rfl, hnone⟩
    · cases hopen.symm.trans hbreak
    · obtain ⟨rfl, hrest⟩ := Prod.ext_iff.mp (hbreak.symm.trans hopen)
      obtain rfl := Option.some.inj hrest
      obtain ⟨hbody, hsplit⟩ := eq_append_of_dropWhile_ne hclose
      rcases eq_or_of_ofText_append hs h with ⟨rfl, -⟩ | ⟨middle, rfl, hmiddle⟩
      · exact ⟨front, others, .text hnone, rfl⟩
      · obtain ⟨more, last, hmore, htail⟩ := ih hmiddle
        refine ⟨_, last, .tag hnone hbody hmore, ?_⟩
        have hothers : others = body ++ '\x7d' :: (more ++ '\x7b' :: '$' :: last) := htail ▸ hsplit
        rw [hothers]
        simp

end Segment

end ReportPress.Markup
