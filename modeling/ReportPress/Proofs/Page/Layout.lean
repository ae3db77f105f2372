import Mathlib

/-!
# Lines on pages

How lines fall on pages that hold a number of lines each: a line goes behind the others on the last
page, or on a new page when the last is full. The page is turned for the line that comes, not for
the line that was the last to fit, so a full page at the end is not followed by an empty one.

All pages but the last are full, which fixes their number and that of the lines on each.
-/

namespace ReportPress

/-- Lines on pages. -/
structure Layout where
  ended : List (List String)
  last : List String

namespace Layout

variable {k : ℕ} {layout : Layout} {lines : List String}

def empty : Layout := ⟨[], []⟩

def pages (layout : Layout) : List (List String) := layout.ended ++ [layout.last]

/-- The layout with room for a line on its last page: a page with `k` lines is turned. -/
def turned (k : ℕ) (layout : Layout) : Layout :=
  if layout.last.length = k then ⟨layout.pages, []⟩ else layout

def add (k : ℕ) (layout : Layout) (line : String) : Layout :=
  ⟨(layout.turned k).ended, (layout.turned k).last ++ [line]⟩

/-- The layout of lines on pages that hold `k` each. -/
def ofLines (k : ℕ) (lines : List String) : Layout := lines.foldl (add k) empty

theorem turned_of_length_eq (h : layout.last.length = k) : layout.turned k = ⟨layout.pages, []⟩ :=
  if_pos h

theorem turned_of_length_ne (h : layout.last.length ≠ k) : layout.turned k = layout := if_neg h

@[simp] theorem last_add (layout : Layout) (line : String) :
    (layout.add k line).last = (layout.turned k).last ++ [line] := rfl

@[simp] theorem ended_add (layout : Layout) (line : String) :
    (layout.add k line).ended = (layout.turned k).ended := rfl

theorem ofLines_concat (k : ℕ) (lines : List String) (line : String) :
    ofLines k (lines ++ [line]) = (ofLines k lines).add k line := by
  rw [ofLines, List.foldl_append, List.foldl_cons, List.foldl_nil, ← ofLines]

/-! ## Full pages -/

/-- All pages but the last have `k` lines, and the last has no more. -/
structure Full (k : ℕ) (layout : Layout) : Prop where
  ended : ∀ page ∈ layout.ended, page.length = k
  last : layout.last.length ≤ k

theorem Full.turned (h : Full k layout) (hk : 0 < k) :
    Full k (layout.turned k) ∧ (layout.turned k).last.length < k := by
  unfold Layout.turned
  split
  · rename_i hlast
    refine ⟨⟨fun page hpage ↦ ?_, Nat.zero_le k⟩, hk⟩
    rcases List.mem_append.mp hpage with hended | hpage
    · exact h.ended page hended
    · rw [List.mem_singleton.mp hpage, hlast]
  · exact ⟨h, Nat.lt_of_le_of_ne h.last ‹_›⟩

theorem Full.add (h : Full k layout) (hk : 0 < k) (line : String) : Full k (layout.add k line) := by
  obtain ⟨hturned, hlast⟩ := h.turned hk
  refine ⟨hturned.ended, ?_⟩
  rw [last_add, List.length_append]
  exact hlast

theorem Full.length_le (h : Full k layout) : ∀ page ∈ layout.pages, page.length ≤ k := by
  intro page hpage
  rcases List.mem_append.mp hpage with hended | hpage
  · exact (h.ended page hended).le
  · rw [List.mem_singleton.mp hpage]
    exact h.last

theorem full_ofLines (hk : 0 < k) (lines : List String) : Full k (ofLines k lines) := by
  induction lines using List.reverseRecOn with
  | nil => exact ⟨fun page hpage ↦ absurd hpage List.not_mem_nil, Nat.zero_le k⟩
  | append_singleton lines line ih =>
    rw [ofLines_concat]
    exact ih.add hk line

/-! ## Nothing is lost -/

@[simp] theorem flatten_pages_turned (k : ℕ) (layout : Layout) :
    (layout.turned k).pages.flatten = layout.pages.flatten := by
  unfold turned
  split <;> simp [pages]

@[simp] theorem flatten_pages_add (k : ℕ) (layout : Layout) (line : String) :
    (layout.add k line).pages.flatten = layout.pages.flatten ++ [line] := by
  rw [← flatten_pages_turned k layout]
  simp [pages]

theorem flatten_pages_ofLines (k : ℕ) (lines : List String) :
    (ofLines k lines).pages.flatten = lines := by
  induction lines using List.reverseRecOn with
  | nil => rfl
  | append_singleton lines line ih => rw [ofLines_concat, flatten_pages_add, ih]

theorem last_ofLines_ne_nil (h : lines ≠ []) : (ofLines k lines).last ≠ [] := by
  obtain ⟨front, line, rfl⟩ := List.eq_nil_or_concat lines |>.resolve_left h
  rw [List.concat_eq_append, ofLines_concat]
  simp

/-! ## Counts -/

theorem length_lines (hk : 0 < k) (lines : List String) :
    lines.length = k * (ofLines k lines).ended.length + (ofLines k lines).last.length := by
  have hfull := full_ofLines hk lines
  have hsum : (ofLines k lines).ended.flatten.length = k * (ofLines k lines).ended.length := by
    rw [List.length_flatten, List.map_congr_left hfull.ended, List.map_const', List.sum_replicate,
      smul_eq_mul, mul_comm]
  conv_lhs => rw [← flatten_pages_ofLines k lines]
  rw [pages, List.flatten_append, List.length_append, hsum]
  simp

/-- Lines that fit on one page are on one page. -/
theorem ended_ofLines_eq_nil (hk : 0 < k) (h : lines ≠ []) (hle : lines.length ≤ k) :
    (ofLines k lines).ended = [] := by
  have hlines := length_lines hk lines
  have hlast := List.length_pos_iff.mpr (last_ofLines_ne_nil (k := k) h)
  by_contra hended
  have hmul := Nat.mul_le_mul_left k (List.length_pos_iff.mpr hended)
  omega

theorem length_pages_ofLines (hk : 0 < k) (h : lines ≠ []) :
    (ofLines k lines).pages.length = lines.length ⌈/⌉ k := by
  have hlines := length_lines hk lines
  have hlast := (full_ofLines hk lines).last
  have hne := List.length_pos_iff.mpr (last_ofLines_ne_nil (k := k) h)
  rw [pages, List.length_append, List.length_singleton, Nat.ceilDiv_eq_add_pred_div, hlines]
  -- The last page has from one to `k` lines, so the quotient counts it as one.
  rw [show k * (ofLines k lines).ended.length + (ofLines k lines).last.length + k - 1
      = (ofLines k lines).last.length - 1 + k * ((ofLines k lines).ended.length + 1) by
    rw [mul_add_one]
    omega]
  rw [Nat.add_mul_div_left _ _ hk, Nat.div_eq_of_lt (by omega), Nat.zero_add]

theorem length_getElem_pages_ofLines (hk : 0 < k) (lines : List String) {i : ℕ}
    (hi : i < (ofLines k lines).pages.length) :
    (ofLines k lines).pages[i].length = if i + 1 < (ofLines k lines).pages.length then k
      else lines.length - k * ((ofLines k lines).pages.length - 1) := by
  have hlines := length_lines hk lines
  have hlength : (ofLines k lines).pages.length = (ofLines k lines).ended.length + 1 := by
    simp [pages]
  split
  · rename_i hbefore
    have hended : i < (ofLines k lines).ended.length := by omega
    simp only [pages, List.getElem_append_left hended]
    exact (full_ofLines hk lines).ended _ (List.getElem_mem hended)
  · have hend : i = (ofLines k lines).ended.length := by omega
    subst hend
    simp only [pages, List.getElem_concat_length]
    simp
    omega

end Layout

end ReportPress
