import Mathlib.Data.List.DropRight
import ReportPress.Text.Blank

/-!
# Trimming

What is left by trimming starts and ends with something else than a blank, so trimming it again
changes nothing; nor does it change any other text that starts and ends so.
-/

namespace ReportPress.Text

theorem trimEnd_eq_rdropWhile (cs : List Char) : trimEnd cs = cs.rdropWhile isBlank := rfl

@[simp] theorem trimStart_trimStart (cs : List Char) : trimStart (trimStart cs) = trimStart cs :=
  List.dropWhile_idempotent isBlank cs

@[simp] theorem trimEnd_trimEnd (cs : List Char) : trimEnd (trimEnd cs) = trimEnd cs := by
  rw [trimEnd_eq_rdropWhile cs, trimEnd_eq_rdropWhile]
  exact List.rdropWhile_idempotent isBlank cs

theorem trimStart_cons_of_isBlank {c : Char} {cs : List Char} (h : isBlank c = true) :
    trimStart (c :: cs) = trimStart cs := List.dropWhile_cons_of_pos h

theorem trimStart_cons_of_not_isBlank {c : Char} {cs : List Char} (h : isBlank c = false) :
    trimStart (c :: cs) = c :: cs := List.dropWhile_cons_of_neg (by simp [h])

theorem isBlank_of_trimStart_eq_cons {c : Char} {cs rest : List Char}
    (h : trimStart cs = c :: rest) : isBlank c = false := by
  have hhead := List.head_dropWhile_not isBlank (h ▸ List.cons_ne_nil c rest)
  simpa [show cs.dropWhile isBlank = c :: rest from h] using hhead

/-- Trimming the end uncovers no blank in front. -/
theorem isBlank_of_trim_eq_cons {c : Char} {cs rest : List Char} (h : trim cs = c :: rest) :
    isBlank c = false := by
  obtain ⟨back, hback⟩ : trim cs <+: trimStart cs := by
    rw [trim, trimEnd_eq_rdropWhile]
    exact List.rdropWhile_prefix isBlank _
  rw [h, List.cons_append] at hback
  exact isBlank_of_trimStart_eq_cons hback.symm

@[simp] theorem trimStart_trim (cs : List Char) : trimStart (trim cs) = trim cs := by
  cases htrim : trim cs with
  | nil => rfl
  | cons c rest => exact trimStart_cons_of_not_isBlank (isBlank_of_trim_eq_cons htrim)

@[simp] theorem trim_trim (cs : List Char) : trim (trim cs) = trim cs := by
  conv_lhs => rw [trim, trimStart_trim]
  exact trimEnd_trimEnd _

/-! ## Nothing to trim -/

theorem trimEnd_eq_self {cs : List Char} (h : ∀ c, cs.getLast? = some c → isBlank c = false) :
    trimEnd cs = cs := by
  rw [trimEnd_eq_rdropWhile, List.rdropWhile_eq_self_iff]
  intro hne
  rw [h _ (List.getLast?_eq_some_getLast hne)]
  decide

theorem trim_eq_self {cs : List Char} (hstart : ∀ c, cs.head? = some c → isBlank c = false)
    (hend : ∀ c, cs.getLast? = some c → isBlank c = false) : trim cs = cs := by
  have htrimStart : trimStart cs = cs := by
    cases cs with
    | nil => rfl
    | cons c rest => rw [trimStart, List.dropWhile_cons, if_neg (by simp [hstart c rfl])]
  rw [trim, htrimStart, trimEnd_eq_self hend]

/-! ## What trimming leaves -/

theorem trim_sublist (cs : List Char) : (trim cs).Sublist cs := by
  have hend : (trimEnd (trimStart cs)).Sublist (trimStart cs) := by
    rw [trimEnd_eq_rdropWhile]
    exact (List.rdropWhile_prefix isBlank _).sublist
  exact hend.trans (List.dropWhile_sublist isBlank)

/-- Nothing is trimmed past a character that is no blank. -/
theorem trimEnd_append_cons {c : Char} (h : isBlank c = false) (front back : List Char) :
    trimEnd (front ++ c :: back) = front ++ c :: trimEnd back := by
  induction back using List.reverseRecOn with
  | nil => exact trimEnd_eq_self fun d hd ↦ by simp_all
  | append_singleton back d ih =>
    by_cases hd : isBlank d = true
    · have hdrop (cs : List Char) : trimEnd (cs ++ [d]) = trimEnd cs := by simp [trimEnd, hd]
      rw [← List.cons_append, ← List.append_assoc, hdrop, ih, hdrop]
    · have hkeep (cs : List Char) : trimEnd (cs ++ [d]) = cs ++ [d] := by simp [trimEnd, hd]
      rw [← List.cons_append, ← List.append_assoc, hkeep, hkeep, List.append_assoc, List.cons_append]

theorem mem_trim_iff {c : Char} {cs : List Char} (h : isBlank c = false) : c ∈ trim cs ↔ c ∈ cs := by
  refine ⟨fun hc ↦ (trim_sublist cs).subset hc, fun hc ↦ ?_⟩
  rw [← List.takeWhile_append_dropWhile (p := isBlank) (l := cs), List.mem_append] at hc
  have hstart : c ∈ trimStart cs := hc.resolve_left fun hblank ↦ by
    simpa [h] using List.mem_takeWhile_imp hblank
  obtain ⟨front, back, hsplit, -⟩ := List.eq_append_cons_of_mem hstart
  rw [trim, hsplit, trimEnd_append_cons h]
  exact List.mem_append_right front List.mem_cons_self

theorem trim_trimEnd (cs : List Char) : trim (trimEnd cs) = trim cs := by
  have hsplit : cs.takeWhile isBlank ++ trimStart cs = cs := List.takeWhile_append_dropWhile
  -- Unless all of it is blank, the text has a first character that is not, and nothing is trimmed
  -- past it.
  cases hstart : trimStart cs with
  | nil =>
    have hblank : trimEnd cs = [] := by
      rw [trimEnd, List.reverse_eq_nil_iff, List.dropWhile_eq_nil_iff]
      exact fun c hc ↦ List.dropWhile_eq_nil_iff.mp hstart c (List.mem_reverse.mp hc)
    rw [hblank, trim, trim, hstart]
    rfl
  | cons c back =>
    have hc : isBlank c = false := isBlank_of_trimStart_eq_cons hstart
    have hfront : (cs.takeWhile isBlank ++ c :: trimEnd back).dropWhile isBlank
        = c :: trimEnd back := by
      rw [List.dropWhile_append_of_pos fun d hd ↦ List.mem_takeWhile_imp hd]
      exact trimStart_cons_of_not_isBlank hc
    have hend : trimEnd cs = cs.takeWhile isBlank ++ c :: trimEnd back := by
      conv_lhs => rw [← hsplit, hstart]
      exact trimEnd_append_cons hc _ _
    rw [trim, hend, trimStart, hfront, trim, hstart]
    exact (trimEnd_append_cons hc [] (trimEnd back)).trans
      ((congrArg (c :: ·) (trimEnd_trimEnd back)).trans (trimEnd_append_cons hc [] back).symm)

/-! ## What trimming is -/

/-- Whether a text is another without the blanks around it. -/
structure Trims (cs trimmed : List Char) : Prop where
  /-- What is missing stands around it and is blank. -/
  around : ∃ front back, cs = front ++ trimmed ++ back ∧
    (∀ c ∈ front, isBlank c = true) ∧ ∀ c ∈ back, isBlank c = true
  start : ∀ c, trimmed.head? = some c → isBlank c = false
  stop : ∀ c, trimmed.getLast? = some c → isBlank c = false

theorem trimEnd_append_of_blank (cs : List Char) {back : List Char}
    (h : ∀ c ∈ back, isBlank c = true) : trimEnd (cs ++ back) = trimEnd cs := by
  have hdrop : (back.reverse ++ cs.reverse).dropWhile isBlank = cs.reverse.dropWhile isBlank :=
    List.dropWhile_append_of_pos fun c hc ↦ h c (List.mem_reverse.mp hc)
  rw [trimEnd, List.reverse_append, hdrop, trimEnd]

theorem trims_trim (cs : List Char) : Trims cs (trim cs) where
  around := by
    refine ⟨cs.takeWhile isBlank, (trimStart cs).rtakeWhile isBlank, ?_,
      fun c ↦ List.mem_takeWhile_imp, fun c ↦ List.mem_rtakeWhile_imp⟩
    rw [List.append_assoc, trim, trimEnd_eq_rdropWhile, List.rdropWhile_append_rtakeWhile]
    exact List.takeWhile_append_dropWhile.symm
  start := by
    intro c hc
    obtain ⟨rest, hrest⟩ := List.head?_eq_some_iff.mp hc
    exact isBlank_of_trim_eq_cons hrest
  stop := by
    intro c hc
    obtain ⟨hne, rfl⟩ := List.mem_getLast?_eq_getLast hc
    exact Bool.eq_false_iff.mpr (List.rdropWhile_last_not isBlank (trimStart cs) hne)

theorem Trims.eq_trim {cs trimmed : List Char} (h : Trims cs trimmed) : trimmed = trim cs := by
  obtain ⟨front, back, rfl, hfront, hback⟩ := h.around
  calc trimmed
      = trim trimmed := (trim_eq_self h.start h.stop).symm
    _ = trim (front ++ trimmed) := by
      rw [trim, trim, trimStart, trimStart, List.dropWhile_append_of_pos hfront]
    _ = trim (trimEnd (front ++ trimmed)) := (trim_trimEnd _).symm
    _ = trim (trimEnd (front ++ trimmed ++ back)) := by rw [trimEnd_append_of_blank _ hback]
    _ = trim (front ++ trimmed ++ back) := trim_trimEnd _

theorem trims_iff {cs trimmed : List Char} : Trims cs trimmed ↔ trimmed = trim cs :=
  ⟨Trims.eq_trim, fun h ↦ h ▸ trims_trim cs⟩

end ReportPress.Text
