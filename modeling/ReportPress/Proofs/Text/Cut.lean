import Mathlib

/-!
# Cutting at a character

A text that is read up to the first of some character falls into what stands before it, the
character, and the rest.
-/

namespace ReportPress.Text

variable {c d : Char} {front rest cs : List Char}

theorem forall_ne_of_not_mem (h : c ∉ front) : ∀ d ∈ front, decide (d ≠ c) = true :=
  fun _ hd ↦ decide_eq_true fun heq ↦ h (heq ▸ hd)

theorem takeWhile_ne_append (h : c ∉ front) (rest : List Char) :
    (front ++ c :: rest).takeWhile (· ≠ c) = front := by
  rw [List.takeWhile_append_of_pos (forall_ne_of_not_mem h)]
  simp

theorem dropWhile_ne_append (h : c ∉ front) (rest : List Char) :
    (front ++ c :: rest).dropWhile (· ≠ c) = c :: rest := by
  rw [List.dropWhile_append_of_pos (forall_ne_of_not_mem h)]
  simp

theorem dropWhile_ne_of_not_mem (h : c ∉ cs) : cs.dropWhile (· ≠ c) = [] :=
  List.dropWhile_eq_nil_iff.mpr (forall_ne_of_not_mem h)

theorem eq_append_of_dropWhile_ne (h : cs.dropWhile (· ≠ c) = d :: rest) :
    c ∉ cs.takeWhile (· ≠ c) ∧ cs = cs.takeWhile (· ≠ c) ++ c :: rest := by
  have hhead := List.head_dropWhile_not (· ≠ c) (h ▸ List.cons_ne_nil d rest)
  simp only [h, List.head_cons, decide_eq_false_iff_not, not_not] at hhead
  subst hhead
  refine ⟨fun hmem ↦ by simpa using List.mem_takeWhile_imp hmem, ?_⟩
  rw [← h, List.takeWhile_append_dropWhile]

end ReportPress.Text
