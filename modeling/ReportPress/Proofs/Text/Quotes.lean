import Mathlib
import ReportPress.Proofs.Text.Trim
import ReportPress.Text.Quotes

/-!
# Texts in quotes

One pair of marks of one kind is taken off a text that stands between them, and nothing off any
other text. Quotation marks are no blanks, so trimming does not go past them.
-/

namespace ReportPress.Text

variable {cs : List Char}

theorem unquote_sublist (cs : List Char) : (unquote cs).Sublist cs := by
  cases cs with
  | nil => exact .refl []
  | cons first rest =>
    rw [unquote]
    split
    · exact (List.dropLast_sublist rest).trans (List.sublist_cons_self first rest)
    · exact .refl _

/-- Nothing is taken off a text exactly when there is nothing of either kind to take off. -/
theorem unquote_trim_eq_self_iff : unquote (trim cs) = cs ↔ trim cs = cs ∧ unquote cs = cs := by
  constructor
  · intro h
    have hsublist := unquote_sublist (trim cs)
    rw [h] at hsublist
    have htrim : trim cs = cs := (trim_sublist cs).antisymm hsublist
    exact ⟨htrim, by rwa [htrim] at h⟩
  · rintro ⟨htrim, hunquote⟩
    rw [htrim, hunquote]

theorem ofList_unquote_trim_eq_iff (value : String) :
    String.ofList (unquote (trim value.toList)) = value ↔
      trim value.toList = value.toList ∧ unquote value.toList = value.toList := by
  rw [← String.toList_inj, String.toList_ofList, unquote_trim_eq_self_iff]

theorem unquote_eq_self (h : cs.head?.any isQuote = false) : unquote cs = cs := by
  cases cs with
  | nil => rfl
  | cons first rest => simp_all [unquote]

theorem unquote_quoted {mark : Char} (h : isQuote mark = true) (cs : List Char) :
    unquote (mark :: (cs ++ [mark])) = cs := by
  simp [unquote, h]

/-- Whether a text stands between two marks of one kind. -/
def InQuotes (cs : List Char) : Prop :=
  ∃ mark inner, isQuote mark = true ∧ cs = mark :: (inner ++ [mark])

theorem unquote_eq_self_iff : unquote cs = cs ↔ ¬InQuotes cs := by
  constructor
  · rintro h ⟨mark, inner, hmark, rfl⟩
    have hlength := congrArg List.length h
    rw [unquote_quoted hmark, List.length_cons, List.length_append, List.length_singleton] at hlength
    omega
  · intro h
    cases cs with
    | nil => rfl
    | cons first rest =>
      refine if_neg fun hquoted ↦ h ?_
      rw [Bool.and_eq_true, decide_eq_true_eq] at hquoted
      obtain ⟨inner, rfl⟩ := List.getLast?_eq_some_iff.mp hquoted.2
      exact ⟨first, inner, hquoted.1, rfl⟩

/-- Whether a text is another without one pair of marks around it, if that stands between marks. -/
def Unquotes (cs inner : List Char) : Prop :=
  (∃ mark, isQuote mark = true ∧ cs = mark :: (inner ++ [mark])) ∨ ¬InQuotes cs ∧ inner = cs

theorem unquotes_iff {inner : List Char} : Unquotes cs inner ↔ inner = unquote cs := by
  constructor
  · rintro (⟨mark, hmark, rfl⟩ | ⟨hplain, rfl⟩)
    · exact (unquote_quoted hmark inner).symm
    · exact (unquote_eq_self_iff.mpr hplain).symm
  · rintro rfl
    by_cases h : InQuotes cs
    · obtain ⟨mark, inner, hmark, rfl⟩ := h
      exact .inl ⟨mark, hmark, by rw [unquote_quoted hmark]⟩
    · exact .inr ⟨h, unquote_eq_self_iff.mpr h⟩

theorem isBlank_of_isQuote {c : Char} (h : isQuote c = true) : isBlank c = false := by
  rw [isQuote, Bool.or_eq_true, decide_eq_true_eq, decide_eq_true_eq] at h
  rcases h with rfl | rfl <;> decide

theorem trim_quoted {mark : Char} (h : isQuote mark = true) (cs : List Char) :
    trim (mark :: (cs ++ [mark])) = mark :: (cs ++ [mark]) := by
  have hmark := isBlank_of_isQuote h
  refine trim_eq_self (fun c hc ↦ ?_) fun c hc ↦ ?_
  · rwa [← Option.some.inj hc]
  · rw [← List.cons_append, List.getLast?_concat] at hc
    rwa [← Option.some.inj hc]

end ReportPress.Text
