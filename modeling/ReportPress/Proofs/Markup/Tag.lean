import Mathlib
import ReportPress.Markup.Compile
import ReportPress.Proofs.Text.Cut
import ReportPress.Proofs.Text.Trim

/-!
# What a tag says

The name and the arguments that the body of a tag denotes: without a parenthesis the body is the
name; otherwise the name stands before the first one, and the parameters between it and the one that
ends the body. Blanks around the body and around the name do not count. A body is read as a tag
exactly when it denotes a name that is one word (`ofBody?_eq_some_iff`).
-/

namespace ReportPress.Tag

open Text

variable {body front rest : List Char} {name : String} {args : Arguments}

/-- **What a body denotes.** -/
inductive Denotes (body : List Char) : String → Arguments → Prop
  | bare (h : '(' ∉ trim body) : Denotes body (String.ofList (trim body)) .none
  | withParameters {front parameters : List Char} (hfront : '(' ∉ front)
      (hbody : trim body = front ++ '(' :: (parameters ++ [')'])) :
      Denotes body (String.ofList (trim front)) (.ofParameters (String.ofList parameters))

theorem split?_of_not_mem (h : '(' ∉ body) : split? body = some (body, none) := by
  rw [split?, dropWhile_ne_of_not_mem h]

theorem split?_append (h : '(' ∉ front) (hrest : trimEnd rest = rest) :
    split? (front ++ '(' :: rest)
      = if rest.getLast? = some ')' then some (trim front, some rest.dropLast) else none := by
  rw [split?, takeWhile_ne_append h, dropWhile_ne_append h]
  simp only [hrest]

theorem trimEnd_of_trim (h : trim body = front ++ '(' :: rest) : trimEnd rest = rest := by
  have hend := trimEnd_trimEnd (trimStart body)
  rw [show trimEnd (trimStart body) = _ from h, trimEnd_eq_rdropWhile, List.rdropWhile_eq_self_iff]
    at hend
  rw [trimEnd_eq_rdropWhile, List.rdropWhile_eq_self_iff]
  intro hne
  simpa [hne] using hend (by simp)

theorem denotes_iff :
    Denotes body name args ↔ ∃ word parameters, split? (trim body) = some (word, parameters) ∧
      name = String.ofList word ∧
      args = parameters.elim .none fun raw ↦ .ofParameters (String.ofList raw) := by
  constructor
  · intro h
    cases h with
    | bare hbody => exact ⟨_, _, split?_of_not_mem hbody, rfl, rfl⟩
    | @withParameters front parameters hfront hbody =>
      refine ⟨trim front, some parameters, ?_, rfl, rfl⟩
      rw [hbody, split?_append hfront (trimEnd_of_trim hbody), if_pos List.getLast?_concat,
        List.dropLast_concat]
  · rintro ⟨word, parameters, hsplit, rfl, rfl⟩
    -- A body is split at its first parenthesis.
    by_cases hmem : '(' ∈ trim body
    · obtain ⟨front, rest, hbody, hfront⟩ := List.eq_append_cons_of_mem hmem
      rw [hbody, split?_append hfront (trimEnd_of_trim hbody)] at hsplit
      split at hsplit
      · rename_i hlast
        obtain ⟨rfl, rfl⟩ := Prod.ext_iff.mp (Option.some.inj hsplit)
        rw [← List.dropLast_append_getLast? _ hlast] at hbody
        exact .withParameters hfront hbody
      · cases hsplit
    · rw [split?_of_not_mem hmem] at hsplit
      obtain ⟨rfl, rfl⟩ := Prod.ext_iff.mp (Option.some.inj hsplit)
      exact .bare hmem

theorem isWord_iff (word : List Char) :
    ¬(word = [] ∨ word.any isBlank = true) ↔
      String.ofList word ≠ "" ∧ ∀ c ∈ (String.ofList word).toList, isBlank c = false := by
  simp [String.ofList_eq_empty_iff]

/-- **A body is a tag when its name is one word.** -/
theorem ofBody?_eq_some_iff :
    (∃ text, ofBody? body = some ⟨text, name, args⟩) ↔
      Denotes body name args ∧ name ≠ "" ∧ ∀ c ∈ name.toList, isBlank c = false := by
  rw [denotes_iff, ofBody?]
  cases hsplit : split? (trim body) with
  | none => simp
  | some found =>
    obtain ⟨word, parameters⟩ := found
    constructor
    · rintro ⟨text, htag⟩
      simp only at htag
      split at htag
      · cases htag
      · rename_i hword
        cases htag
        refine ⟨⟨word, parameters, rfl, rfl, ?_⟩, (isWord_iff word).mp hword⟩
        cases parameters <;> rfl
    · rintro ⟨⟨_, _, hfound, rfl, rfl⟩, hword⟩
      obtain ⟨rfl, rfl⟩ := Prod.ext_iff.mp (Option.some.inj hfound)
      refine ⟨String.ofList (trim body), ?_⟩
      simp only [if_neg ((isWord_iff _).mpr hword)]
      cases parameters <;> rfl

end ReportPress.Tag
