import Mathlib
import ReportPress.Proofs.Journal.Outcome

/-!
# What is collected

A list is assembled from items when every item gives a part of it, and the parts stand in the order
of the items. That is what a computation collects when it succeeds (`Traced.result_collect_eq_ok`),
and it goes along with the ways in which lists of items are put together, so two computations that
go through their items in different ways can be compared by what one item gives. When it does not
succeed, its error is that of the first item which has one (`Traced.error?_collect`).
-/

namespace ReportPress

variable {ε α β γ : Type}

theorem Traced.result_bind_eq_ok {x : Traced ε α} {f : α → Traced ε β} {b : β} :
    (x >>= f).result = .ok b ↔ ∃ a, x.result = .ok a ∧ (f a).result = .ok b := by
  rw [Traced.result_bind]
  cases x.result <;> simp [Except.bind]

theorem Traced.result_bind_eq_error {x : Traced ε α} {f : α → Traced ε β} {e : ε} :
    (x >>= f).result = .error e ↔
      x.result = .error e ∨ ∃ a, x.result = .ok a ∧ (f a).result = .error e := by
  rw [Traced.result_bind]
  cases x.result <;> simp [Except.bind]

/-- Whether a list consists of parts, one for each item and related to it. -/
def Assembles (R : α → List β → Prop) (items : List α) (whole : List β) : Prop :=
  ∃ parts, List.Forall₂ R items parts ∧ whole = parts.flatten

namespace Assembles

variable {R S : α → List β → Prop} {items : List α} {whole : List β}

@[simp] theorem nil_iff : Assembles R [] whole ↔ whole = [] := by
  constructor
  · rintro ⟨parts, hparts, rfl⟩
    rw [List.forall₂_nil_left_iff.mp hparts, List.flatten_nil]
  · rintro rfl
    exact ⟨[], .nil, rfl⟩

theorem cons_iff {a : α} :
    Assembles R (a :: items) whole ↔
      ∃ front back, R a front ∧ Assembles R items back ∧ whole = front ++ back := by
  constructor
  · rintro ⟨parts, hparts, rfl⟩
    obtain ⟨front, others, hfront, hothers, rfl⟩ := List.forall₂_cons_left_iff.mp hparts
    exact ⟨front, others.flatten, hfront, ⟨others, hothers, rfl⟩, List.flatten_cons⟩
  · rintro ⟨front, back, hfront, ⟨parts, hparts, rfl⟩, rfl⟩
    exact ⟨front :: parts, .cons hfront hparts, List.flatten_cons.symm⟩

@[simp] theorem singleton_iff {a : α} : Assembles R [a] whole ↔ R a whole := by
  simp [cons_iff]

theorem append_iff {others : List α} :
    Assembles R (items ++ others) whole ↔
      ∃ front back, Assembles R items front ∧ Assembles R others back ∧ whole = front ++ back := by
  induction items generalizing whole with
  | nil => simp
  | cons a items ih =>
    rw [List.cons_append, cons_iff]
    constructor
    · rintro ⟨part, rest, hpart, hrest, rfl⟩
      obtain ⟨front, back, hfront, hback, rfl⟩ := ih.mp hrest
      exact ⟨part ++ front, back, cons_iff.mpr ⟨part, front, hpart, hfront, rfl⟩, hback,
        (List.append_assoc ..).symm⟩
    · rintro ⟨front, back, hfront, hback, rfl⟩
      obtain ⟨part, rest, hpart, hrest, rfl⟩ := cons_iff.mp hfront
      exact ⟨part, rest ++ back, hpart, ih.mpr ⟨rest, back, hrest, hback, rfl⟩,
        List.append_assoc ..⟩

theorem congr (h : ∀ a part, R a part ↔ S a part) :
    Assembles R items whole ↔ Assembles S items whole := by
  rw [show R = S from funext₂ fun a part ↦ propext (h a part)]

theorem mono (h : Assembles R items whole) (hRS : ∀ a ∈ items, ∀ part, R a part → S a part) :
    Assembles S items whole := by
  obtain ⟨parts, hparts, rfl⟩ := h
  refine ⟨parts, ?_, rfl⟩
  induction hparts with
  | nil => exact .nil
  | cons hpart _ ih =>
    obtain ⟨ha, hrest⟩ := List.forall_mem_cons.mp hRS
    exact .cons (ha _ hpart) (ih hrest)

theorem map_iff {f : γ → α} {items : List γ} :
    Assembles R (items.map f) whole ↔ Assembles (fun a ↦ R (f a)) items whole := by
  simp only [Assembles, List.forall₂_map_left_iff]

theorem flatMap_iff {f : γ → List α} {items : List γ} :
    Assembles R (items.flatMap f) whole ↔ Assembles (fun a ↦ Assembles R (f a)) items whole := by
  induction items generalizing whole with
  | nil => simp
  | cons a items ih =>
    rw [List.flatMap_cons, append_iff, cons_iff]
    simp only [ih]

theorem self {R : β → List β → Prop} {items : List β} (h : ∀ b ∈ items, R b [b]) :
    Assembles R items items := by
  induction items with
  | nil => exact nil_iff.mpr rfl
  | cons b items ih =>
    obtain ⟨hb, hrest⟩ := List.forall_mem_cons.mp h
    exact cons_iff.mpr ⟨[b], items, hb, ih hrest, rfl⟩

theorem exists_part (h : Assembles R items whole) : ∀ a ∈ items, ∃ part, R a part := by
  induction items generalizing whole with
  | nil => exact fun a ha ↦ absurd ha List.not_mem_nil
  | cons a items ih =>
    obtain ⟨front, back, hfront, hback, -⟩ := cons_iff.mp h
    exact List.forall_mem_cons.mpr ⟨⟨front, hfront⟩, ih hback⟩

theorem forall_mem {P : β → Prop} (h : Assembles R items whole)
    (hR : ∀ a ∈ items, ∀ part, R a part → ∀ b ∈ part, P b) : ∀ b ∈ whole, P b := by
  induction items generalizing whole with
  | nil => rw [nil_iff.mp h]; exact List.forall_mem_nil P
  | cons a items ih =>
    obtain ⟨front, back, hfront, hback, rfl⟩ := cons_iff.mp h
    obtain ⟨ha, hrest⟩ := List.forall_mem_cons.mp hR
    exact List.forall_mem_append.mpr ⟨ha front hfront, ih hback hrest⟩

theorem forall₂ {T : α → β → Prop} (h : Assembles R items whole)
    (hR : ∀ a ∈ items, ∀ part, R a part → ∃ b, part = [b] ∧ T a b) : List.Forall₂ T items whole := by
  induction items generalizing whole with
  | nil => rw [nil_iff.mp h]; exact .nil
  | cons a items ih =>
    obtain ⟨front, back, hfront, hback, rfl⟩ := cons_iff.mp h
    obtain ⟨ha, hrest⟩ := List.forall_mem_cons.mp hR
    obtain ⟨b, rfl, hb⟩ := ha front hfront
    exact .cons hb (ih hback hrest)

/-- Where every item gives its part by way of one entry, the entries can be assembled first. -/
theorem comp_iff {S : α → List γ → Prop} {T : γ → List β → Prop}
    (hS : ∀ a entries, S a entries → ∃ c, entries = [c])
    (h : ∀ a part, R a part ↔ ∃ c, S a [c] ∧ T c part) :
    Assembles R items whole ↔ ∃ entries, Assembles S items entries ∧ Assembles T entries whole := by
  induction items generalizing whole with
  | nil => simp
  | cons a items ih =>
    simp only [cons_iff, h, ih]
    constructor
    · rintro ⟨front, back, ⟨c, hentry, hfront⟩, ⟨entries, hentries, hback⟩, rfl⟩
      exact ⟨c :: entries, ⟨[c], entries, hentry, hentries, rfl⟩,
        cons_iff.mpr ⟨front, back, hfront, hback, rfl⟩⟩
    · rintro ⟨_, ⟨single, entries, hentry, hentries, rfl⟩, hwhole⟩
      obtain ⟨c, rfl⟩ := hS a single hentry
      obtain ⟨front, back, hfront, hback, rfl⟩ := cons_iff.mp hwhole
      exact ⟨front, back, ⟨c, hentry, hfront⟩, ⟨entries, hentries, hback⟩, rfl⟩

end Assembles

/-- **What is collected is assembled from what the items give.** -/
theorem Traced.result_collect_eq_ok {f : α → Traced ε (List β)} {items : List α} {whole : List β} :
    (Traced.collect f items).result = .ok whole ↔
      Assembles (fun a part ↦ (f a).result = .ok part) items whole := by
  induction items generalizing whole with
  | nil => simp [Traced.collect, eq_comm]
  | cons a items ih =>
    simp only [Traced.collect, Traced.result_bind_eq_ok, Traced.result_pure, Except.ok.injEq, ih,
      Assembles.cons_iff, exists_and_left, eq_comm (a := whole)]

/-! ## What a collection depends on -/

theorem Traced.collect_congr {f g : α → Traced ε (List β)} {items : List α}
    (h : ∀ a ∈ items, f a = g a) : Traced.collect f items = Traced.collect g items := by
  induction items with
  | nil => rfl
  | cons a rest ih =>
    rw [Traced.collect, Traced.collect, h a List.mem_cons_self,
      ih fun b hb ↦ h b (List.mem_cons_of_mem a hb)]

theorem Traced.collect_append (f : α → Traced ε (List β)) (items others : List α) :
    Traced.collect f (items ++ others) = (do
      let front ← Traced.collect f items
      let back ← Traced.collect f others
      return front ++ back) := by
  induction items with
  | nil => simp [Traced.collect]
  | cons a rest ih => simp [Traced.collect, ih, ← List.append_assoc]

theorem Traced.collect_map (f : α → Traced ε (List β)) (g : γ → α) (items : List γ) :
    Traced.collect f (items.map g) = Traced.collect (f ∘ g) items := by
  induction items with
  | nil => rfl
  | cons a rest ih => rw [List.map_cons, Traced.collect, Traced.collect, ih, Function.comp_apply]

/-! ## What goes wrong first -/

def error? (result : Except ε α) : Option ε :=
  match result with
  | .error e => some e
  | .ok _ => none

@[simp] theorem error?_eq_some_iff {result : Except ε α} {e : ε} :
    error? result = some e ↔ result = .error e := by
  cases result <;> simp [error?]

@[simp] theorem error?_eq_none_iff {result : Except ε α} :
    error? result = none ↔ ∃ a, result = .ok a := by
  cases result <;> simp [error?]

theorem error?_bind_pure {x : Traced ε α} {f : α → β} :
    error? (x >>= fun a ↦ pure (f a)).result = error? x.result := by
  rw [Traced.result_bind]
  cases x.result <;> rfl

/-- **A collection fails as the first item that does.** -/
theorem Traced.error?_collect (f : α → Traced ε (List β)) (items : List α) :
    error? (Traced.collect f items).result = items.findSome? fun a ↦ error? (f a).result := by
  induction items with
  | nil => rfl
  | cons a rest ih =>
    rw [Traced.collect, Traced.result_bind, List.findSome?_cons, ← ih]
    cases (f a).result with
    | error e => rfl
    | ok front => exact error?_bind_pure

end ReportPress
