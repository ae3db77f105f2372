import Mathlib
import ReportPress.Markup.Keywords

/-!
# Keyword arguments as maps

A map is known by its answers: since its keys rise, two maps that answer every look-up alike have
the same entries (`Keywords.ext_get?`). So what is said here is what a look-up finds behind each
operation, and equations between maps are read off from that. Of several entries with one key a list
gives the last, which is why it is looked up from its end.
-/

namespace ReportPress.Keywords

variable {key value : String} {entries : List (String × String)} {map : Keywords}

theorem entries_insert (map : Keywords) (key value : String) :
    (map.insert key value).entries = insertSorted key value map.entries := rfl

theorem ofList_concat (entries : List (String × String)) (entry : String × String) :
    ofList (entries ++ [entry]) = (ofList entries).insert entry.1 entry.2 := by
  rw [ofList, List.foldl_concat, ← ofList]

theorem mem_of_mem_ofList {entry : String × String} (h : entry ∈ (ofList entries).entries) :
    entry ∈ entries := by
  induction entries using List.reverseRecOn with
  | nil => cases h
  | append_singleton entries last ih =>
    rw [ofList_concat] at h
    rcases mem_of_mem_insertSorted h with rfl | hmem
    · exact List.mem_append_right _ (List.mem_singleton_self _)
    · exact List.mem_append_left _ (ih hmem)

theorem eq_iff {a b : Keywords} : a = b ↔ a.entries = b.entries := by
  obtain ⟨entries, sorted⟩ := a
  obtain ⟨entries', sorted'⟩ := b
  exact Keywords.mk.injEq .. ▸ Iff.rfl

theorem insertSorted_eq_concat (h : ∀ entry ∈ entries, entry.1 < key) (value : String) :
    insertSorted key value entries = entries ++ [(key, value)] := by
  induction entries with
  | nil => rfl
  | cons entry rest ih =>
    obtain ⟨hentry, hrest⟩ := List.forall_mem_cons.mp h
    rw [insertSorted, if_neg hentry.ne', if_neg (lt_asymm hentry), ih hrest, List.cons_append]

/-- Entries in order, with one value for a key, are a map as they stand. -/
theorem entries_ofList (h : entries.Pairwise fun a b ↦ a.1 < b.1) :
    (ofList entries).entries = entries := by
  induction entries using List.reverseRecOn with
  | nil => rfl
  | append_singleton front entry ih =>
    obtain ⟨hfront, -, hlt⟩ := List.pairwise_append.mp h
    rw [ofList_concat, entries_insert, ih hfront]
    exact insertSorted_eq_concat
      (fun other hother ↦ hlt other hother entry (List.mem_singleton_self entry)) entry.2

theorem ofList_entries (map : Keywords) : ofList map.entries = map :=
  eq_iff.mpr (entries_ofList map.sorted)

/-! ## Looking up -/

theorem lookup_cons_eq_if (other key value : String) (rest : List (String × String)) :
    ((key, value) :: rest).lookup other = if other = key then some value else rest.lookup other := by
  rw [List.lookup_cons]
  by_cases h : other = key
  · simp [h]
  · rw [beq_false_of_ne h, if_neg h]

theorem lookup_insertSorted (key value other : String) (entries : List (String × String)) :
    (insertSorted key value entries).lookup other
      = if other = key then some value else entries.lookup other := by
  induction entries with
  | nil => rw [insertSorted, lookup_cons_eq_if]
  | cons entry rest ih =>
    obtain ⟨first, held⟩ := entry
    rw [insertSorted, lookup_cons_eq_if other first]
    by_cases hfirst : key = first
    · subst hfirst
      rw [if_pos rfl, lookup_cons_eq_if]
      split_ifs <;> rfl
    rw [if_neg hfirst]
    by_cases hbefore : key < first
    · rw [if_pos hbefore, lookup_cons_eq_if, lookup_cons_eq_if]
    · rw [if_neg hbefore, lookup_cons_eq_if, ih]
      by_cases hother : other = key
      · rw [if_pos hother, if_pos hother, if_neg (hother ▸ hfirst)]
      · rw [if_neg hother, if_neg hother]

@[simp] theorem get?_empty (key : String) : empty.get? key = none := rfl

@[simp] theorem get?_insert (map : Keywords) (key value other : String) :
    (map.insert key value).get? other = if other = key then some value else map.get? other :=
  lookup_insertSorted key value other map.entries

theorem mem_entries_iff : (key, value) ∈ map.entries ↔ map.get? key = some value := by
  rw [get?, List.lookup_eq_some_iff]
  constructor
  · intro h
    obtain ⟨front, back, hentries⟩ := List.append_of_mem h
    refine ⟨front, back, hentries, fun entry hentry ↦ ?_⟩
    have hsorted := map.sorted
    rw [hentries] at hsorted
    have hlt := (List.pairwise_append.mp hsorted).2.2 entry hentry _ List.mem_cons_self
    simpa using hlt.ne'
  · rintro ⟨front, back, hentries, -⟩
    rw [hentries]
    exact List.mem_append_right front List.mem_cons_self

/-- **A map is known by its answers.** -/
theorem ext_get? {a b : Keywords} (h : ∀ key, a.get? key = b.get? key) : a = b := by
  have hmem : ∀ entry, entry ∈ a.entries ↔ entry ∈ b.entries := by
    rintro ⟨key, value⟩
    rw [mem_entries_iff, mem_entries_iff, h]
  have hantisymm : Std.Antisymm fun a b : String × String ↦ a.1 < b.1 :=
    ⟨fun _ _ h h' ↦ absurd h' (lt_asymm h)⟩
  have hirrefl : Std.Irrefl fun a b : String × String ↦ a.1 < b.1 := ⟨fun _ ↦ lt_irrefl _⟩
  exact eq_iff.mpr (a.sorted.eq_of_mem_iff b.sorted hmem)

theorem get?_ofList (entries : List (String × String)) (key : String) :
    (ofList entries).get? key = entries.reverse.lookup key := by
  induction entries using List.reverseRecOn with
  | nil => rfl
  | append_singleton entries entry ih =>
    rw [ofList_concat, get?_insert, ih, List.reverse_concat, lookup_cons_eq_if]

/-! ## One map over another -/

/-- A map in which the values of another count where it has any. -/
def overriddenBy (map later : Keywords) : Keywords := ofList (map.entries ++ later.entries)

@[simp] theorem get?_overriddenBy (map later : Keywords) (key : String) :
    (map.overriddenBy later).get? key = (later.get? key).or (map.get? key) := by
  have hanswers (map : Keywords) : map.entries.reverse.lookup key = map.get? key := by
    rw [← get?_ofList, ofList_entries]
  rw [overriddenBy, get?_ofList, List.reverse_append, List.lookup_append, hanswers, hanswers]

@[simp] theorem overriddenBy_empty (map : Keywords) : map.overriddenBy empty = map :=
  ext_get? fun key ↦ by simp

theorem overriddenBy_insert (map later : Keywords) (key value : String) :
    map.overriddenBy (later.insert key value) = (map.overriddenBy later).insert key value := by
  refine ext_get? fun other ↦ ?_
  simp only [get?_overriddenBy, get?_insert]
  split_ifs <;> rfl

theorem insert_comm (map : Keywords) {key key' : String} (h : key ≠ key') (value value' : String) :
    (map.insert key value).insert key' value' = (map.insert key' value').insert key value := by
  refine ext_get? fun other ↦ ?_
  simp only [get?_insert]
  by_cases hother : other = key
  · subst hother
    rw [if_neg h, if_pos rfl, if_pos rfl]
  · rw [if_neg hother, if_neg hother]

end ReportPress.Keywords
