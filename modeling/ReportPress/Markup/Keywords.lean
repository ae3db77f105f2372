/-!
# Keyword arguments

Values by key, kept in the order of the keys. The order is part of the type, so two maps that answer
every look-up alike are equal, and the written form of a map is unique.
-/

namespace ReportPress

/-- The entries of a map with one value for a key, put in its place by the order of the keys. -/
def insertSorted (key value : String) : List (String × String) → List (String × String)
  | [] => [(key, value)]
  | (k, v) :: rest =>
    if key = k then (key, value) :: rest
    else if key < k then (key, value) :: (k, v) :: rest
    else (k, v) :: insertSorted key value rest

theorem mem_of_mem_insertSorted {key value : String} {entry : String × String} :
    ∀ {entries : List (String × String)}, entry ∈ insertSorted key value entries →
      entry = (key, value) ∨ entry ∈ entries
  | [], h => by simpa [insertSorted] using h
  | (k, v) :: rest, h => by
    unfold insertSorted at h
    split at h
    · simp only [List.mem_cons] at h ⊢
      rcases h with h | h
      · exact .inl h
      · exact .inr (.inr h)
    · split at h
      · simpa using h
      · simp only [List.mem_cons] at h ⊢
        rcases h with h | h
        · exact .inr (.inl h)
        · rcases mem_of_mem_insertSorted h with h | h
          · exact .inl h
          · exact .inr (.inr h)

structure Keywords where
  entries : List (String × String)
  /-- The keys rise, so no key occurs twice. -/
  sorted : entries.Pairwise fun a b ↦ a.1 < b.1
  deriving DecidableEq

namespace Keywords

def empty : Keywords := ⟨[], .nil⟩

instance : Inhabited Keywords := ⟨empty⟩

theorem pairwise_insertSorted (key value : String) :
    ∀ {entries : List (String × String)}, (entries.Pairwise fun a b ↦ a.1 < b.1) →
      (insertSorted key value entries).Pairwise fun a b ↦ a.1 < b.1
  | [], _ => by simp [insertSorted]
  | (k, v) :: rest, h => by
    rw [List.pairwise_cons] at h
    unfold insertSorted
    split
    · rename_i heq
      subst heq
      exact List.pairwise_cons.2 ⟨h.1, h.2⟩
    · split
      · rename_i hlt
        refine List.pairwise_cons.2 ⟨fun entry hentry ↦ ?_, List.pairwise_cons.2 h⟩
        rcases List.mem_cons.1 hentry with rfl | hentry
        · exact hlt
        · exact String.lt_trans hlt (h.1 entry hentry)
      · rename_i hne hnlt
        refine List.pairwise_cons.2 ⟨fun entry hentry ↦ ?_, pairwise_insertSorted key value h.2⟩
        rcases mem_of_mem_insertSorted hentry with rfl | hentry
        · exact Decidable.byContradiction fun hgt ↦
            hne (String.le_antisymm (String.not_lt.1 hgt) (String.not_lt.1 hnlt))
        · exact h.1 entry hentry

def insert (map : Keywords) (key value : String) : Keywords :=
  ⟨insertSorted key value map.entries, pairwise_insertSorted key value map.sorted⟩

/-- The map of a list of entries; of several entries with one key the last counts. -/
def ofList (entries : List (String × String)) : Keywords :=
  entries.foldl (fun map (key, value) ↦ map.insert key value) empty

def get? (map : Keywords) (key : String) : Option String := map.entries.lookup key

end Keywords

end ReportPress
