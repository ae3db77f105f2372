import Mathlib
import ReportPress.Json.Record

/-!
# Records as they are written

An object whose members have the names of a record, each once and in order, is read member by
member.
-/

namespace ReportPress.Json

theorem text?_string (text : String) : text? (.string text) = some text := rfl

theorem natBelow?_ofNat {n bound : ℕ} (h : n < bound) : natBelow? bound (ofNat n) = some n := by
  rw [ofNat, natBelow?, if_pos ⟨Int.natCast_nonneg n, by exact_mod_cast h⟩]
  rfl

theorem lt_of_natBelow? {n bound : ℕ} {value : Json} (h : natBelow? bound value = some n) :
    n < bound := by
  cases value with
  | integer k =>
    rw [natBelow?] at h
    split at h
    · cases h
      omega
    · cases h
  | _ => cases h

theorem mapM_map_eq_some {α β : Type} {write : α → β} {read? : β → Option α}
    (h : ∀ a, read? (write a) = some a) (items : List α) :
    (items.map write).mapM read? = some items := by
  induction items with
  | nil => rfl
  | cons a items ih => simp [h, ih]

theorem list?_map {α : Type} {write : α → Json} {read? : Json → Option α}
    (h : ∀ a, read? (write a) = some a) (items : List α) :
    (Json.array (items.map write)).list? read? = some items :=
  mapM_map_eq_some h items

section Object

variable {names : List String} {members : List (String × Json)}

theorem filter_fst_eq_self {name : String} {value : Json} (hnodup : (members.map Prod.fst).Nodup)
    (hmem : (name, value) ∈ members) : members.filter (·.1 = name) = [(name, value)] := by
  induction members with
  | nil => cases hmem
  | cons member members ih =>
    rw [List.map_cons, List.nodup_cons] at hnodup
    rcases List.mem_cons.mp hmem with rfl | hmem
    · have hrest : members.filter (·.1 = name) = [] := by
        rw [List.filter_eq_nil_iff]
        rintro member hmember
        simp only [decide_eq_true_eq]
        rintro rfl
        exact hnodup.1 (List.mem_map.mpr ⟨_, hmember, rfl⟩)
      simp [hrest]
    · have hne : member.1 ≠ name := by
        rintro rfl
        exact hnodup.1 (List.mem_map.mpr ⟨_, hmem, rfl⟩)
      rw [List.filter_cons_of_neg (by simpa using hne), ih hnodup.2 hmem]

theorem lookup_of_mem {name : String} {value : Json} (hnodup : (members.map Prod.fst).Nodup)
    (hmem : (name, value) ∈ members) : members.lookup name = some value := by
  induction members with
  | nil => cases hmem
  | cons member members ih =>
    rw [List.map_cons, List.nodup_cons] at hnodup
    rcases List.mem_cons.mp hmem with rfl | hmem
    · simp
    · have hne : name ≠ member.1 := by
        rintro rfl
        exact hnodup.1 (List.mem_map.mpr ⟨_, hmem, rfl⟩)
      rw [List.lookup_cons, beq_false_of_ne hne]
      exact ih hnodup.2 hmem

theorem fields?_object (hnames : members.map Prod.fst = names) (hnodup : names.Nodup)
    (shortArray : Bool) :
    fields? names shortArray (.object members) = some (members.map fun member ↦ some member.2) := by
  subst hnames
  have honce : ((members.map Prod.fst).all fun name ↦
      decide ((members.filter (·.1 = name)).length ≤ 1)) = true := by
    rw [List.all_eq_true]
    intro name hname
    obtain ⟨member, hmember, rfl⟩ := List.mem_map.mp hname
    rw [filter_fst_eq_self hnodup hmember]
    rfl
  rw [fields?, if_pos honce, List.map_map]
  refine congrArg some (List.map_congr_left fun member hmember ↦ ?_)
  exact lookup_of_mem hnodup hmember

theorem tagged?_object {tag name : String} {depth : ℕ} (htag : tag ∉ members.map Prod.fst)
    (hread : isReadable depth (.object members) = true) :
    tagged? tag depth (.object ((tag, .string name) :: members)) = some (name, .object members) := by
  have hne : ∀ member ∈ members, member.1 ≠ tag := by
    rintro member hmember rfl
    exact htag (List.mem_map_of_mem hmember)
  have hnone : members.filter (·.1 = tag) = [] :=
    List.filter_eq_nil_iff.mpr fun member hmember ↦ by simpa using hne member hmember
  have hall : members.filter (·.1 ≠ tag) = members :=
    List.filter_eq_self.mpr fun member hmember ↦ by simpa using hne member hmember
  have hreadable : isReadable depth (.object ((tag, .string name) :: members)) = true := by
    cases depth with
    | zero => simp [isReadable] at hread
    | succ depth =>
      rw [isReadable] at hread ⊢
      rw [List.all_cons, hread]
      simp [isReadable]
  rw [tagged?, if_pos hreadable]
  simp only [List.filter_cons_of_pos, hnone, decide_true]
  rw [List.filter_cons_of_neg (by simp), hall]

end Object

end ReportPress.Json
