import ReportPress.Font.Family
import ReportPress.Proofs.Journal.Failure
import ReportPress.Proofs.Text.Trim

/-!
# Registries over time

A family is known by its trimmed name, so the name of the face that a new family brings is itself a
name of that family. A registry answers for a family that was added, and goes on answering for all
others as before.
-/

namespace ReportPress.FontRegistry

open Text

/-- The name of the face that a family from a file has: its own, without the blanks around it. -/
def faceName (family : String) : String := String.ofList (trim family.toList)

theorem key_faceName (family : String) : key (faceName family) = key family := by
  rw [key, faceName, String.toList_ofList, trim_trim, ← key]

@[simp] theorem isKnown_faceName (registry : FontRegistry) (family : String) :
    registry.isKnown (faceName family) = registry.isKnown family := by
  rw [isKnown, faces?, key_faceName, ← faces?, ← isKnown]

theorem faces?_add (registry : FontRegistry) (family face other : String) :
    (registry.add family face).faces? other
      = (registry.faces? other).or (if key other = key family then some (.single face) else none) := by
  rw [faces?, add, List.lookup_append, ← faces?, List.lookup_cons, List.lookup_nil]
  by_cases h : key other = key family
  · simp [h]
  · rw [if_neg h, beq_false_of_ne h]

theorem isKnown_add {registry : FontRegistry} {other : String} (h : registry.isKnown other = true)
    (family face : String) : (registry.add family face).isKnown other = true := by
  obtain ⟨faces, hfaces⟩ := Option.isSome_iff_exists.mp h
  rw [isKnown, faces?_add, hfaces]
  rfl

@[simp] theorem isKnown_add_self (registry : FontRegistry) (family face : String) :
    (registry.add family face).isKnown family = true := by
  rw [isKnown, faces?_add, if_pos rfl]
  cases registry.faces? family <;> rfl

theorem resolve_add_self {registry : FontRegistry} {family : String}
    (h : registry.isKnown family = false) (face : String) (bold italic : Bool) :
    (registry.add family face).resolve family bold italic = .ok face := by
  have hnone : registry.faces? family = none := by
    rw [isKnown] at h
    exact Option.not_isSome_iff_eq_none.mp (Bool.eq_false_iff.mp h)
  rw [resolve, faces?_add, hnone, if_pos rfl]
  cases bold <;> cases italic <;> rfl

def know (registry : FontRegistry) (family : String) : FontRegistry :=
  if registry.isKnown family then registry else registry.add family (faceName family)

/-! ## Ensuring a family -/

section Ensuring

variable {locate : String → Traced NotFound Path} {resources : Resources} {family : String}
  {registry registry' : FontRegistry} {file : Option Path} {e : NotFound}

/-- A family that is known needs no file and changes nothing. A family that is not known is added,
with the face of the file that is found by its name. -/
theorem yields_ensureBy :
    (ensureBy locate family).Yields registry file registry' ↔
      (registry.isKnown family = true ∧ file = none ∧ registry' = registry) ∨
        (registry.isKnown family = false ∧ ∃ path, (locate family).result = .ok path ∧
          file = some path ∧ registry' = registry.add family (faceName family)) := by
  by_cases hknown : registry.isKnown family = true
  · simp [ensureBy, hknown]
  · simp [ensureBy, hknown, faceName, and_comm]

theorem breaks_ensureBy :
    (ensureBy locate family).Breaks registry e registry' ↔
      registry.isKnown family = false ∧ (locate family).result = .error e ∧ registry' = registry := by
  by_cases hknown : registry.isKnown family = true
  · simp [ensureBy, hknown]
  · simp [ensureBy, hknown]

theorem yields_ensure :
    (ensure resources family).Yields registry file registry' ↔
      (registry.isKnown family = true ∧ file = none ∧ registry' = registry) ∨
        (registry.isKnown family = false ∧ ∃ path, (resources.locate family).result = .ok path ∧
          file = some path ∧ registry' = registry.add family (faceName family)) :=
  yields_ensureBy

theorem breaks_ensure :
    (ensure resources family).Breaks registry e registry' ↔
      registry.isKnown family = false ∧ (resources.locate family).result = .error e ∧
        registry' = registry :=
  breaks_ensureBy

theorem fails_ensure :
    (ensure resources family).Fails registry e ↔
      registry.isKnown family = false ∧ (resources.locate family).result = .error e := by
  simp [Action.fails_iff_breaks, breaks_ensure]

end Ensuring

end ReportPress.FontRegistry
