import Mathlib
import ReportPress.File.Path

/-!
# Components of paths

A path is compared by its components, and a name in a directory adds those of the name to those of
the directory (`components_join`): it makes no difference whether the directory is written with a
slash at its end. The empty path is the only one without components, so a name in directories that
are the same leads to paths that are the same (`components_join_congr`).
-/

namespace ReportPress.Path

variable {dir other p : Path} {front back : List Char} {name : String}

/-- What segments add to the components of a path. -/
def names (segments : List (List Char)) : List (List Char) :=
  segments.filter fun segment ↦ !isIdle segment

theorem segments_of_slash (h : p.text.toList = front ++ '/' :: back) :
    p.segments = front.splitOn '/' ++ back.splitOn '/' := by
  rw [segments, h, List.splitOn_append_cons_self]

/-- What stands behind a slash adds its names to the components. -/
theorem components_of_slash {q : Path} (hp : p.text.toList = front ++ '/' :: back)
    (hq : q.text.toList = front ++ ['/']) :
    p.components = q.components ++ names (back.splitOn '/') := by
  have habsolute : p.isAbsolute = q.isAbsolute := by
    rw [isAbsolute, isAbsolute, hp, hq]
    cases front <;> rfl
  obtain ⟨first, rest, hsplit⟩ := List.exists_cons_of_ne_nil (List.splitOn_ne_nil '/' front)
  rw [components, components, segments_of_slash hp, segments_of_slash hq, hsplit, habsolute]
  simp [names, isIdle]

/-- A slash at the end of a path makes no difference, unless it is the root. -/
theorem components_of_trailing {q : Path} (hne : front ≠ []) (hp : p.text.toList = front ++ ['/'])
    (hq : q.text.toList = front) : p.components = q.components := by
  have habsolute : p.isAbsolute = q.isAbsolute := by
    rw [isAbsolute, isAbsolute, hp, hq, List.head?_append_of_ne_nil _ hne]
  obtain ⟨first, rest, hsplit⟩ := List.exists_cons_of_ne_nil (List.splitOn_ne_nil '/' front)
  rw [components, components, segments_of_slash hp, segments, hq, hsplit, habsolute]
  simp [isIdle]

theorem components_eq_nil_iff : p.components = [] ↔ p.text = "" := by
  constructor
  · intro h
    obtain ⟨first, rest, hsplit⟩ := List.exists_cons_of_ne_nil (List.splitOn_ne_nil '/' p.text.toList)
    have htext : ['/'].intercalate (first :: rest) = p.text.toList := by
      rw [← hsplit, List.intercalate_splitOn]
    rw [components, segments, hsplit, List.append_eq_nil_iff] at h
    -- Without components the path is not absolute, and its first segment is empty.
    have hrelative : p.isAbsolute = false := Bool.eq_false_iff.mpr fun habsolute ↦ by
      simp [habsolute] at h
    have hfirst : first = [] := by
      by_contra hne
      simp [hrelative, hne] at h
    cases rest with
    | nil => simpa [hfirst] using htext.symm
    | cons second rest =>
      rw [hfirst] at htext
      simp [isAbsolute, ← htext, List.intercalate] at hrelative
  · intro h
    obtain ⟨text⟩ := p
    obtain rfl : text = "" := h
    decide

/-- **A name in a directory.** The components of the name come behind those of the directory. -/
theorem components_join (hdir : dir.text ≠ "") (hname : (Path.mk name).isAbsolute = false) :
    (dir.join name).components = dir.components ++ names (segments ⟨name⟩) := by
  have hne : dir.text.toList ≠ [] := fun h ↦ hdir (String.toList_eq_nil_iff.mp h)
  by_cases hlast : dir.text.toList.getLast? = some '/'
  · obtain ⟨front, hfront⟩ := List.getLast?_eq_some_iff.mp hlast
    have hjoin : (dir.join name).text.toList = front ++ '/' :: name.toList := by
      simp [join, hname, hfront]
    exact components_of_slash hjoin hfront
  · have hjoin : (dir.join name).text.toList = dir.text.toList ++ '/' :: name.toList := by
      simp [join, hname, hlast, hdir]
    have hslash : (Path.mk (dir.text ++ "/")).text.toList = dir.text.toList ++ ['/'] := by
      simp
    rw [components_of_slash hjoin hslash, components_of_trailing hne hslash rfl]
    rfl

theorem components_join_congr (h : dir.components = other.components) (name : String) :
    (dir.join name).components = (other.join name).components := by
  have hempty : dir.text = "" ↔ other.text = "" := by
    rw [← components_eq_nil_iff, h, components_eq_nil_iff]
  cases hname : (Path.mk name).isAbsolute with
  | true => rw [join, join, if_pos hname, if_pos hname]
  | false =>
    by_cases hdir : dir.text = ""
    · have hother := hempty.mp hdir
      simp [join, hname, hdir, hother]
    · rw [components_join hdir hname, components_join (mt hempty.mpr hdir) hname, h]

end ReportPress.Path
