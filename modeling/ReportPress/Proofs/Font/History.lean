import Mathlib
import ReportPress.Proofs.Font.Registry

/-!
# Registries and what they were asked before

A registry is asked for families in any order: whether they are known, for a face, or to make sure
that a family has faces. What it answers is settled by the calls before. A built-in family keeps its
faces, whatever is asked. Any other has a face from the first time that a file was found for it; the
face is named as the family was spelled then, and stays the same however the family is spelled
afterwards.

The registry looks families up by keys, and a key stands for all names of a family
(`key_eq_key_iff`). Two facts about a single call carry the induction over all of them: what has
faces keeps them (`faces?_carryOut`), and only a call that ensures a family makes it known
(`isKnown_carryOut`).
-/

namespace ReportPress

namespace Text

/-- Whether two characters are the same, or the same ASCII letter in both cases. -/
def SameLetter (c d : Char) : Prop :=
  c = d ∨ ∃ n < 26, c.toNat = 65 + n ∧ d.toNat = 97 + n ∨ c.toNat = 97 + n ∧ d.toNat = 65 + n

theorem toNat_toLower (c : Char) :
    c.toLower.toNat = if 65 ≤ c.toNat ∧ c.toNat ≤ 90 then c.toNat + 32 else c.toNat := by
  have hcapital : (c.val ≥ 'A'.val ∧ c.val ≤ 'Z'.val) ↔ 65 ≤ c.toNat ∧ c.toNat ≤ 90 := by
    simp only [ge_iff_le, UInt32.le_iff_toNat_le]
    rfl
  rw [Char.toLower]
  by_cases h : 65 ≤ c.toNat ∧ c.toNat ≤ 90
  · rw [dif_pos (hcapital.mpr h), if_pos h]
    show (c.val + ('a'.val - 'A'.val)).toNat = _
    rw [UInt32.toNat_add]
    exact Nat.mod_eq_of_lt (show c.toNat + 32 < 2 ^ 32 by omega)
  · rw [dif_neg (mt hcapital.mp h), if_neg h]

theorem toLower_eq_toLower_iff {c d : Char} : c.toLower = d.toLower ↔ SameLetter c d := by
  rw [← Char.toNat_inj, toNat_toLower, toNat_toLower, SameLetter, ← Char.toNat_inj]
  constructor
  · intro h
    by_cases heq : c.toNat = d.toNat
    · exact .inl heq
    -- The letter is the number of the capital, whichever of the two that is.
    right
    by_cases hc : 65 ≤ c.toNat ∧ c.toNat ≤ 90
    · refine ⟨c.toNat - 65, by omega, ?_⟩
      split at h <;> split at h <;> omega
    · refine ⟨d.toNat - 65, ?_, ?_⟩ <;> split at h <;> split at h <;> omega
  · rintro (h | ⟨n, hn, h | h⟩)
    · rw [h]
    · rw [if_pos (by omega), if_neg (by omega)]
      omega
    · rw [if_neg (by omega), if_pos (by omega)]
      omega

end Text

namespace FontRegistry

open Text ReportPress.Action

/-! ## Names of a family -/

/-- Whether two names are names of one family: without the blanks around them they differ in nothing
but the case of ASCII letters. -/
def SameFamily (name other : String) : Prop :=
  List.Forall₂ SameLetter (trim name.toList) (trim other.toList)

theorem key_eq_key_iff {name other : String} : key name = key other ↔ SameFamily name other := by
  rw [key, key, String.ofList_inj, ← List.forall₂_eq_eq_eq, List.forall₂_map_left_iff,
    List.forall₂_map_right_iff, SameFamily]
  simp only [toLower_eq_toLower_iff]

section Names

variable {registry : FontRegistry} {name other : String}

theorem SameFamily.symm (h : SameFamily name other) : SameFamily other name :=
  key_eq_key_iff.mp (key_eq_key_iff.mpr h).symm

theorem SameFamily.faces?_eq (h : SameFamily name other) (registry : FontRegistry) :
    registry.faces? name = registry.faces? other := by
  rw [faces?, faces?, key_eq_key_iff.mpr h]

theorem SameFamily.isKnown_eq (h : SameFamily name other) (registry : FontRegistry) :
    registry.isKnown name = registry.isKnown other := by
  rw [isKnown, isKnown, h.faces?_eq]

def IsBuiltin (name : String) : Prop := ∃ entry ∈ builtinFamilies, SameFamily name entry.1

theorem faces?_builtin : ∀ entry ∈ builtinFamilies, builtin.faces? entry.1 = some entry.2 := by
  decide

theorem key_builtin : ∀ entry ∈ builtinFamilies, key entry.1 = entry.1 := by
  decide

theorem isKnown_builtin_iff : builtin.isKnown name = true ↔ IsBuiltin name := by
  constructor
  · intro h
    obtain ⟨faces, hfaces⟩ := Option.isSome_iff_exists.mp h
    obtain ⟨front, back, hsplit, -⟩ := List.lookup_eq_some_iff.mp hfaces
    have hmem : (key name, faces) ∈ builtinFamilies := by
      rw [show builtinFamilies = _ from hsplit]
      exact List.mem_append_right _ List.mem_cons_self
    exact ⟨_, hmem, key_eq_key_iff.mp (key_builtin _ hmem).symm⟩
  · rintro ⟨entry, hentry, hsame⟩
    rw [hsame.isKnown_eq, isKnown, faces?_builtin entry hentry]
    rfl

end Names

/-! ## Calls -/

/-- A call to a registry. Every call may bring a way of its own to find files. -/
inductive Call where
  | ensure (locate : String → Traced NotFound Path) (family : String)
  | resolve (family : String) (bold italic : Bool)
  | isKnown (family : String)

inductive Answer where
  /-- The file to be embedded, if any, or the name that was not found. -/
  | file (result : Except NotFound (Option Path))
  | face (result : Except UnknownFamily String)
  | known (result : Bool)

/-- The answer of a registry, and the registry behind the call. -/
def Call.carryOut (registry : FontRegistry) : Call → Answer × FontRegistry
  | .ensure locate family =>
    let (outcome, registry) := ensureBy locate family registry
    (.file outcome.result, registry)
  | .resolve family bold italic => (.face (registry.resolve family bold italic), registry)
  | .isKnown family => (.known (registry.isKnown family), registry)

def after (calls : List Call) : FontRegistry :=
  calls.foldl (fun registry call ↦ (call.carryOut registry).2) builtin

def answer (done : List Call) (call : Call) : Answer := (call.carryOut (after done)).1

/-- Whether a family was ensured: some call did, under one of its names. -/
def IsEnsured (done : List Call) (name : String) : Prop :=
  ∃ front locate family file more, done = front ++ .ensure locate family :: more ∧
    answer front (.ensure locate family) = .file (.ok file) ∧ SameFamily family name

section Calls

variable {registry : FontRegistry} {call : Call} {done more : List Call} {name family : String}
  {locate : String → Traced NotFound Path} {file : Option Path} {faces : Faces} {e : NotFound}

theorem after_concat (done : List Call) (call : Call) :
    after (done ++ [call]) = (call.carryOut (after done)).2 := by
  rw [after, List.foldl_append, ← after]
  rfl

theorem answer_ensure_eq_ok :
    answer done (.ensure locate family) = .file (.ok file) ↔
      (ensureBy locate family).Yields (after done) file (after (done ++ [.ensure locate family])) := by
  rw [after_concat]
  exact ⟨fun h ↦ ⟨Answer.file.inj h, rfl⟩, fun h ↦ congrArg Answer.file h.1⟩

theorem answer_ensure_eq_error :
    answer done (.ensure locate family) = .file (.error e) ↔
      (ensureBy locate family).Breaks (after done) e (after (done ++ [.ensure locate family])) := by
  rw [after_concat]
  exact ⟨fun h ↦ ⟨Answer.file.inj h, rfl⟩, fun h ↦ congrArg Answer.file h.1⟩

/-! ### One call -/

theorem carryOut_cases (call : Call) (registry : FontRegistry) :
    (call.carryOut registry).2 = registry ∨
      ∃ locate family path, call = .ensure locate family ∧
        (ensureBy locate family).Yields registry (some path) (call.carryOut registry).2 ∧
        (call.carryOut registry).2 = registry.add family (faceName family) := by
  cases call with
  | ensure locate family =>
    rcases exists_yields_or_breaks (ensureBy locate family) registry with ⟨file, h⟩ | ⟨e, h⟩
    · rcases yields_ensureBy.mp h with ⟨-, -, hsame⟩ | ⟨-, path, -, rfl, hadd⟩
      · exact .inl hsame
      · exact .inr ⟨locate, family, path, rfl, h, hadd⟩
    · exact .inl (breaks_ensureBy.mp h).2.2
  | resolve => exact .inl rfl
  | isKnown => exact .inl rfl

theorem faces?_carryOut (h : registry.faces? name = some faces) (call : Call) :
    (call.carryOut registry).2.faces? name = some faces := by
  rcases carryOut_cases call registry with hsame | ⟨_, _, _, -, -, hadd⟩
  · rw [hsame, h]
  · rw [hadd, faces?_add, h, Option.some_or]

theorem isKnown_carryOut (h : (call.carryOut registry).2.isKnown name = true) :
    registry.isKnown name = true ∨
      ∃ locate family path, call = .ensure locate family ∧
        (ensureBy locate family).Yields registry (some path) (call.carryOut registry).2 ∧
        SameFamily family name := by
  rcases carryOut_cases call registry with hsame | ⟨locate, family, path, hcall, hyields, hadd⟩
  · exact .inl (hsame ▸ h)
  · rw [hadd, isKnown, faces?_add] at h
    by_cases hkey : key name = key family
    · exact .inr ⟨locate, family, path, hcall, hyields, key_eq_key_iff.mp hkey.symm⟩
    · rw [if_neg hkey, Option.or_none] at h
      exact .inl h

theorem isKnown_of_yields_ensureBy {registry' : FontRegistry}
    (h : (ensureBy locate family).Yields registry file registry') : registry'.isKnown family = true := by
  rcases yields_ensureBy.mp h with ⟨hknown, -, rfl⟩ | ⟨-, -, -, -, rfl⟩
  · exact hknown
  · exact isKnown_add_self registry family _

/-! ### All calls -/

theorem faces?_after_append (h : (after done).faces? name = some faces) (more : List Call) :
    (after (done ++ more)).faces? name = some faces := by
  induction more using List.reverseRecOn with
  | nil => rwa [List.append_nil]
  | append_singleton more call ih =>
    rw [← List.append_assoc, after_concat]
    exact faces?_carryOut ih call

theorem isKnown_after_append (h : (after done).isKnown name = true) (more : List Call) :
    (after (done ++ more)).isKnown name = true := by
  obtain ⟨faces, hfaces⟩ := Option.isSome_iff_exists.mp h
  exact Option.isSome_iff_exists.mpr ⟨faces, faces?_after_append hfaces more⟩

theorem IsEnsured.append (h : IsEnsured done name) (more : List Call) :
    IsEnsured (done ++ more) name := by
  obtain ⟨front, locate, family, file, back, rfl, hanswer, hsame⟩ := h
  exact ⟨front, locate, family, file, back ++ more, by simp, hanswer, hsame⟩

theorem isKnown_after_iff : (after done).isKnown name = true ↔ IsBuiltin name ∨ IsEnsured done name := by
  constructor
  · intro h
    induction done using List.reverseRecOn with
    | nil => exact .inl (isKnown_builtin_iff.mp h)
    | append_singleton done call ih =>
      rw [after_concat] at h
      rcases isKnown_carryOut h with hknown | ⟨locate, family, path, rfl, hyields, hsame⟩
      · exact (ih hknown).imp_right (·.append [call])
      · rw [← after_concat] at hyields
        exact .inr ⟨done, locate, family, some path, [], rfl, answer_ensure_eq_ok.mpr hyields, hsame⟩
  · rintro (h | ⟨front, locate, family, file, back, rfl, hanswer, hsame⟩)
    · have hstart : (after []).isKnown name = true := isKnown_builtin_iff.mpr h
      exact isKnown_after_append hstart done
    · rw [← hsame.isKnown_eq, List.append_cons]
      exact isKnown_after_append (isKnown_of_yields_ensureBy (answer_ensure_eq_ok.mp hanswer)) back

/-! ### Answers -/

theorem answer_resolve (h : (after done).faces? name = some faces) (bold italic : Bool) :
    answer done (.resolve name bold italic) = .face (.ok (faces.choose bold italic)) := by
  show Answer.face ((after done).resolve name bold italic) = _
  rw [resolve, h]

theorem answer_ensure_of_known (h : IsBuiltin name ∨ IsEnsured done name)
    (locate : String → Traced NotFound Path) :
    answer done (.ensure locate name) = .file (.ok none) :=
  congrArg Answer.file (yields_ensureBy.mpr (.inl ⟨isKnown_after_iff.mpr h, rfl, rfl⟩)).1

/-- The first time that a family is ensured, it gets the file that is found and a face of its
name. -/
theorem first_ensured (hbuiltin : ¬IsBuiltin family) (hfirst : ¬IsEnsured done family)
    (h : answer done (.ensure locate family) = .file (.ok file)) :
    (after (done ++ [.ensure locate family])).faces? family = some (.single (faceName family)) ∧
      ∃ path, (locate family).result = .ok path ∧ file = some path := by
  rcases yields_ensureBy.mp (answer_ensure_eq_ok.mp h) with ⟨hknown, -⟩ | ⟨hnew, path, hpath, hfile, hadd⟩
  · exact absurd (isKnown_after_iff.mp hknown) (not_or.mpr ⟨hbuiltin, hfirst⟩)
  · have hnone : (after done).faces? family = none := by
      rwa [isKnown, Option.isSome_eq_false_iff, Option.isNone_iff_eq_none] at hnew
    rw [hadd, faces?_add, hnone, if_pos rfl, Option.none_or]
    exact ⟨rfl, path, hpath, hfile⟩

/-- **Registries over time.** Whatever was asked before, the built-in families have their faces.
Once a family was ensured, it has the same faces for ever after, under all its names, and no file is
embedded for it again. The first time, unless it is built in, its faces are all named as it is
spelled, without blanks around it, and the file is the one that was found. A family that is not
found leaves the registry as it was, and so do all calls that ensure nothing. -/
theorem answers_over_time (done : List Call) :
    (∀ entry ∈ builtinFamilies, ∀ name bold italic, SameFamily name entry.1 →
      answer done (.resolve name bold italic) = .face (.ok (entry.2.choose bold italic))) ∧
    (∀ locate family file, answer done (.ensure locate family) = .file (.ok file) →
      ∃ faces : Faces,
        (∀ more name, SameFamily name family →
          (∀ bold italic, answer (done ++ .ensure locate family :: more) (.resolve name bold italic)
            = .face (.ok (faces.choose bold italic))) ∧
          ∀ locate', answer (done ++ .ensure locate family :: more) (.ensure locate' name)
            = .file (.ok none)) ∧
        (IsBuiltin family ∨ IsEnsured done family → file = none) ∧
        (¬IsBuiltin family → ¬IsEnsured done family → faces = .single (faceName family) ∧
          ∃ path, (locate family).result = .ok path ∧ file = some path)) ∧
    (∀ locate family e, answer done (.ensure locate family) = .file (.error e) →
      (locate family).result = .error e ∧ after (done ++ [.ensure locate family]) = after done) ∧
    ∀ family, (∀ bold italic, after (done ++ [.resolve family bold italic]) = after done) ∧
      after (done ++ [.isKnown family]) = after done := by
  refine ⟨?_, ?_, ?_, fun family ↦ ⟨fun bold italic ↦ after_concat done _, after_concat done _⟩⟩
  · intro entry hentry name bold italic hsame
    have hstart : (after []).faces? name = some entry.2 := by
      rw [hsame.faces?_eq]
      exact faces?_builtin entry hentry
    exact answer_resolve (faces?_after_append hstart done) bold italic
  · intro locate family file hanswer
    -- A family that was ensured has faces from then on, and what has faces keeps them.
    obtain ⟨faces, hfaces⟩ := Option.isSome_iff_exists.mp
      (isKnown_of_yields_ensureBy (answer_ensure_eq_ok.mp hanswer))
    refine ⟨faces, fun more name hsame ↦ ⟨?_, ?_⟩, ?_, ?_⟩
    · refine answer_resolve ?_
      rw [List.append_cons, hsame.faces?_eq]
      exact faces?_after_append hfaces more
    · exact answer_ensure_of_known
        (.inr ⟨done, locate, family, file, more, rfl, hanswer, hsame.symm⟩)
    · intro hbefore
      rw [answer_ensure_of_known hbefore] at hanswer
      cases hanswer
      rfl
    · intro hbuiltin hfirst
      obtain ⟨hsingle, hfile⟩ := first_ensured hbuiltin hfirst hanswer
      exact ⟨Option.some.inj (hfaces.symm.trans hsingle), hfile⟩
  · intro locate family e hanswer
    exact (breaks_ensureBy.mp (answer_ensure_eq_error.mp hanswer)).2

end Calls

/-- A family whose file is found, ensured under one name and asked for under another. -/
theorem answers_over_time_respelled :
    let ensured : Call := .ensure (fun _ ↦ pure ⟨"tiny.ttf"⟩) " Tiny"
    answer [] ensured = .file (.ok (some ⟨"tiny.ttf"⟩)) ∧ SameFamily "tINY " " Tiny" ∧
      ∀ more bold italic, answer (ensured :: more) (.resolve "tINY " bold italic) = .face (.ok "Tiny") ∧
        answer (ensured :: more) ensured = .file (.ok none) := by
  intro ensured
  have hanswer : answer [] ensured = .file (.ok (some ⟨"tiny.ttf"⟩)) := rfl
  have hsame : SameFamily "tINY " " Tiny" := key_eq_key_iff.mp (by decide)
  have hbuiltin : ¬IsBuiltin " Tiny" := by
    rw [← isKnown_builtin_iff]
    decide
  have hfirst : ¬IsEnsured [] " Tiny" := by
    rintro ⟨front, _, _, _, _, hnil, -⟩
    simp at hnil
  obtain ⟨-, hensure, -⟩ := answers_over_time []
  obtain ⟨faces, hlater, -, hnew⟩ := hensure _ _ _ hanswer
  obtain ⟨rfl, -⟩ := hnew hbuiltin hfirst
  refine ⟨hanswer, hsame, fun more bold italic ↦ ⟨?_, (hlater more " Tiny" (key_eq_key_iff.mp rfl)).2 _⟩⟩
  refine ((hlater more "tINY " hsame).1 bold italic).trans ?_
  cases bold <;> cases italic <;> rfl

end FontRegistry

end ReportPress
