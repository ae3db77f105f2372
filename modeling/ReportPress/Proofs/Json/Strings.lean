import Mathlib
import ReportPress.Json.Printer
import ReportPress.Json.Reader

/-!
# Strings are read back

Every character is written as one piece of a string, and the piece stands for that character again:
the marks and the common controls by a short escape, the other controls by number, everything else
by itself.
-/

namespace ReportPress.Json

open Number

/-- The controls that have a short escape. -/
def namedControls : List Char := ['\x08', '\x0c', '\n', '\r', '\t']

def partOf (c : Char) : StringPart :=
  if c.toNat < 0x20 ∧ c ∉ namedControls then .unit c.toNat else .char c

theorem hexValue?_digitChar {n : ℕ} (h : n < 16) : hexValue? (Nat.digitChar n) = some n := by
  interval_cases n <;> decide

theorem hexUnit?_escapeNumber {n : ℕ} (h : n < 256) :
    hexUnit? '0' '0' (Nat.digitChar (n / 16)) (Nat.digitChar (n % 16)) = some n := by
  have hzero : hexValue? '0' = some 0 := by decide
  simp only [hexUnit?, hzero, hexValue?_digitChar (show n / 16 < 16 by omega),
    hexValue?_digitChar (show n % 16 < 16 by omega), Option.bind_eq_bind, Option.bind_some]
  exact congrArg some (by omega)

section Parts

variable (rest : List Char)

theorem readParts_escapeNumber {n : ℕ} (h : n < 0x20) :
    readParts (escapeNumber n ++ rest)
      = (readParts rest).map fun (parts, after) ↦ (.unit n :: parts, after) := by
  have hunit := hexUnit?_escapeNumber (show n < 256 by omega)
  simp only [escapeNumber, List.cons_append, List.nil_append, readParts, hunit]
  cases readParts rest <;> rfl

theorem readParts_escapeChar (c : Char) :
    readParts (escapeChar c ++ rest)
      = (readParts rest).map fun (parts, after) ↦ (partOf c :: parts, after) := by
  unfold escapeChar
  split_ifs with hquote hescape hb hf hn hr ht hcontrol
  · subst hquote
    exact readParts_shortEscape rest (show '\x22' ≠ 'u' by decide) rfl
  · subst hescape
    exact readParts_shortEscape rest (show '\x5c' ≠ 'u' by decide) rfl
  · subst hb
    exact readParts_shortEscape rest (show 'b' ≠ 'u' by decide) rfl
  · subst hf
    exact readParts_shortEscape rest (show 'f' ≠ 'u' by decide) rfl
  · subst hn
    exact readParts_shortEscape rest (show 'n' ≠ 'u' by decide) rfl
  · subst hr
    exact readParts_shortEscape rest (show 'r' ≠ 'u' by decide) rfl
  · subst ht
    exact readParts_shortEscape rest (show 't' ≠ 'u' by decide) rfl
  · rw [partOf, if_pos ⟨hcontrol, by simp [namedControls, *]⟩]
    exact readParts_escapeNumber rest hcontrol
  · rw [partOf, if_neg fun h ↦ hcontrol h.1]
    exact readParts_plain rest hquote hescape hcontrol

end Parts

theorem readParts_flatMap (cs rest : List Char) :
    readParts (cs.flatMap escapeChar ++ '\x22' :: rest) = some (cs.map partOf, rest) := by
  induction cs with
  | nil => simp [readParts]
  | cons c cs ih =>
    rw [List.flatMap_cons, List.append_assoc, readParts_escapeChar, ih]
    rfl

/-- A unit below the surrogates is a character, whatever follows. -/
theorem joinParts?_unit {n : ℕ} (h : n < 0xD800) (parts : List StringPart) :
    joinParts? (.unit n :: parts) = (joinParts? parts).map (Char.ofNat n :: ·) := by
  cases parts with
  | nil => simp [joinParts?, Nat.not_le.mpr h]
  | cons part parts =>
    cases part with
    | char c => simp [joinParts?, Nat.not_le.mpr h]
    | unit low =>
      rw [joinParts?, if_neg (by omega), if_neg (by omega)]

theorem joinParts?_partOf (cs : List Char) : joinParts? (cs.map partOf) = some cs := by
  induction cs with
  | nil => rfl
  | cons c cs ih =>
    rw [List.map_cons, partOf]
    split
    · rename_i hcontrol
      rw [joinParts?_unit (by omega), ih, Char.ofNat_toNat]
      rfl
    · rw [joinParts?, ih]
      rfl

/-- **A string is read back.** -/
theorem readString_stringText (s : String) (rest : List Char) :
    readString (s.toList.flatMap escapeChar ++ '\x22' :: rest) = some (some s, rest) := by
  rw [readString, readParts_flatMap]
  simp [joinParts?_partOf]

end ReportPress.Json
