import ReportPress.Proofs.Text.Utf8
import ReportPress.Text.WinAnsi

/-!
# Windows-1252

Windows-1252 has the first half of its codes from ASCII and the end of the other half from Unicode
(`charOf?`); what it puts between (`block`) is scattered over Unicode, and only the commonest of it
is encoded. The characters of the block that are not (`missed`) are shown as question marks although
they have codes. They are the only ones whose byte is not the right one (`displays_encodeChar_iff`).
-/

namespace ReportPress.Text.WinAnsi

/-! ## Windows-1252 -/

/-- The characters of the codes from `0x80` to `0x9F`. Five codes have none. -/
def block : List (Option Char) :=
  [some '€', none, some '‚', some 'ƒ', some '„', some '…', some '†', some '‡',
   some 'ˆ', some '‰', some 'Š', some '‹', some 'Œ', none, some 'Ž', none,
   none, some '‘', some '’', some '“', some '”', some '•', some '–', some '—',
   some '˜', some '™', some 'š', some '›', some 'œ', none, some 'ž', some 'Ÿ']

/-- The character of a code. -/
def charOf? (code : UInt8) : Option Char :=
  if 0x80 ≤ code.toNat ∧ code.toNat < 0xA0 then block[code.toNat - 0x80]?.join
  else some (Char.ofNat code.toNat)

/-- Whether a character has a code. -/
def HasCode (c : Char) : Prop := ∃ code, charOf? code = some c

theorem charOf?_ofNat_toNat {c : Char} (hbyte : c.toNat < 0x100)
    (hout : c.toNat < 0x80 ∨ 0xA0 ≤ c.toNat) : charOf? (UInt8.ofNat c.toNat) = some c := by
  rw [charOf?, Utf8.toNat_ofNat_of_lt hbyte, if_neg (by omega), Char.ofNat_toNat]

theorem hasCode_iff {c : Char} :
    HasCode c ↔ some c ∈ block ∨ (c.toNat < 0x100 ∧ (c.toNat < 0x80 ∨ 0xA0 ≤ c.toNat)) := by
  constructor
  · rintro ⟨code, h⟩
    rw [charOf?] at h
    split at h
    · exact .inl (List.mem_of_getElem? (Option.join_eq_some_iff.mp h))
    · obtain rfl := Option.some.inj h
      have hbyte : code.toNat < 0x100 := code.toNat_lt
      rw [Char.toNat_ofNat, if_pos (.inl (by omega))]
      exact .inr ⟨hbyte, by omega⟩
  · rintro (h | ⟨hbyte, hout⟩)
    · obtain ⟨i, hget⟩ := List.mem_iff_getElem?.mp h
      have hi : i < 32 := (List.getElem?_eq_some_iff.mp hget).choose
      refine ⟨UInt8.ofNat (0x80 + i), ?_⟩
      rw [charOf?, Utf8.toNat_ofNat_of_lt (by omega), if_pos (by omega), Nat.add_sub_cancel_left,
        hget]
      rfl
    · exact ⟨_, charOf?_ofNat_toNat hbyte hout⟩

instance (c : Char) : Decidable (HasCode c) := decidable_of_iff _ hasCode_iff.symm

/-- The character to be read where a character was written: a space for a no-break space, and a
question mark for what has no code. -/
def legible (c : Char) : Char :=
  if c = '\u00A0' then ' ' else if HasCode c then c else '?'

/-- Whether a code shows a character: it is its code, or the one of a space for a no-break space, or
the one of a question mark for a character without a code. -/
def Displays (code : UInt8) (c : Char) : Prop :=
  charOf? code = some c ∨ (c = '\u00A0' ∧ code = 0x20) ∨ (¬HasCode c ∧ code = 0x3F)

/-- The characters that have a code and are not encoded. -/
def missed : List Char :=
  ['‚', 'ƒ', '„', '†', '‡', 'ˆ', '‰', 'Š', '‹', 'Œ', 'Ž', '˜', '™', 'š', '›', 'œ', 'ž', 'Ÿ']

variable {c : Char} {code : UInt8}

/-! ## What is encoded -/

theorem charOf?_marks : ∀ mark ∈ marks, charOf? mark.2 = some mark.1 := by
  decide

theorem missed_subset_block : ∀ c ∈ missed, some c ∈ block := by
  simp [missed, block]

/-- A character of the block is missed or is a mark. -/
theorem mem_missed_or_isSome_lookup :
    ∀ entry ∈ block, ∀ c ∈ entry, c ∈ missed ∨ (marks.lookup c).isSome := by
  simp [block, missed, marks, List.lookup]

theorem encodeChar_missed : ∀ c ∈ missed, encodeChar c = 0x3F := by
  simp [missed, encodeChar, marks, List.lookup]

theorem hasCode_missed (h : c ∈ missed) : HasCode c :=
  hasCode_iff.mpr (.inl (missed_subset_block c h))

/-- **The byte of a character shows it unless the character is missed.** -/
theorem displays_encodeChar_iff : Displays (encodeChar c) c ↔ c ∉ missed := by
  constructor
  · intro h hmissed
    rw [encodeChar_missed c hmissed] at h
    rcases h with h | ⟨rfl, -⟩ | ⟨hnone, -⟩
    · obtain rfl := Option.some.inj (show some '?' = some c from h)
      exact absurd hmissed (by decide)
    · exact absurd hmissed (by decide)
    · exact hnone (hasCode_missed hmissed)
  · intro hmissed
    rw [encodeChar]
    split
    · rename_i byte hlookup
      obtain ⟨front, back, hsplit, -⟩ := List.lookup_eq_some_iff.mp hlookup
      exact .inl (charOf?_marks (c, byte) (hsplit ▸ List.mem_append_right _ List.mem_cons_self))
    · rename_i hlookup
      split_ifs with hspace hbyte
      · exact .inr (.inl ⟨Char.toNat_inj.mp hspace, rfl⟩)
      · exact .inl (charOf?_ofNat_toNat (by omega) (by omega))
      · refine .inr (.inr ⟨fun hcode ↦ ?_, rfl⟩)
        -- A character of the block that is not missed is a mark, and marks were looked up before.
        rcases hasCode_iff.mp hcode with hblock | ⟨hless, hout⟩
        · have hmark := (mem_missed_or_isSome_lookup _ hblock c rfl).resolve_left hmissed
          rw [hlookup] at hmark
          cases hmark
        · exact hbyte (by omega)

/-- **What is read again is what can be read, unless the character is missed.** -/
theorem charOf?_encodeChar_eq_legible_iff :
    charOf? (encodeChar c) = some (legible c) ↔ c ∉ missed := by
  rw [legible]
  constructor
  · intro h hmissed
    have hspace : c ≠ '\u00A0' := fun h ↦ absurd (h ▸ hmissed) (by decide)
    rw [encodeChar_missed c hmissed, if_neg hspace, if_pos (hasCode_missed hmissed)] at h
    obtain rfl := Option.some.inj (show some '?' = some c from h)
    exact absurd hmissed (by decide)
  · intro hmissed
    have hshows := displays_encodeChar_iff.mpr hmissed
    split_ifs with hspace hcode
    · rw [hspace]
      decide
    · exact hshows.resolve_right fun h ↦ h.elim (hspace ·.1) (·.1 hcode)
    · obtain hcode' | ⟨hspace', -⟩ | ⟨-, hmark⟩ := hshows
      · exact absurd ⟨_, hcode'⟩ hcode
      · exact absurd hspace' hspace
      · rw [hmark]
        decide

theorem le_toNat_marks : ∀ mark ∈ marks, 0x80 ≤ mark.1.toNat := by
  decide

theorem encode_eq_toUTF8 {text : String} (hascii : ∀ c ∈ text.toList, c.toNat < 0x80) :
    encode text = text.toUTF8.data.toList := by
  have hbyte (c : Char) (hc : c.toNat < 0x80) : String.utf8EncodeChar c = [encodeChar c] := by
    have hlookup : marks.lookup c = none := List.lookup_eq_none_iff.mpr fun mark hmark ↦ by
      have hle := le_toNat_marks mark hmark
      simp only [bne_iff_ne]
      rintro rfl
      omega
    rw [encodeChar, hlookup]
    simp only [if_neg (show c.toNat ≠ 0xA0 by omega), if_pos (Or.inl hc)]
    have hv : c.val.toNat = c.toNat := rfl
    simp only [String.utf8EncodeChar, hv, if_pos (show c.toNat ≤ 0x7F by omega)]
  rw [encode, Utf8.toList_toUTF8, List.map_eq_flatMap]
  exact List.flatMap_congr fun c hc ↦ (hbyte c (hascii c hc)).symm

end ReportPress.Text.WinAnsi
