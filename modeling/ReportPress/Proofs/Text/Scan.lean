import Mathlib
import ReportPress.Proofs.Text.Utf8

/-!
# Invalid bytes and the characters between them

Input is read by maximal invalid parts, and what is invalid leaves nothing behind. So it comes to
the same as a scan that goes on by a single byte wherever no character begins: the bytes that an
invalid part has besides its first all go on with a character, and none of them begins one.

For the same reason reading starts afresh at every byte that does not go on with a character
(`kept_append`). No character is lost on account of what stands before it.
-/

namespace ReportPress.Text.Utf8

-- Powers are those of the core library, whatever else is in scope.
attribute [local instance (2000)] instPowNat

variable {b : UInt8} {bytes front back rest tail : List UInt8} {text : List Char}

/-! ## Bytes that go on with a character -/

/-- Whether a byte goes on with a character. -/
def GoesOn (b : UInt8) : Prop := 0x80 ≤ b.toNat ∧ b.toNat ≤ 0xBF

theorem lead?_of_goesOn (h : GoesOn b) : lead? b = none := by
  obtain ⟨hleast, hgreatest⟩ := h
  rw [lead?_eq, if_neg (by omega), if_pos (by omega)]

/-- What a first byte promises, by the number of bytes that follow. -/
theorem lead?_cases {lead : Lead} (h : lead? b = some lead) :
    (b.toNat < 0x80 ∧ lead.count = 0) ∨
    (lead.least.toNat ≥ 0x80 ∧ lead.greatest.toNat ≤ 0xBF ∧
      ((0xC2 ≤ b.toNat ∧ b.toNat < 0xE0 ∧ lead.count = 1) ∨
      (0xE0 ≤ b.toNat ∧ b.toNat < 0xF0 ∧ lead.count = 2 ∧
        (b.toNat = 0xE0 → 0xA0 ≤ lead.least.toNat) ∧ (b.toNat = 0xED → lead.greatest.toNat ≤ 0x9F)) ∨
      (0xF0 ≤ b.toNat ∧ b.toNat < 0xF5 ∧ lead.count = 3 ∧
        (b.toNat = 0xF0 → 0x90 ≤ lead.least.toNat) ∧ (b.toNat = 0xF4 → lead.greatest.toNat ≤ 0x8F)))) := by
  rw [lead?_eq] at h
  split_ifs at h <;> obtain rfl := Option.some.inj h <;> simp <;> omega

/-- What continues a character goes on with it, and its first byte is in the range that was
promised. -/
theorem of_continuation_eq_cons {count : ℕ} {least greatest : UInt8}
    (h : continuation count least greatest rest = b :: tail) :
    ∃ left others, count = left + 1 ∧ rest = b :: others ∧
      (least.toNat ≤ b.toNat ∧ b.toNat ≤ greatest.toNat) ∧
      continuation left 0x80 0xBF others = tail := by
  cases count with
  | zero => simp [continuation_zero] at h
  | succ left =>
    cases rest with
    | nil => simp [continuation] at h
    | cons first others =>
      rw [continuation] at h
      split at h
      · rename_i hrange
        obtain ⟨rfl, rfl⟩ := List.cons.inj h
        simp only [UInt8.le_iff_toNat_le] at hrange
        exact ⟨left, others, rfl, rfl, hrange, rfl⟩
      · cases h

theorem goesOn_of_mem_continuation {count : ℕ} {least greatest : UInt8} (hleast : 0x80 ≤ least.toNat)
    (hgreatest : greatest.toNat ≤ 0xBF) (hb : b ∈ continuation count least greatest rest) : GoesOn b := by
  induction count generalizing least greatest rest with
  | zero => simp [continuation_zero] at hb
  | succ count ih =>
    obtain ⟨first, tail, htail⟩ := List.exists_cons_of_ne_nil (List.ne_nil_of_mem hb)
    obtain ⟨left, others, hcount, rfl, hrange, hothers⟩ := of_continuation_eq_cons htail
    obtain rfl : count = left := by omega
    rw [htail, List.mem_cons, ← hothers] at hb
    rcases hb with rfl | hb
    · exact ⟨hleast.trans hrange.1, hrange.2.trans hgreatest⟩
    · exact ih (by decide) (by decide) hb

theorem goesOn_of_lead? {lead : Lead} (hlead : lead? b = some lead) :
    ∀ x ∈ continuation lead.count lead.least lead.greatest rest, GoesOn x := by
  rcases lead?_cases hlead with ⟨-, hcount⟩ | ⟨hleast, hgreatest, -⟩
  · simp [hcount, continuation_zero]
  · exact fun x ↦ goesOn_of_mem_continuation hleast hgreatest

theorem continuation_prefix (count : ℕ) (least greatest : UInt8) (rest : List UInt8) :
    continuation count least greatest rest <+: rest := by
  induction count generalizing least greatest rest with
  | zero => simp [continuation_zero]
  | succ count ih =>
    cases htail : continuation (count + 1) least greatest rest with
    | nil => exact List.nil_prefix
    | cons first tail =>
      obtain ⟨left, others, hcount, rfl, -, rfl⟩ := of_continuation_eq_cons htail
      obtain rfl : count = left := by omega
      exact List.prefix_cons_inj first |>.mpr (ih _ _ others)

/-! ## Characters as they are written -/

theorem utf8EncodeChar_ofNat {v : ℕ} (h : v.isValidChar) :
    String.utf8EncodeChar (Char.ofNat v) =
      if v ≤ 0x7F then [UInt8.ofNat v]
      else if v ≤ 0x7FF then [UInt8.ofNat (v / 64 % 32 + 192), sextet v]
      else if v ≤ 0xFFFF then [UInt8.ofNat (v / 4096 % 16 + 224), sextet (v / 64), sextet v]
      else [UInt8.ofNat (v / 262144 % 8 + 240), sextet (v / 4096), sextet (v / 64), sextet v] := by
  have hv : (Char.ofNat v).val.toNat = v := (Char.toNat_ofNat v).trans (if_pos h)
  simp only [String.utf8EncodeChar, hv]
  rfl

theorem ofNat_eq (b : UInt8) {n : ℕ} (h : n = b.toNat) : UInt8.ofNat n = b := by
  rw [h, UInt8.ofNat_toNat]

theorem sextet_eq {n : ℕ} (hb : GoesOn b) (h : n % 64 = b.toNat % 64) : sextet n = b := by
  obtain ⟨hleast, hgreatest⟩ := hb
  exact ofNat_eq b (by omega)

section Assemble

variable {x y z : UInt8}

theorem utf8EncodeChar_assemble_one (hb : b.toNat < 0x80) :
    String.utf8EncodeChar (assemble b []) = [b] := by
  have hassemble : assemble b [] = Char.ofNat (b.toNat % 128) := rfl
  rw [hassemble, utf8EncodeChar_ofNat (.inl (by omega)), if_pos (by omega), ofNat_eq b (by omega)]

theorem utf8EncodeChar_assemble_two (hb : 0xC2 ≤ b.toNat) (hb' : b.toNat < 0xE0) (hx : GoesOn x) :
    String.utf8EncodeChar (assemble b [x]) = [b, x] := by
  have hassemble : assemble b [x] = Char.ofNat (b.toNat % 32 * 64 + x.toNat % 64) := rfl
  rw [hassemble, utf8EncodeChar_ofNat (.inl (by omega)), if_neg (by omega), if_pos (by omega),
    ofNat_eq b (by omega), sextet_eq hx (by omega)]

theorem utf8EncodeChar_assemble_three (hb : 0xE0 ≤ b.toNat) (hb' : b.toNat < 0xF0) (hx : GoesOn x)
    (hy : GoesOn y) (hlong : b.toNat = 0xE0 → 0xA0 ≤ x.toNat)
    (hsurrogate : b.toNat = 0xED → x.toNat ≤ 0x9F) :
    String.utf8EncodeChar (assemble b [x, y]) = [b, x, y] := by
  have hassemble : assemble b [x, y]
      = Char.ofNat ((b.toNat % 16 * 64 + x.toNat % 64) * 64 + y.toNat % 64) := rfl
  have hx' := hx
  obtain ⟨hleast, hgreatest⟩ := hx'
  rw [hassemble, utf8EncodeChar_ofNat (by rw [Nat.isValidChar]; omega), if_neg (by omega), if_neg (by omega),
    if_pos (by omega), ofNat_eq b (by omega), sextet_eq hx (by omega), sextet_eq hy (by omega)]

theorem utf8EncodeChar_assemble_four (hb : 0xF0 ≤ b.toNat) (hb' : b.toNat < 0xF5) (hx : GoesOn x)
    (hy : GoesOn y) (hz : GoesOn z) (hlong : b.toNat = 0xF0 → 0x90 ≤ x.toNat)
    (hlarge : b.toNat = 0xF4 → x.toNat ≤ 0x8F) :
    String.utf8EncodeChar (assemble b [x, y, z]) = [b, x, y, z] := by
  have hassemble : assemble b [x, y, z] = Char.ofNat
      (((b.toNat % 8 * 64 + x.toNat % 64) * 64 + y.toNat % 64) * 64 + z.toNat % 64) := rfl
  have hx' := hx
  obtain ⟨hleast, hgreatest⟩ := hx'
  rw [hassemble, utf8EncodeChar_ofNat (by rw [Nat.isValidChar]; omega), if_neg (by omega), if_neg (by omega),
    if_neg (by omega), ofNat_eq b (by omega), sextet_eq hx (by omega), sextet_eq hy (by omega),
    sextet_eq hz (by omega)]

end Assemble

/-- **A first byte with all that it promises is a character as it is written.** -/
theorem utf8EncodeChar_assemble {lead : Lead} (hlead : lead? b = some lead)
    (htail : continuation lead.count lead.least lead.greatest rest = tail)
    (hlength : tail.length = lead.count) :
    String.utf8EncodeChar (assemble b tail) = b :: tail := by
  have hgoesOn : ∀ x ∈ tail, GoesOn x := htail ▸ goesOn_of_lead? hlead
  rcases lead?_cases hlead with ⟨hb, hcount⟩ | ⟨-, -, hmore⟩
  · obtain rfl : tail = [] := List.eq_nil_of_length_eq_zero (hlength.trans hcount)
    exact utf8EncodeChar_assemble_one hb
  · rcases hmore with ⟨hb, hb', hcount⟩ | ⟨hb, hb', hcount, hlong, hlast⟩ | ⟨hb, hb', hcount, hlong, hlast⟩
    · obtain ⟨x, rfl⟩ := List.length_eq_one_iff.mp (hlength.trans hcount)
      exact utf8EncodeChar_assemble_two hb hb' (hgoesOn x (by simp))
    · obtain ⟨x, y, rfl⟩ := List.length_eq_two.mp (hlength.trans hcount)
      obtain ⟨_, _, _, _, hrange, _⟩ := of_continuation_eq_cons htail
      exact utf8EncodeChar_assemble_three hb hb' (hgoesOn x (by simp)) (hgoesOn y (by simp))
        (fun h ↦ (hlong h).trans hrange.1) fun h ↦ hrange.2.trans (hlast h)
    · obtain ⟨x, y, z, rfl⟩ := List.length_eq_three.mp (hlength.trans hcount)
      obtain ⟨_, _, _, _, hrange, _⟩ := of_continuation_eq_cons htail
      exact utf8EncodeChar_assemble_four hb hb' (hgoesOn x (by simp)) (hgoesOn y (by simp))
        (hgoesOn z (by simp)) (fun h ↦ (hlong h).trans hrange.1) fun h ↦ hrange.2.trans (hlast h)

theorem goesOn_sextet (n : ℕ) : GoesOn (sextet n) := by
  rw [GoesOn, toNat_sextet]
  omega

/-- A character begins with a byte that does not go on with one; all its other bytes do. -/
theorem exists_utf8EncodeChar (c : Char) :
    ∃ first tail, String.utf8EncodeChar c = first :: tail ∧ ¬GoesOn first ∧ ∀ b ∈ tail, GoesOn b := by
  have hfirst {n : ℕ} (hlt : n < 256) (hn : n < 0x80 ∨ 0xBF < n) : ¬GoesOn (UInt8.ofNat n) := by
    rw [GoesOn, toNat_ofNat_of_lt hlt]
    omega
  rw [← Char.ofNat_toNat c, utf8EncodeChar_ofNat (toNat_valid c)]
  split_ifs
  · exact ⟨_, _, rfl, hfirst (by omega) (by omega), by simp⟩
  · exact ⟨_, _, rfl, hfirst (by omega) (by omega), by simp [goesOn_sextet]⟩
  · exact ⟨_, _, rfl, hfirst (by omega) (by omega), by simp [goesOn_sextet]⟩
  · exact ⟨_, _, rfl, hfirst (by omega) (by omega), by simp [goesOn_sextet]⟩

theorem length_utf8EncodeChar_pos (c : Char) : 0 < (String.utf8EncodeChar c).length := by
  obtain ⟨first, tail, hwritten, -⟩ := exists_utf8EncodeChar c
  rw [hwritten]
  exact Nat.zero_lt_succ _

/-! ## What is kept -/

/-- The characters that are kept of bytes. -/
def kept (bytes : List UInt8) : List Char := (decodeLossy bytes).filter (· ≠ replacement)

/-- What is kept of a character: itself, unless it is the replacement character. -/
def keptChar (c : Char) : List Char := if c = replacement then [] else [c]

theorem decodeOnto_eq (done : List Char) (bytes : List UInt8) :
    decodeOnto done bytes = done.reverse ++ decodeLossy bytes := by
  induction hn : bytes.length using Nat.strong_induction_on generalizing done bytes with
  | h n ih =>
    cases bytes with
    | nil => simp [decodeLossy, decodeOnto]
    | cons b rest =>
      have hnext (c : Char) (count : ℕ) (done : List Char) :
          decodeOnto (c :: done) (rest.drop count) = done.reverse ++ c :: decodeLossy (rest.drop count) := by
        have hlt : (rest.drop count).length < n := by
          rw [← hn, List.length_drop, List.length_cons]
          omega
        rw [ih _ hlt _ _ rfl, List.reverse_cons, List.append_assoc, List.singleton_append]
      rw [decodeLossy, decodeOnto, decodeOnto]
      cases lead? b with
      | none =>
        have hrest := hnext replacement 0
        rw [List.drop_zero] at hrest
        simp only [hrest, List.reverse_nil, List.nil_append]
      | some lead => simp only [hnext, List.reverse_nil, List.nil_append]

@[simp] theorem kept_nil : kept [] = [] := by
  rw [kept, decodeLossy, decodeOnto]
  rfl

theorem filter_decodeOnto (c : Char) (bytes : List UInt8) :
    (decodeOnto [c] bytes).filter (· ≠ replacement) = keptChar c ++ kept bytes := by
  rw [decodeOnto_eq, List.filter_append, List.reverse_singleton, List.filter_singleton, kept, keptChar]
  simp

/-- A character is kept, and reading goes on behind it. -/
theorem kept_char (c : Char) (rest : List UInt8) :
    kept (String.utf8EncodeChar c ++ rest) = keptChar c ++ kept rest := by
  rw [kept, decodeLossy, decodeOnto_utf8EncodeChar, filter_decodeOnto]

theorem kept_cons_of_lead?_eq_none (h : lead? b = none) (rest : List UInt8) :
    kept (b :: rest) = kept rest := by
  rw [kept, decodeLossy, decodeOnto, h]
  exact filter_decodeOnto replacement rest

theorem kept_append_of_goesOn (h : ∀ b ∈ tail, GoesOn b) (rest : List UInt8) :
    kept (tail ++ rest) = kept rest := by
  induction tail with
  | nil => rfl
  | cons b tail ih =>
    obtain ⟨hb, htail⟩ := List.forall_mem_cons.mp h
    rw [List.cons_append, kept_cons_of_lead?_eq_none (lead?_of_goesOn hb), ih htail]

/-- **Where no character begins, reading goes on behind the next byte.** The invalid part that the
byte begins may be longer, but nothing is kept of its other bytes either. -/
theorem kept_cons_of_forall_ne (h : ∀ c back, b :: rest ≠ String.utf8EncodeChar c ++ back) :
    kept (b :: rest) = kept rest := by
  cases hlead : lead? b with
  | none => exact kept_cons_of_lead?_eq_none hlead rest
  | some lead =>
    set tail := continuation lead.count lead.least lead.greatest rest with htail
    obtain ⟨back, hback⟩ : tail <+: rest := continuation_prefix ..
    have hbroken : tail.length ≠ lead.count := by
      intro hlength
      refine h (assemble b tail) back ?_
      rw [utf8EncodeChar_assemble hlead htail.symm hlength, List.cons_append, hback]
    have hkept : kept (b :: rest) = kept (rest.drop tail.length) := by
      rw [kept, decodeLossy, decodeOnto, hlead]
      simp only [← htail, if_neg hbroken]
      exact filter_decodeOnto replacement _
    rw [hkept, ← hback, List.drop_left, kept_append_of_goesOn (goesOn_of_lead? hlead)]

/-! ## The scan -/

/-- **The scan by bytes.** Where a character begins, it is kept, unless it is the replacement
character, and the scan goes on behind it. Where none begins, the scan goes on behind the next
byte. -/
inductive Scans : List UInt8 → List Char → Prop
  | done : Scans [] []
  /-- At a character. -/
  | char {rest : List UInt8} {text : List Char} (c : Char) (hrest : Scans rest text) :
      Scans (String.utf8EncodeChar c ++ rest) (if c = replacement then text else c :: text)
  /-- At a byte that begins none. -/
  | drop {b : UInt8} {rest : List UInt8} {text : List Char}
      (hnone : ∀ c back, b :: rest ≠ String.utf8EncodeChar c ++ back) (hrest : Scans rest text) :
      Scans (b :: rest) text

theorem keptChar_append (c : Char) (text : List Char) :
    keptChar c ++ text = if c = replacement then text else c :: text := by
  rw [keptChar]
  split <;> rfl

theorem Scans.eq_kept (h : Scans bytes text) : text = kept bytes := by
  induction h with
  | done => rw [kept_nil]
  | char c _ ih => rw [kept_char, keptChar_append, ih]
  | drop hnone _ ih => rw [kept_cons_of_forall_ne hnone, ih]

theorem scans_kept (bytes : List UInt8) : Scans bytes (kept bytes) := by
  -- By induction on how many bytes are left, since a character may take several.
  induction hn : bytes.length using Nat.strong_induction_on generalizing bytes with
  | h n ih =>
    cases bytes with
    | nil => exact kept_nil ▸ .done
    | cons b rest =>
      by_cases h : ∃ c back, b :: rest = String.utf8EncodeChar c ++ back
      · obtain ⟨c, back, hback⟩ := h
        have hlt : back.length < n := by
          rw [← hn, hback, List.length_append]
          have := length_utf8EncodeChar_pos c
          omega
        rw [hback, kept_char, keptChar_append]
        exact .char c (ih _ hlt back rfl)
      · have hnone : ∀ c back, b :: rest ≠ String.utf8EncodeChar c ++ back :=
          fun c back heq ↦ h ⟨c, back, heq⟩
        have hlt : rest.length < n := by
          rw [← hn, List.length_cons]
          omega
        rw [kept_cons_of_forall_ne hnone]
        exact .drop hnone (ih _ hlt rest rfl)

/-! ## Where reading starts afresh -/

/-- A character at the front of bytes ends before any byte that does not go on with one. -/
theorem exists_front_of_append_eq {c : Char} {more : List UInt8} (hne : front ≠ [])
    (hback : ∀ b, back.head? = some b → ¬GoesOn b) (h : front ++ back = String.utf8EncodeChar c ++ more) :
    ∃ others, front = String.utf8EncodeChar c ++ others := by
  rcases List.append_eq_append_iff.mp h with ⟨beyond, hchar, rfl⟩ | ⟨others, hfront, -⟩
  · cases beyond with
    | nil => exact ⟨[], by rw [hchar, List.append_nil, List.append_nil]⟩
    | cons x beyond =>
      -- The character would go on into what stands behind.
      obtain ⟨first, tail, hwritten, -, htail⟩ := exists_utf8EncodeChar c
      obtain ⟨b, rest, rfl⟩ := List.exists_cons_of_ne_nil hne
      rw [hwritten, List.cons_append] at hchar
      have hx : x ∈ tail := (List.cons.inj hchar).2 ▸ List.mem_append_right rest List.mem_cons_self
      exact absurd (htail x hx) (hback x rfl)
  · exact ⟨others, hfront⟩

/-- **Reading starts afresh at every byte that does not go on with a character.** -/
theorem kept_append (front : List UInt8) (hback : ∀ b, back.head? = some b → ¬GoesOn b) :
    kept (front ++ back) = kept front ++ kept back := by
  obtain ⟨text, hscan⟩ : ∃ text, Scans front text := ⟨_, scans_kept front⟩
  induction hscan with
  | done => rw [List.nil_append, kept_nil, List.nil_append]
  | char c _ ih => rw [List.append_assoc, kept_char, kept_char, ih, List.append_assoc]
  | @drop b rest _ hnone _ ih =>
    have hwhole : ∀ c more, b :: (rest ++ back) ≠ String.utf8EncodeChar c ++ more := by
      intro c more heq
      obtain ⟨others, hfront⟩ := exists_front_of_append_eq (List.cons_ne_nil b rest) hback heq
      exact hnone c others hfront
    rw [List.cons_append, kept_cons_of_forall_ne hwhole, kept_cons_of_forall_ne hnone, ih]

/-! ## Input -/

theorem toList_decodeInput (bytes : ByteArray) :
    (decodeInput bytes).toList = kept bytes.data.toList := by
  rw [decodeInput, String.toList_ofList, kept]

theorem toList_append_toUTF8_append (front back : ByteArray) (c : Char) :
    (front ++ c.toString.toUTF8 ++ back).data.toList
      = front.data.toList ++ (String.utf8EncodeChar c ++ back.data.toList) := by
  rw [ByteArray.data_append, ByteArray.data_append, Array.toList_append, Array.toList_append,
    toList_toUTF8, List.append_assoc]
  simp

/-- **Input is what the scan by bytes makes of it**, and nothing else comes out of the scan. A
character anywhere in the input stands between what is kept of the input in front of it and behind
it. No replacement character is kept, and a text is read as it was if it has none. -/
theorem decodeInput_scans :
    (∀ (bytes : ByteArray) (text : List Char),
      Scans bytes.data.toList text ↔ (decodeInput bytes).toList = text) ∧
    (∀ (front back : ByteArray) (c : Char),
      decodeInput (front ++ c.toString.toUTF8 ++ back)
        = decodeInput front ++ (if c = replacement then "" else c.toString) ++ decodeInput back) ∧
    (∀ bytes : ByteArray, replacement ∉ (decodeInput bytes).toList) ∧
    ∀ text : String, decodeInput text.toUTF8 = text ↔ replacement ∉ text.toList := by
  refine ⟨fun bytes text ↦ ?_, fun front back c ↦ ?_, fun bytes ↦ ?_, fun text ↦ ?_⟩
  · rw [toList_decodeInput]
    exact ⟨fun h ↦ h.eq_kept.symm, fun h ↦ h ▸ scans_kept _⟩
  · have hstart : ∀ b, (String.utf8EncodeChar c ++ back.data.toList).head? = some b → ¬GoesOn b := by
      obtain ⟨first, tail, hwritten, hfirst, -⟩ := exists_utf8EncodeChar c
      intro b hb
      rw [hwritten] at hb
      exact Option.some.inj hb ▸ hfirst
    rw [← String.toList_inj, toList_decodeInput, toList_append_toUTF8_append, kept_append _ hstart,
      kept_char, String.toList_append, String.toList_append, toList_decodeInput, toList_decodeInput,
      List.append_assoc]
    congr 2
    rw [keptChar]
    split <;> simp
  · rw [toList_decodeInput, kept]
    simp
  · rw [decodeInput_toUTF8, ← String.toList_inj, String.toList_ofList, List.filter_eq_self]
    exact ⟨fun h hmem ↦ of_decide_eq_true (h _ hmem) rfl,
      fun h c hc ↦ decide_eq_true fun heq ↦ h (heq ▸ hc)⟩

-- A character that breaks off, a surrogate and a number past the last character, around a letter.
example : decodeInput ⟨#[0xE2, 0x82, 0x41, 0xED, 0xA0, 0x80, 0xF4, 0x90, 0x80, 0x80]⟩ = "A" := by
  cbv

end ReportPress.Text.Utf8
