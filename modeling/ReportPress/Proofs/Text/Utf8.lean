import Mathlib
import ReportPress.Text.Utf8

/-!
# Texts written as bytes

A text that is written in UTF-8 is read as it was. Each of its characters is written as a first byte
that promises as many bytes as follow, in the range it promises, and what these put together is the
number of the character (`decodeOnto_utf8EncodeChar`). An input text comes back without the
replacement characters in it.
-/

namespace ReportPress.Text.Utf8

-- Powers are those of the core library, whatever else is in scope.
attribute [local instance (2000)] instPowNat

variable {b : UInt8} {rest : List UInt8} {done : List Char}

theorem lead?_eq (b : UInt8) :
    lead? b =
      if b.toNat < 0x80 then some ⟨0, 0, 0⟩
      else if b.toNat < 0xC2 then none
      else if b.toNat < 0xE0 then some ⟨1, 0x80, 0xBF⟩
      else if b.toNat = 0xE0 then some ⟨2, 0xA0, 0xBF⟩
      else if b.toNat = 0xED then some ⟨2, 0x80, 0x9F⟩
      else if b.toNat < 0xF0 then some ⟨2, 0x80, 0xBF⟩
      else if b.toNat = 0xF0 then some ⟨3, 0x90, 0xBF⟩
      else if b.toNat < 0xF4 then some ⟨3, 0x80, 0xBF⟩
      else if b.toNat = 0xF4 then some ⟨3, 0x80, 0x8F⟩
      else none := by
  simp only [lead?, UInt8.lt_iff_toNat_lt, ← UInt8.toNat_inj]
  rfl

theorem continuation_zero (least greatest : UInt8) (bytes : List UInt8) :
    continuation 0 least greatest bytes = [] := by
  cases bytes <;> rfl

theorem continuation_cons {count : ℕ} {least greatest : UInt8}
    (hleast : least.toNat ≤ b.toNat) (hgreatest : b.toNat ≤ greatest.toNat) :
    continuation (count + 1) least greatest (b :: rest)
      = b :: continuation count 0x80 0xBF rest :=
  if_pos ⟨UInt8.le_iff_toNat_le.mpr hleast, UInt8.le_iff_toNat_le.mpr hgreatest⟩

/-- A first byte with all that it promises is read as the character that they encode. -/
theorem decodeOnto_of_lead (done : List Char) {first : UInt8} (tail rest : List UInt8) {lead : Lead}
    (hlead : lead? first = some lead)
    (htail : continuation lead.count lead.least lead.greatest (tail ++ rest) = tail)
    (hlength : tail.length = lead.count) :
    decodeOnto done (first :: (tail ++ rest)) = decodeOnto (assemble first tail :: done) rest := by
  rw [decodeOnto, hlead]
  simp only [htail, hlength, if_true]
  rw [← hlength, List.drop_left]

/-! ## Characters -/

theorem toNat_ofNat_of_lt {n : ℕ} (h : n < 256) : (UInt8.ofNat n).toNat = n := by
  rw [UInt8.toNat_ofNat']
  omega

/-- A byte that goes on with six bits of a number. -/
def sextet (n : ℕ) : UInt8 := UInt8.ofNat (n % 64 + 128)

theorem toNat_sextet (n : ℕ) : (sextet n).toNat = n % 64 + 128 := toNat_ofNat_of_lt (by omega)

theorem continuation_sextet (count n : ℕ) (rest : List UInt8) :
    continuation (count + 1) 0x80 0xBF (sextet n :: rest)
      = sextet n :: continuation count 0x80 0xBF rest := by
  have hsextet := toNat_sextet n
  refine continuation_cons ?_ ?_
  · show 128 ≤ _
    omega
  · show _ ≤ 191
    omega

/-- What a first byte and sextets put together: the low bits of the byte, then those of the
sextets. -/
theorem assemble_sextets (first : UInt8) (ns : List ℕ) :
    assemble first (ns.map sextet) = Char.ofNat (ns.foldl (fun n m ↦ n * 64 + m % 64)
      (first.toNat % 2 ^ (if ns.length = 0 then 7 else 6 - ns.length))) := by
  have hbits (m : ℕ) : (sextet m).toNat % 64 = m % 64 := by
    rw [toNat_sextet]
    omega
  simp only [assemble, List.length_map, List.foldl_map, hbits]

/-! ### By the number of bytes -/

theorem decodeOnto_one {v : ℕ} (h : v ≤ 0x7F) :
    decodeOnto done (UInt8.ofNat v :: rest) = decodeOnto (Char.ofNat v :: done) rest := by
  have hfirst : (UInt8.ofNat v).toNat = v := toNat_ofNat_of_lt (by omega)
  have hlead : lead? (UInt8.ofNat v) = some ⟨0, 0, 0⟩ := by
    rw [lead?_eq, hfirst, if_pos (by omega)]
  have hread := decodeOnto_of_lead done ([].map sextet) rest hlead
    (continuation_zero ..) rfl
  have hv : v % 2 ^ 7 = v := Nat.mod_eq_of_lt (by omega)
  rwa [assemble_sextets, hfirst, List.foldl_nil, List.length_nil, if_pos rfl, hv] at hread

theorem decodeOnto_two {v : ℕ} (h : 0x7F < v) (h' : v ≤ 0x7FF) :
    decodeOnto done (UInt8.ofNat (v / 64 % 32 + 192) :: sextet v :: rest)
      = decodeOnto (Char.ofNat v :: done) rest := by
  have hfirst : (UInt8.ofNat (v / 64 % 32 + 192)).toNat = v / 64 + 192 := by
    rw [toNat_ofNat_of_lt (by omega)]
    omega
  have hlead : lead? (UInt8.ofNat (v / 64 % 32 + 192)) = some ⟨1, 0x80, 0xBF⟩ := by
    rw [lead?_eq, hfirst, if_neg (by omega), if_neg (by omega), if_pos (by omega)]
  have hread := decodeOnto_of_lead done ([v].map sextet) rest hlead
    (by simp only [List.map_cons, List.map_nil, List.cons_append, List.nil_append,
          continuation_sextet, continuation_zero]) rfl
  have hv : (v / 64 + 192) % 2 ^ (6 - 1) * 64 + v % 64 = v := by omega
  rwa [assemble_sextets, hfirst, List.foldl_cons, List.foldl_nil, List.length_singleton,
    if_neg (by decide), hv] at hread

theorem decodeOnto_three {v : ℕ} (h : 0x7FF < v) (h' : v ≤ 0xFFFF) (hvalid : v < 0xD800 ∨ 0xDFFF < v) :
    decodeOnto done (UInt8.ofNat (v / 4096 % 16 + 224) :: sextet (v / 64) :: sextet v :: rest)
      = decodeOnto (Char.ofNat v :: done) rest := by
  have hfirst : (UInt8.ofNat (v / 4096 % 16 + 224)).toNat = v / 4096 + 224 := by
    rw [toNat_ofNat_of_lt (by omega)]
    omega
  have hsecond := toNat_sextet (v / 64)
  -- The first byte narrows the second where a number would be too small, or a surrogate.
  obtain ⟨least, greatest, hlead, hleast, hgreatest⟩ : ∃ least greatest,
      lead? (UInt8.ofNat (v / 4096 % 16 + 224)) = some ⟨2, least, greatest⟩ ∧
        least.toNat ≤ (sextet (v / 64)).toNat ∧ (sextet (v / 64)).toNat ≤ greatest.toNat := by
    rw [lead?_eq, hfirst, hsecond, if_neg (by omega), if_neg (by omega), if_neg (by omega)]
    by_cases hlow : v / 4096 + 224 = 0xE0
    · exact ⟨0xA0, 0xBF, if_pos hlow, show 160 ≤ _ by omega, show _ ≤ 191 by omega⟩
    rw [if_neg hlow]
    by_cases hmiddle : v / 4096 + 224 = 0xED
    · exact ⟨0x80, 0x9F, if_pos hmiddle, show 128 ≤ _ by omega, show _ ≤ 159 by omega⟩
    rw [if_neg hmiddle]
    exact ⟨0x80, 0xBF, if_pos (by omega), show 128 ≤ _ by omega, show _ ≤ 191 by omega⟩
  have hread := decodeOnto_of_lead done ([v / 64, v].map sextet) rest hlead (by
      simp only [List.map_cons, List.map_nil, List.cons_append, List.nil_append,
        continuation_cons hleast hgreatest, continuation_sextet, continuation_zero]) rfl
  have hv : ((v / 4096 + 224) % 2 ^ (6 - 2) * 64 + v / 64 % 64) * 64 + v % 64 = v := by omega
  rwa [assemble_sextets, hfirst, List.foldl_cons, List.foldl_cons, List.foldl_nil,
    if_neg (by simp), show [v / 64, v].length = 2 from rfl, hv] at hread

theorem decodeOnto_four {v : ℕ} (h : 0xFFFF < v) (h' : v < 0x110000) :
    decodeOnto done (UInt8.ofNat (v / 262144 % 8 + 240) :: sextet (v / 4096) :: sextet (v / 64) ::
        sextet v :: rest)
      = decodeOnto (Char.ofNat v :: done) rest := by
  have hfirst : (UInt8.ofNat (v / 262144 % 8 + 240)).toNat = v / 262144 + 240 := by
    rw [toNat_ofNat_of_lt (by omega)]
    omega
  have hsecond := toNat_sextet (v / 4096)
  -- The first byte narrows the second where a number would be too small or too large.
  obtain ⟨least, greatest, hlead, hleast, hgreatest⟩ : ∃ least greatest,
      lead? (UInt8.ofNat (v / 262144 % 8 + 240)) = some ⟨3, least, greatest⟩ ∧
        least.toNat ≤ (sextet (v / 4096)).toNat ∧ (sextet (v / 4096)).toNat ≤ greatest.toNat := by
    rw [lead?_eq, hfirst, hsecond, if_neg (by omega), if_neg (by omega), if_neg (by omega),
      if_neg (by omega), if_neg (by omega), if_neg (by omega)]
    by_cases hlow : v / 262144 + 240 = 0xF0
    · exact ⟨0x90, 0xBF, if_pos hlow, show 144 ≤ _ by omega, show _ ≤ 191 by omega⟩
    rw [if_neg hlow]
    by_cases hmiddle : v / 262144 + 240 < 0xF4
    · exact ⟨0x80, 0xBF, if_pos hmiddle, show 128 ≤ _ by omega, show _ ≤ 191 by omega⟩
    rw [if_neg hmiddle]
    exact ⟨0x80, 0x8F, if_pos (by omega), show 128 ≤ _ by omega, show _ ≤ 143 by omega⟩
  have hread := decodeOnto_of_lead done ([v / 4096, v / 64, v].map sextet) rest hlead (by
      simp only [List.map_cons, List.map_nil, List.cons_append, List.nil_append,
        continuation_cons hleast hgreatest, continuation_sextet, continuation_zero]) rfl
  have hv : (((v / 262144 + 240) % 2 ^ (6 - 3) * 64 + v / 4096 % 64) * 64 + v / 64 % 64) * 64
      + v % 64 = v := by omega
  rwa [assemble_sextets, hfirst, List.foldl_cons, List.foldl_cons, List.foldl_cons, List.foldl_nil,
    if_neg (by simp), show [v / 4096, v / 64, v].length = 3 from rfl, hv] at hread

theorem toNat_valid (c : Char) : c.toNat < 0xD800 ∨ (0xDFFF < c.toNat ∧ c.toNat < 0x110000) := c.valid

/-- **A character is read as it is written.** -/
theorem decodeOnto_utf8EncodeChar (c : Char) (done : List Char) (rest : List UInt8) :
    decodeOnto done (String.utf8EncodeChar c ++ rest) = decodeOnto (c :: done) rest := by
  have hvalid := toNat_valid c
  have hv : c.val.toNat = c.toNat := rfl
  conv_rhs => rw [← Char.ofNat_toNat c]
  simp only [String.utf8EncodeChar, hv]
  generalize c.toNat = v at *
  by_cases hone : v ≤ 0x7F
  · rw [if_pos hone]
    exact decodeOnto_one hone
  rw [if_neg hone]
  by_cases htwo : v ≤ 0x7FF
  · rw [if_pos htwo]
    exact decodeOnto_two (by omega) htwo
  rw [if_neg htwo]
  by_cases hthree : v ≤ 0xFFFF
  · rw [if_pos hthree]
    exact decodeOnto_three (by omega) hthree (by omega)
  rw [if_neg hthree]
  exact decodeOnto_four (by omega) (by omega)

/-! ## Texts -/

theorem decodeOnto_flatMap (cs done : List Char) :
    decodeOnto done (cs.flatMap String.utf8EncodeChar) = done.reverse ++ cs := by
  induction cs generalizing done with
  | nil => simp [decodeOnto]
  | cons c cs ih =>
    rw [List.flatMap_cons, decodeOnto_utf8EncodeChar, ih, List.reverse_cons, List.append_assoc]
    rfl

theorem toList_toUTF8 (text : String) :
    text.toUTF8.data.toList = text.toList.flatMap String.utf8EncodeChar := by
  conv_lhs => rw [← String.ofList_toList (s := text), String.toUTF8_eq_toByteArray,
    String.toByteArray_ofList, List.utf8Encode]
  simp

theorem decodeLossy_toUTF8 (text : String) : decodeLossy text.toUTF8.data.toList = text.toList := by
  rw [toList_toUTF8, decodeLossy, decodeOnto_flatMap]
  rfl

/-- As input, it comes back without the replacement characters in it. -/
theorem decodeInput_toUTF8 (text : String) :
    decodeInput text.toUTF8 = String.ofList (text.toList.filter (· ≠ replacement)) := by
  rw [decodeInput, decodeLossy_toUTF8]

end ReportPress.Text.Utf8
