import Mathlib
import ReportPress.Proofs.Number.Unpacked

/-!
# The values of single-precision numbers

Every finite number has an exact rational value, and the operations are about values: a comparison
compares them (`le_iff`), and a subtraction is exact as soon as the difference of the two values is
the value of some number (`value?_sub`). That is so for whole numbers below `2 ^ 24`, which are all
values (`value?_ofInt`).
-/

namespace ReportPress.Number.Single

open Float.Model Float.Model.UnpackedFloat

/-! ## Values -/

/-- The magnitude with its sign, counted in units of the smallest positive number. -/
def signedUnits (x : Float32) : ℤ := (sign x).apply (BinaryFormat.single.units (code x) : ℕ)

/-- The value of a finite number. -/
def value? (x : Float32) : Option ℚ :=
  if IsFinite x then some (signedUnits x / 2 ^ BinaryFormat.single.unitExponent) else none

def IsValue (a : ℚ) : Prop := ∃ x, value? x = some a

theorem value?_eq_some {x : Float32} {a : ℚ} :
    value? x = some a ↔ IsFinite x ∧ (signedUnits x : ℚ) = a * 2 ^ 149 := by
  have hunit : BinaryFormat.single.unitExponent = 149 := rfl
  by_cases h : IsFinite x
  · rw [value?, hunit, if_pos h, Option.some_inj, div_eq_iff (by positivity), and_iff_right h]
  · simp [value?, h]

theorem signedUnits_eq_zero {x : Float32} : signedUnits x = 0 ↔ code x = 0 := by
  unfold signedUnits
  constructor
  · intro h
    by_contra hcode
    have := units_pos hcode
    cases hsign : sign x <;> simp only [hsign, Sign.apply] at h <;> omega
  · intro h
    rw [h, units_zero]
    cases sign x <;> rfl

/-! ## Subtraction -/

section Exact

variable {x y z : Float32}

theorem round_eq_unpack (hz : IsFinite z) {s : Sign} {n : ℕ} {f : ℤ} (hn : 0 < n) (hf : -149 ≤ f)
    (h : s.apply (n * 2 ^ (f + 149).toNat : ℕ) = signedUnits z) :
    UnpackedFloat.round Format.binary32 s n f = z.toModel.unpack := by
  have hpos : 0 < n * 2 ^ (f + 149).toNat := by positivity
  have hcode : code z ≠ 0 := by
    intro hcode
    rw [signedUnits_eq_zero.mpr hcode] at h
    cases s <;> simp only [Sign.apply] at h <;> omega
  have hunits := units_pos hcode
  obtain ⟨rfl, hsame⟩ : s = sign z ∧
      n * 2 ^ (f + 149).toNat = BinaryFormat.single.units (code z) := by
    unfold signedUnits at h
    cases s <;> cases hsign : sign z <;> simp only [hsign, Sign.apply] at h <;>
      simp only [reduceCtorEq, true_and, false_and] <;> omega
  rw [unpack_eq hz, dif_neg hcode]
  rw [units_eq] at hsame
  exact round_eq _ (canonical hcode) hf hsame

theorem normalize_eq_unpack (hz : IsFinite z) {m f : ℤ} (hm : m ≠ 0) (hf : -149 ≤ f)
    (h : m * 2 ^ (f + 149).toNat = signedUnits z) (zeroSign : Sign) :
    UnpackedFloat.normalize Format.binary32 m f zeroSign = z.toModel.unpack := by
  rcases lt_or_gt_of_ne hm with hneg | hpos
  · simp only [UnpackedFloat.normalize, compare_lt_iff_lt.mpr hneg]
    refine round_eq_unpack hz (by omega) hf ?_
    rw [← h, Sign.apply]
    push_cast
    rw [Int.toNat_of_nonneg (by omega)]
    ring
  · simp only [UnpackedFloat.normalize, compare_gt_iff_gt.mpr hpos]
    refine round_eq_unpack hz (by omega) hf ?_
    rw [← h, Sign.apply]
    push_cast
    rw [Int.toNat_of_nonneg (by omega)]

theorem finite_eq_unpack (hz : IsFinite z) {s : Sign} {c : ℕ} (hc : c ≠ 0)
    (h : s.apply (BinaryFormat.single.units c : ℕ) = signedUnits z) :
    .finite s (significand c) (exponent c) (significand_pos hc) = z.toModel.unpack := by
  have hcanonical := canonical hc
  rw [units_eq] at h
  rw [← round_eq s hcanonical hcanonical.le rfl]
  exact round_eq_unpack hz hcanonical.pos hcanonical.le h

/-- Two numbers are subtracted at the smaller of their exponents. -/
theorem sub_finite (s t : Sign) (m n : ℕ) (e f : ℤ) (hm : 0 < m) (hn : 0 < n) :
    UnpackedFloat.sub Format.binary32 (.finite s m e hm) (.finite t n f hn)
      = UnpackedFloat.normalize Format.binary32
          (s.apply (decreaseExponent m e (min e f)).1 - t.apply (decreaseExponent n f (min e f)).1)
          (min e f) .positive := rfl

theorem apply_decreaseExponent (s : Sign) (c : ℕ) {f : ℤ} (hf : -149 ≤ f) (hle : f ≤ exponent c) :
    s.apply ((decreaseExponent (significand c) (exponent c) f).1 : ℕ) * 2 ^ (f + 149).toNat
      = s.apply (BinaryFormat.single.units c : ℕ) := by
  rw [decreaseExponent, Nat.shiftLeft_eq, units_eq,
    show (exponent c + 149).toNat = (exponent c - f).toNat + (f + 149).toNat by omega, pow_add,
    ← mul_assoc]
  cases s <;> simp [Sign.apply]

theorem signedUnits_sub (hx : code x ≠ 0) (hy : code y ≠ 0) :
    (sign x).apply (decreaseExponent (significand (code x)) (exponent (code x))
          (min (exponent (code x)) (exponent (code y)))).1 *
        2 ^ (min (exponent (code x)) (exponent (code y)) + 149).toNat -
      (sign y).apply (decreaseExponent (significand (code y)) (exponent (code y))
          (min (exponent (code x)) (exponent (code y)))).1 *
        2 ^ (min (exponent (code x)) (exponent (code y)) + 149).toNat
      = signedUnits x - signedUnits y := by
  have hf := le_min (canonical hx).le (canonical hy).le
  rw [apply_decreaseExponent _ _ hf (min_le_left _ _),
    apply_decreaseExponent _ _ hf (min_le_right _ _)]
  rfl

/-- A difference that is the value of a number, and not zero, comes out as that number. -/
theorem sub_unpack (hx : IsFinite x) (hy : IsFinite y) (hz : IsFinite z) (hne : signedUnits z ≠ 0)
    (h : signedUnits z = signedUnits x - signedUnits y) :
    UnpackedFloat.sub Format.binary32 x.toModel.unpack y.toModel.unpack = z.toModel.unpack := by
  rw [unpack_eq hx, unpack_eq hy]
  -- With a zero on one side the other side is handed on as it is, so nothing is normalised there.
  by_cases hcx : code x = 0
  · rw [signedUnits_eq_zero.mpr hcx] at h
    rw [dif_pos hcx]
    by_cases hcy : code y = 0
    · rw [signedUnits_eq_zero.mpr hcy] at h
      exact absurd h hne
    · rw [dif_neg hcy]
      refine finite_eq_unpack hz hcy ?_
      rw [h, signedUnits, zero_sub]
      cases sign y with
      | negative => exact (neg_neg _).symm
      | positive => rfl
  · rw [dif_neg hcx]
    by_cases hcy : code y = 0
    · rw [signedUnits_eq_zero.mpr hcy, sub_zero] at h
      rw [dif_pos hcy]
      exact finite_eq_unpack hz hcx h.symm
    · rw [← signedUnits_sub hcx hcy, ← sub_mul] at h
      rw [dif_neg hcy, sub_finite]
      refine normalize_eq_unpack hz ?_ (le_min (canonical hcx).le (canonical hcy).le) h.symm _
      intro hm
      rw [hm, zero_mul] at h
      exact hne h

theorem sub_unpack_self (hx : IsFinite x) (hy : IsFinite y) (h : signedUnits x = signedUnits y) :
    ∃ s, UnpackedFloat.sub Format.binary32 x.toModel.unpack y.toModel.unpack = .zero s := by
  have hcodes : code x = 0 ↔ code y = 0 := by
    rw [← signedUnits_eq_zero, h, signedUnits_eq_zero]
  rw [unpack_eq hx, unpack_eq hy]
  by_cases hcx : code x = 0
  · rw [dif_pos hcx, dif_pos (hcodes.mp hcx)]
    cases sign x <;> cases sign y <;> exact ⟨_, rfl⟩
  · have hcy : code y ≠ 0 := mt hcodes.mpr hcx
    have hsame := signedUnits_sub hcx hcy
    rw [h, sub_self, sub_eq_zero, mul_left_inj' (by positivity)] at hsame
    rw [dif_neg hcx, dif_neg hcy, sub_finite, hsame, sub_self]
    exact ⟨.positive, rfl⟩

/-- **A subtraction is exact if the difference is a value.** -/
theorem value?_sub {a b : ℚ} (hx : value? x = some a) (hy : value? y = some b)
    (hab : IsValue (a - b)) : value? (x - y) = some (a - b) := by
  obtain ⟨z, hz⟩ := hab
  obtain ⟨hxfin, hxunits⟩ := value?_eq_some.mp hx
  obtain ⟨hyfin, hyunits⟩ := value?_eq_some.mp hy
  obtain ⟨hzfin, hzunits⟩ := value?_eq_some.mp hz
  have hsub : x - y = Float32.ofModel (Float32.Model.pack
      (UnpackedFloat.sub Format.binary32 x.toModel.unpack y.toModel.unpack)) := rfl
  have hunits : signedUnits z = signedUnits x - signedUnits y := by
    have : (signedUnits z : ℚ) = signedUnits x - signedUnits y := by
      rw [hzunits, hxunits, hyunits]
      ring
    exact_mod_cast this
  -- A zero may come out with the other sign than that of `z`, so it cannot be shown to be `z`.
  by_cases hzero : signedUnits z = 0
  · obtain ⟨s, hs⟩ := sub_unpack_self hxfin hyfin (by omega)
    have hdiff : a - b = 0 := by simpa [hzero] using hzunits.symm
    rw [hsub, hs, hdiff, value?_eq_some]
    cases s <;> simp only [zero_mul, Int.cast_eq_zero] <;> decide
  · rw [hsub, sub_unpack hxfin hyfin hzfin hzero hunits, ofModel_pack_unpack]
    exact hz

end Exact

/-! ## Comparison -/

theorem units_lt_units {c d : ℕ} (hc : c ≠ 0) (hd : d ≠ 0) (h : exponent c < exponent d) :
    BinaryFormat.single.units c < BinaryFormat.single.units d := by
  have hle := (canonical hc).le
  have hfull : 2 ^ 23 ≤ significand d := (canonical hd).full.resolve_right (by omega)
  rw [units_eq, units_eq]
  calc significand c * 2 ^ (exponent c + 149).toNat
      < 2 ^ 24 * 2 ^ (exponent c + 149).toNat :=
        Nat.mul_lt_mul_of_pos_right (canonical hc).lt (by positivity)
    _ = 2 ^ 23 * 2 ^ ((exponent c + 149).toNat + 1) := by ring
    _ ≤ 2 ^ 23 * 2 ^ (exponent d + 149).toNat :=
        Nat.mul_le_mul_left _ (Nat.pow_le_pow_right (by omega) (by omega))
    _ ≤ significand d * 2 ^ (exponent d + 149).toNat := Nat.mul_le_mul_right _ hfull

/-- Comparing exponents first and significands second compares magnitudes. -/
theorem compare_units {c d : ℕ} (hc : c ≠ 0) (hd : d ≠ 0) :
    (compare (exponent c) (exponent d)).then (compare (significand c) (significand d))
      = compare (BinaryFormat.single.units c) (BinaryFormat.single.units d) := by
  rcases lt_trichotomy (exponent c) (exponent d) with hlt | heq | hgt
  · rw [compare_lt_iff_lt.mpr hlt, compare_lt_iff_lt.mpr (units_lt_units hc hd hlt)]
    rfl
  · have hpos : 0 < 2 ^ (exponent d + 149).toNat := by positivity
    rw [compare_eq_iff_eq.mpr heq, units_eq c, units_eq d, heq, Ordering.eq_then]
    rcases lt_trichotomy (significand c) (significand d) with hlt | heq | hgt
    · rw [compare_lt_iff_lt.mpr hlt, compare_lt_iff_lt.mpr (Nat.mul_lt_mul_of_pos_right hlt hpos)]
    · rw [heq, compare_eq_iff_eq.mpr rfl, compare_eq_iff_eq.mpr rfl]
    · rw [compare_gt_iff_gt.mpr hgt, compare_gt_iff_gt.mpr (Nat.mul_lt_mul_of_pos_right hgt hpos)]
  · rw [compare_gt_iff_gt.mpr hgt, compare_gt_iff_gt.mpr (units_lt_units hd hc hgt)]
    rfl

theorem le_iff_signedUnits {x y : Float32} (hx : IsFinite x) (hy : IsFinite y) :
    x ≤ y ↔ signedUnits x ≤ signedUnits y := by
  have hle : x ≤ y ↔ UnpackedFloat.le x.toModel.unpack y.toModel.unpack = true := by
    show decide _ = true ↔ _
    rw [decide_eq_true_iff]
    rfl
  rw [hle, UnpackedFloat.le, signedUnits, signedUnits, unpack_eq hx, unpack_eq hy]
  -- Zeros have no exponent, so they are compared apart; all others by exponent and significand.
  by_cases hcx : code x = 0
  · by_cases hcy : code y = 0
    · rw [dif_pos hcx, dif_pos hcy, hcx, hcy, units_zero]
      cases sign x <;> cases sign y <;> simp [UnpackedFloat.compare, Sign.apply]
    · have hpos := units_pos hcy
      rw [dif_pos hcx, dif_neg hcy, hcx, units_zero]
      cases sign x <;> cases sign y <;> simp [UnpackedFloat.compare, Sign.apply] <;> omega
  · have hposx := units_pos hcx
    by_cases hcy : code y = 0
    · rw [dif_neg hcx, dif_pos hcy, hcy, units_zero]
      cases sign x <;> cases sign y <;> simp [UnpackedFloat.compare, Sign.apply] <;> omega
    · have hposy := units_pos hcy
      rw [dif_neg hcx, dif_neg hcy]
      cases sign x <;> cases sign y <;>
        simp [UnpackedFloat.compare, Sign.apply, compare_units hcx hcy, Nat.isLE_compare,
          Nat.isGE_compare]
      omega

/-- **A comparison compares values.** -/
theorem le_iff {x y : Float32} {a b : ℚ} (hx : value? x = some a) (hy : value? y = some b) :
    x ≤ y ↔ a ≤ b := by
  obtain ⟨hxfin, hxunits⟩ := value?_eq_some.mp hx
  obtain ⟨hyfin, hyunits⟩ := value?_eq_some.mp hy
  rw [le_iff_signedUnits hxfin hyfin, ← Int.cast_le (R := ℚ), hxunits, hyunits]
  exact mul_le_mul_iff_left₀ (by positivity)

/-! ## Above zero -/

theorem unpack_zero : (0 : Float32).toModel.unpack = .zero .positive := by
  have hcode : code (0 : Float32) = 0 := by decide +kernel
  have hsign : sign (0 : Float32) = .positive := if_neg (by decide +kernel)
  have hfinite : IsFinite (0 : Float32) := by rw [IsFinite, hcode]; decide
  rw [unpack_eq hfinite, dif_pos hcode, hsign]

theorem zero_lt_of_not_le {x : Float32} (hnan : x.isNaN = false) (h : ¬x ≤ 0) : 0 < x := by
  have hle : x ≤ 0 ↔ x.toModel.unpack.le (0 : Float32).toModel.unpack = true := by
    show decide _ = true ↔ _
    rw [decide_eq_true_iff]
    rfl
  have hlt : 0 < x ↔ (0 : Float32).toModel.unpack.lt x.toModel.unpack = true := by
    show decide _ = true ↔ _
    rw [decide_eq_true_iff]
    rfl
  replace hnan : x.toModel.unpack.isNaN = false := hnan
  rw [hle, unpack_zero] at h
  rw [hlt, unpack_zero]
  revert h hnan
  cases x.toModel.unpack with
  | notANumber => simp [UnpackedFloat.isNaN]
  | infinity s => cases s <;> simp [UnpackedFloat.le, UnpackedFloat.lt, UnpackedFloat.compare]
  | zero s => simp [UnpackedFloat.le, UnpackedFloat.lt, UnpackedFloat.compare]
  | finite s => cases s <;> simp [UnpackedFloat.le, UnpackedFloat.lt, UnpackedFloat.compare]

theorem isNaN_eq_false {x : Float32} (h : x.isFinite = true) : x.isNaN = false := by
  replace h : x.toModel.unpack.isFinite = true := h
  show x.toModel.unpack.isNaN = false
  revert h
  cases x.toModel.unpack <;> simp [UnpackedFloat.isFinite, UnpackedFloat.isNaN]

/-! ## Whole numbers -/

theorem roundHalfEven_mul {n d : ℕ} (hd : 0 < d) : roundHalfEven (n * d) d = n := by
  simp [roundHalfEven, Nat.mul_div_cancel _ hd, hd]

theorem floorLog2_one {n : ℕ} (hn : n ≠ 0) : floorLog2 n 1 = n.log2 := by
  have hlow := Nat.log2_self_le hn
  have hone : (1 : ℕ).log2 = 0 := by decide
  simp [floorLog2, hone, hlow]

theorem toNat_toBits_ofCode (negative : Bool) {c : ℕ}
    (h : c < BinaryFormat.single.infinityCode) :
    (ofCode negative c).toBits.toNat = if negative then 2 ^ 31 + c else c := by
  have hc : c < 255 * 2 ^ 23 := h
  have hlt : (if negative then 2 ^ 31 + c else c) < 2 ^ 32 := by
    split <;> omega
  set bits := UInt32.ofNat (if negative then 2 ^ 31 + c else c) with hbits
  have hnat : bits.toNat = if negative then 2 ^ 31 + c else c := UInt32.toNat_ofNat_of_lt' hlt
  -- Packing gives back the bits of what is not a NaN.
  have hnan : @isNaNBits Format.binary32 bits.toBitVec = false := by
    have hones : (-(BitVec.ofNat Format.binary32.exponentBits 1)).toNat = 255 := by decide
    rw [isNaNBits, decide_eq_false_iff_not, ← BitVec.toNat_inj, toNat_unpackExponent,
      UInt32.toNat_toBitVec, hnat]
    split <;> omega
  have hpack := @pack_unpack Format.binary32 bits.toBitVec
  rw [hnan, if_neg (by decide)] at hpack
  rw [← hnat]
  exact congrArg BitVec.toNat hpack

theorem code_ofCode (negative : Bool) {c : ℕ} (h : c < BinaryFormat.single.infinityCode) :
    code (ofCode negative c) = c := by
  have hc : c < 255 * 2 ^ 23 := h
  rw [code, toNat_toBits_ofCode negative h]
  cases negative <;> simp <;> omega

theorem isNegative_ofCode (negative : Bool) {c : ℕ} (h : c < BinaryFormat.single.infinityCode) :
    isNegative (ofCode negative c) = negative := by
  have hc : c < 255 * 2 ^ 23 := h
  rw [isNegative, toNat_toBits_ofCode negative h]
  cases negative <;> simp
  omega

theorem ofCode_code (x : Float32) : ofCode (isNegative x) (code x) = x := by
  have hlt : x.toBits.toNat < 2 ^ 32 := x.toBits.toNat_lt
  have hbits : (if isNegative x then 2 ^ 31 + code x else code x) = x.toBits.toNat := by
    rw [isNegative, code]
    split_ifs with hnegative <;> rw [decide_eq_true_eq] at hnegative <;> omega
  rw [ofCode, hbits, UInt32.ofNat_toNat, Float32.ofBits_toBits]

/-- A whole number of at most twenty-four bits, shifted so that all of them are in use. -/
theorem mul_two_pow_bounds {n : ℕ} (hn : n ≠ 0) (hlt : n < 2 ^ 24) :
    2 ^ 23 ≤ n * 2 ^ (23 - n.log2) ∧ n * 2 ^ (23 - n.log2) < 2 ^ 24 := by
  have hlog : n.log2 < 24 := (Nat.log2_lt hn).mpr hlt
  constructor
  · calc 2 ^ 23 = 2 ^ n.log2 * 2 ^ (23 - n.log2) := by
          rw [← pow_add, show n.log2 + (23 - n.log2) = 23 by omega]
      _ ≤ n * 2 ^ (23 - n.log2) := Nat.mul_le_mul_right _ (Nat.log2_self_le hn)
  · calc n * 2 ^ (23 - n.log2) < 2 ^ (n.log2 + 1) * 2 ^ (23 - n.log2) :=
          Nat.mul_lt_mul_of_pos_right Nat.lt_log2_self (by positivity)
      _ = 2 ^ 24 := by rw [← pow_add, show n.log2 + 1 + (23 - n.log2) = 24 by omega]

theorem mul_two_pow_unit {n : ℕ} (hn : n ≠ 0) (hlt : n < 2 ^ 24) :
    n * 2 ^ 149 = n * 2 ^ (23 - n.log2) * 2 ^ (n.log2 + 126) := by
  have hlog : n.log2 < 24 := (Nat.log2_lt hn).mpr hlt
  rw [mul_assoc, ← pow_add, show 23 - n.log2 + (n.log2 + 126) = 149 by omega]

theorem nearestCode_one {n : ℕ} (hn : n ≠ 0) (hlt : n < 2 ^ 24) :
    BinaryFormat.single.nearestCode n 1 = (n.log2 + 126) * 2 ^ 23 + n * 2 ^ (23 - n.log2) := by
  have hlog : n.log2 < 24 := (Nat.log2_lt hn).mpr hlt
  have hsignificand := (mul_two_pow_bounds hn hlt).2
  have hunit : BinaryFormat.single.unitExponent = 149 := rfl
  have hprecision : BinaryFormat.single.precision = 24 := rfl
  have hbinade : BinaryFormat.single.binade = 2 ^ 23 := by decide
  have hinfinity : BinaryFormat.single.infinityCode = 255 * 2 ^ 23 := rfl
  have hshift : ((n.log2 : ℤ) + 1 - 24 + 149).toNat = n.log2 + 126 := by omega
  rw [BinaryFormat.nearestCode, if_neg hn, floorLog2_one hn, hunit, hprecision, hbinade, hinfinity]
  simp only [Nat.cast_ofNat, hshift, one_mul]
  show min (_ + roundHalfEven (n * 2 ^ 149) (2 ^ (n.log2 + 126))) _ = _
  rw [mul_two_pow_unit hn hlt, roundHalfEven_mul (by positivity)]
  refine min_eq_left ?_
  omega

theorem units_nearestCode_one {n : ℕ} (hlt : n < 2 ^ 24) :
    BinaryFormat.single.nearestCode n 1 < BinaryFormat.single.infinityCode ∧
      BinaryFormat.single.units (BinaryFormat.single.nearestCode n 1) = n * 2 ^ 149 := by
  by_cases hn : n = 0
  · subst hn
    exact ⟨by decide, by decide⟩
  · have hinfinity : BinaryFormat.single.infinityCode = 255 * 2 ^ 23 := rfl
    have hlog : n.log2 < 24 := (Nat.log2_lt hn).mpr hlt
    obtain ⟨hlow, hhigh⟩ := mul_two_pow_bounds hn hlt
    rw [nearestCode_one hn hlt]
    refine ⟨by omega, ?_⟩
    rw [units_eq, mul_two_pow_unit hn hlt, significand, exponent, if_neg (by omega),
      if_neg (by omega)]
    congr 2
    · omega
    · omega

/-- **Whole numbers of up to twenty-four bits are read exactly.** -/
theorem value?_ofInt {n : ℤ} (h : n.natAbs < 2 ^ 24) : value? (ofInt n) = some (n : ℚ) := by
  obtain ⟨hfinite, hunits⟩ := units_nearestCode_one h
  rw [value?_eq_some, ofInt, signedUnits, sign, isNegative_ofCode _ hfinite, IsFinite,
    code_ofCode _ hfinite, hunits]
  refine ⟨hfinite, ?_⟩
  rcases lt_or_ge n 0 with hneg | hpos
  · have habs : |(n : ℚ)| = -n := abs_of_neg (by exact_mod_cast hneg)
    simp only [hneg, decide_true, ↓reduceIte, Sign.apply]
    push_cast
    rw [habs]
    norm_num
  · have habs : |(n : ℚ)| = n := abs_of_nonneg (by exact_mod_cast hpos)
    simp only [not_lt.mpr hpos, decide_false, Bool.false_eq_true, ↓reduceIte, Sign.apply]
    push_cast
    rw [habs]
    norm_num

theorem isValue_intCast {n : ℤ} (h : n.natAbs < 2 ^ 24) : IsValue n := ⟨ofInt n, value?_ofInt h⟩

end ReportPress.Number.Single
