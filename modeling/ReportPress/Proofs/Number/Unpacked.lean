import Mathlib
import ReportPress.Number.Single

/-!
# Single-precision numbers taken apart

The core library computes with a number taken apart: it unpacks sign, significand and exponent from
the bits, works on these without rounding, rounds once, and packs the result. Two facts connect this
to codes. The parts of a finite number are those of its code (`unpack_eq`), with a magnitude of
`significand · 2 ^ (exponent + 149)` units. And rounding leaves a magnitude alone that some number
has: however the magnitude is written, the result is its one canonical form (`round_eq`).
-/

namespace ReportPress.Number.Single

open Float.Model Float.Model.UnpackedFloat

/-! ## The parts of a code -/

/-- The significand of a code; all but the smallest numbers have a leading bit that is not
stored. -/
def significand (code : ℕ) : ℕ := if code < 2 ^ 23 then code else code % 2 ^ 23 + 2 ^ 23

/-- The power of two that the last bit of the significand counts. -/
def exponent (code : ℕ) : ℤ := if code < 2 ^ 23 then -149 else code / 2 ^ 23 - 150

theorem significand_pos {code : ℕ} (h : code ≠ 0) : 0 < significand code := by
  unfold significand
  split <;> omega

theorem units_eq (code : ℕ) :
    BinaryFormat.single.units code = significand code * 2 ^ (exponent code + 149).toNat := by
  have hbinade : BinaryFormat.single.binade = 2 ^ 23 := by decide
  unfold BinaryFormat.units significand exponent
  rw [hbinade]
  split
  · simp
  · congr 2
    omega

@[simp] theorem units_zero : BinaryFormat.single.units 0 = 0 := by decide

theorem units_pos {code : ℕ} (h : code ≠ 0) : 0 < BinaryFormat.single.units code := by
  have := significand_pos h
  rw [units_eq]
  positivity

/-- A positive significand and an exponent as a number has them: all bits of the significand are in
use, unless the exponent is the smallest there is. -/
structure Canonical (m : ℕ) (e : ℤ) : Prop where
  pos : 0 < m
  lt : m < 2 ^ 24
  le : -149 ≤ e
  /-- The significand has no fewer bits, or the exponent is the smallest. -/
  full : 2 ^ 23 ≤ m ∨ e = -149

theorem canonical {code : ℕ} (h : code ≠ 0) : Canonical (significand code) (exponent code) := by
  refine ⟨significand_pos h, ?_, ?_, ?_⟩
  all_goals
    simp only [significand, exponent]
    split <;> omega

/-! ## Unpacking -/

section Bits

variable (b : BitVec Format.binary32.numBits)

theorem toNat_unpackMantissa : (unpackMantissa b).toNat = b.toNat % 2 ^ 23 := by
  rw [unpackMantissa_def]
  simp [BitVec.extractLsb'_toNat]

theorem toNat_unpackExponent : (unpackExponent b).toNat = b.toNat / 2 ^ 23 % 2 ^ 8 := by
  rw [unpackExponent_def]
  simp [BitVec.extractLsb'_toNat, Nat.shiftRight_eq_div_pow]

theorem toNat_unpackSign : (unpackSign b).toNat = b.toNat / 2 ^ 31 % 2 := by
  rw [unpackSign_def]
  simp [BitVec.extractLsb'_toNat, Nat.shiftRight_eq_div_pow]

end Bits

def IsFinite (x : Float32) : Prop := code x < BinaryFormat.single.infinityCode

instance (x : Float32) : Decidable (IsFinite x) := inferInstanceAs (Decidable (_ < _))

def sign (x : Float32) : Sign := if isNegative x then .negative else .positive

theorem ofBitVec_unpackSign (x : Float32) :
    Sign.ofBitVec (@unpackSign Format.binary32 x.toBits.toBitVec) = sign x := by
  have hlt : x.toBits.toNat < 2 ^ 32 := x.toBits.toNat_lt
  have hsign : @unpackSign Format.binary32 x.toBits.toBitVec = 0#1 ↔
      ¬2 ^ 31 ≤ x.toBits.toNat := by
    rw [← BitVec.toNat_inj, toNat_unpackSign, UInt32.toNat_toBitVec, BitVec.toNat_zero]
    omega
  simp only [Sign.ofBitVec, sign, isNegative, hsign, ite_not, decide_eq_true_eq]

/-! The three tests on the bit fields, as tests on the code. -/

theorem unpackExponent_ne_ones {x : Float32} (h : IsFinite x) :
    @unpackExponent Format.binary32 x.toBits.toBitVec ≠ -1#_ := by
  have hcode : code x = x.toBits.toNat % 2 ^ 31 := rfl
  have hfinite : code x < 255 * 2 ^ 23 := h
  have hones : (-(BitVec.ofNat Format.binary32.exponentBits 1)).toNat = 255 := by decide
  rw [Ne, ← BitVec.toNat_inj, toNat_unpackExponent, UInt32.toNat_toBitVec]
  omega

theorem unpackExponent_eq_zero_iff (x : Float32) :
    @unpackExponent Format.binary32 x.toBits.toBitVec = 0#_ ↔ code x < 2 ^ 23 := by
  have hcode : code x = x.toBits.toNat % 2 ^ 31 := rfl
  rw [← BitVec.toNat_inj, toNat_unpackExponent, UInt32.toNat_toBitVec, BitVec.toNat_zero]
  omega

theorem unpackMantissa_eq_zero_iff (x : Float32) :
    @unpackMantissa Format.binary32 x.toBits.toBitVec = 0#_ ↔ code x % 2 ^ 23 = 0 := by
  have hcode : code x = x.toBits.toNat % 2 ^ 31 := rfl
  rw [← BitVec.toNat_inj, toNat_unpackMantissa, UInt32.toNat_toBitVec, BitVec.toNat_zero]
  omega

/-- **A finite number comes apart into the parts of its code.** -/
theorem unpack_eq {x : Float32} (h : IsFinite x) :
    x.toModel.unpack = if hcode : code x = 0 then .zero (sign x)
      else .finite (sign x) (significand (code x)) (exponent (code x)) (significand_pos hcode) := by
  have hmantissa := toNat_unpackMantissa x.toBits.toBitVec
  have hexponent := toNat_unpackExponent x.toBits.toBitVec
  have hcode : code x = x.toBits.toNat % 2 ^ 31 := rfl
  have hbias : (Format.binary32.exponentBias : ℤ) = 127 := by decide
  rw [UInt32.toNat_toBitVec] at hmantissa hexponent
  show UnpackedFloat.unpack Format.binary32 x.toBits.toBitVec = _
  unfold UnpackedFloat.unpack
  simp only [ofBitVec_unpackSign, unpackExponent_eq_zero_iff x, unpackMantissa_eq_zero_iff x]
  rw [if_neg (unpackExponent_ne_ones h)]
  -- The exponent bits are zero below the first full significand, and only there.
  by_cases hsmall : code x < 2 ^ 23
  · rw [if_pos hsmall]
    by_cases hnull : code x = 0
    · simp [hnull]
    · rw [dif_neg (by omega), dif_neg hnull]
      simp only [significand, exponent, if_pos hsmall, hmantissa, hexponent, hbias]
      congr 1
      · omega
      · omega
  · rw [if_neg hsmall, dif_neg (by omega)]
    simp only [significand, exponent, if_neg hsmall, hmantissa, hexponent, hbias,
      BitVec.toNat_append]
    congr 1
    · rw [← Nat.shiftLeft_add_eq_or_of_lt (by omega)]
      simp only [BitVec.toNat_ofNat, Nat.shiftLeft_eq]
      omega
    · omega

theorem ofModel_pack_unpack (x : Float32) :
    Float32.ofModel (Float32.Model.pack x.toModel.unpack) = x := by
  rw [← Float32.toBits_inj, ← UInt32.toBitVec_inj]
  exact pack_unpack_of_valid x.toModel.valid

/-! ## Rounding

Rounding brings a magnitude to the exponent that its leading bit asks for. For a canonical form that
is the exponent it has. A magnitude that is written with a larger exponent is shifted left, one with
a smaller exponent right; if only zeros fall off, nothing is rounded.-/

theorem Canonical.targetExponent {m : ℕ} {e : ℤ} (h : Canonical m e) :
    Format.binary32.targetExponent (totalExponent m e) = e := by
  have hlog : m.log2 < 24 := (Nat.log2_lt h.pos.ne').mpr h.lt
  have hbits : Format.binary32.mantissaBits = 24 := by decide
  have hmin : Format.binary32.minExponent = -149 := by decide
  rw [Format.targetExponent, totalExponent, hbits, hmin]
  have hle := h.le
  rcases h.full with hfull | rfl
  · have : 23 ≤ m.log2 := (Nat.le_log2 h.pos.ne').mpr hfull
    omega
  · omega

theorem log2_mul_two_pow {m : ℕ} (h : 0 < m) (k : ℕ) : (m * 2 ^ k).log2 = m.log2 + k := by
  have hlow := Nat.log2_self_le h.ne'
  have hhigh := Nat.lt_log2_self (n := m)
  rw [Nat.log2_eq_iff (by positivity)]
  constructor
  · rw [pow_add]
    exact Nat.mul_le_mul_right _ hlow
  · rw [Nat.add_right_comm, pow_add]
    exact Nat.mul_lt_mul_of_pos_right hhigh (by positivity)

theorem totalExponent_mul_two_pow {m : ℕ} (h : 0 < m) (k : ℕ) (e : ℤ) :
    totalExponent (m * 2 ^ k) e = totalExponent m (e + k) := by
  rw [totalExponent, totalExponent, log2_mul_two_pow h]
  push_cast
  ring

theorem shiftRight_mul_two_pow (m k : ℕ) :
    (ExtendedMantissa.mk (m * 2 ^ k) false false >>> k) = ⟨m, false, false⟩ := by
  show Nat.repeat ExtendedMantissa.shiftRightOne k _ = _
  induction k generalizing m with
  | zero => simp [Nat.repeat]
  | succ k ih =>
    have hshift : m * 2 ^ (k + 1) = m * 2 * 2 ^ k := by ring
    rw [Nat.repeat, hshift, ih]
    simp [ExtendedMantissa.shiftRightOne]

theorem shiftToTargetExponent_eq {m k : ℕ} {e : ℤ} (h : Canonical m (e + k)) :
    shiftToTargetExponent Format.binary32 (m * 2 ^ k) e .exact = (⟨m, false, false⟩, e + k) := by
  have hk : (e + k - e).toNat = k := by omega
  rw [shiftToTargetExponent, totalExponent_mul_two_pow h.pos, h.targetExponent, shiftToExponent, hk]
  exact Prod.ext (shiftRight_mul_two_pow m k) rfl

theorem roundWithAccuracy_eq (s : Sign) {m k : ℕ} {e : ℤ} (h : Canonical m (e + k)) :
    roundWithAccuracy Format.binary32 s (m * 2 ^ k) e .exact = .finite s m (e + k) h.pos := by
  have hrounded : (ExtendedMantissa.mk m false false).roundedMantissa = m := rfl
  -- The significand did not grow, so the second shift has nothing to do.
  have hagain : shiftToTargetExponent Format.binary32 m (e + k) .exact
      = (⟨m, false, false⟩, e + k) := by
    have := shiftToTargetExponent_eq (k := 0) (e := e + k) (by simpa using h)
    simpa using this
  simp only [roundWithAccuracy, shiftToTargetExponent_eq h, hrounded, hagain]
  exact dif_neg h.pos.ne'

/-- **What has a canonical form is not rounded.** -/
theorem round_eq (s : Sign) {m n : ℕ} {e f : ℤ} (h : Canonical m e) (hf : -149 ≤ f)
    (hsame : n * 2 ^ (f + 149).toNat = m * 2 ^ (e + 149).toNat) :
    UnpackedFloat.round Format.binary32 s n f = .finite s m e h.pos := by
  have hle := h.le
  -- Rounding first brings the number to the exponent of the canonical form: by shifting the digits
  -- to the left when its own is larger, and by leaving off zeros when it is smaller.
  rcases le_total e f with hef | hfe
  · obtain ⟨k, rfl⟩ := Int.le.dest hef
    have hm : m = n * 2 ^ k := by
      rw [show (e + k + 149).toNat = k + (e + 149).toNat by omega, pow_add, ← mul_assoc] at hsame
      exact (Nat.eq_of_mul_eq_mul_right (by positivity) hsame).symm
    have hn : 0 < n := Nat.pos_of_ne_zero fun hn ↦ h.pos.ne' (by simp [hm, hn])
    have htotal : totalExponent n (e + k) = totalExponent m e := by
      rw [hm, totalExponent_mul_two_pow hn]
    have hround := roundWithAccuracy_eq s (m := m) (k := 0) (e := e) (by simpa using h)
    rw [UnpackedFloat.round, htotal, h.targetExponent, decreaseExponent]
    simp only [show (e + k - e).toNat = k by omega, Nat.shiftLeft_eq, ← hm]
    simpa using hround
  · obtain ⟨k, rfl⟩ := Int.le.dest hfe
    have hn : n = m * 2 ^ k := by
      rw [show (f + k + 149).toNat = k + (f + 149).toNat by omega, pow_add, ← mul_assoc] at hsame
      exact Nat.eq_of_mul_eq_mul_right (by positivity) hsame
    have htotal : totalExponent n f = totalExponent m (f + k) := by
      rw [hn, totalExponent_mul_two_pow h.pos]
    rw [UnpackedFloat.round, htotal, h.targetExponent, decreaseExponent]
    simp only [show (f - (f + k)).toNat = 0 by omega, Nat.shiftLeft_zero, hn]
    simpa using roundWithAccuracy_eq s h

end ReportPress.Number.Single
