import Mathlib
import ReportPress.Number.Decimal

/-!
# Magnitudes of decimal numbers

A decimal number without its sign is a nonnegative rational number. Removing trailing zeros from the
significand leaves it as it is.
-/

namespace ReportPress.Number

theorem fst_stripZeros_mul (fuel n : ℕ) :
    (stripZeros fuel n).1 * 10 ^ (stripZeros fuel n).2 = n := by
  induction fuel generalizing n with
  | zero => simp [stripZeros]
  | succ fuel ih =>
    rw [stripZeros]
    split
    · rename_i hzero
      calc (stripZeros fuel (n / 10)).1 * 10 ^ ((stripZeros fuel (n / 10)).2 + 1)
          = (stripZeros fuel (n / 10)).1 * 10 ^ (stripZeros fuel (n / 10)).2 * 10 := by ring
        _ = n / 10 * 10 := by rw [ih]
        _ = n := Nat.div_mul_cancel (Nat.dvd_of_mod_eq_zero hzero)
    · simp

namespace Decimal

def magnitude (d : Decimal) : ℚ := d.significand * 10 ^ d.exponent

variable (d : Decimal)

@[simp]
theorem negative_normalize : d.normalize.negative = d.negative := by
  unfold normalize
  split <;> rfl

theorem exists_normalize_eq :
    ∃ k : ℕ, d.normalize.significand * 10 ^ k = d.significand ∧
      (d.significand ≠ 0 → d.normalize.exponent = d.exponent + k) := by
  unfold normalize
  split
  · rename_i hzero
    exact ⟨0, by simp, fun h ↦ absurd hzero h⟩
  · exact ⟨_, fst_stripZeros_mul _ _, fun _ ↦ rfl⟩

theorem significand_normalize_eq_zero : d.normalize.significand = 0 ↔ d.significand = 0 := by
  obtain ⟨k, hk, -⟩ := d.exists_normalize_eq
  rw [← hk]
  simp

@[simp]
theorem magnitude_normalize : d.normalize.magnitude = d.magnitude := by
  obtain ⟨k, hk, hexponent⟩ := d.exists_normalize_eq
  by_cases hzero : d.significand = 0
  · simp [magnitude, hzero, d.significand_normalize_eq_zero.mpr hzero]
  · rw [magnitude, magnitude, hexponent hzero, ← hk, zpow_add₀ (by norm_num), zpow_natCast]
    push_cast
    ring

end Decimal

end ReportPress.Number
