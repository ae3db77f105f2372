import Mathlib
import ReportPress.Number.Shortest

/-!
# Rounding to the nearest value

What `nearestCode` gives, for any binary format. A fraction is rounded to a value between whose
midpoints it lies, and where it is one of these midpoints itself, the code is even. As midpoints
rise with their codes, this determines the code (`nearestCode_eq_of_isBetween`). The relative error
of rounding to a full significand is bounded, and fractions that are values are not changed.
-/

namespace ReportPress.Number

-- Powers are those of the core library, whatever else is in scope.
attribute [local instance (2000)] instPowNat

/-! ## Powers -/

theorem zpow_eq_div {r : ℚ} (hr : r ≠ 0) (k : ℤ) : r ^ k = r ^ k.toNat / r ^ (-k).toNat := by
  rw [eq_div_iff (pow_ne_zero _ hr), ← zpow_natCast r, ← zpow_natCast r, ← zpow_add₀ hr]
  congr 1
  omega

/-! ## The nearest integer -/

/-- The fraction lies a rest above the quotient, and the nearest integer is told by twice the
rest. -/
theorem div_eq_quotient_add (num : ℕ) {den : ℕ} (hden : 0 < den) :
    (num : ℚ) / den = (num / den : ℕ) + (num % den : ℕ) / den := by
  have hpos : (0 : ℚ) < den := by exact_mod_cast hden
  have hdiv : ((den * (num / den) + num % den : ℕ) : ℚ) = num := by rw [Nat.div_add_mod]
  field_simp
  rw [← hdiv]
  push_cast
  ring

/-- The nearest integer is less than a half away; or it is a half away, and even. -/
theorem roundHalfEven_cases (num : ℕ) {den : ℕ} (hden : 0 < den) :
    |(roundHalfEven num den : ℚ) - num / den| < 1 / 2 ∨
      (|(roundHalfEven num den : ℚ) - num / den| = 1 / 2 ∧ roundHalfEven num den % 2 = 0) := by
  have hpos : (0 : ℚ) < den := by exact_mod_cast hden
  have hrest : ((num % den : ℕ) : ℚ) / den < 1 := by
    rw [div_lt_one hpos]
    exact_mod_cast Nat.mod_lt num hden
  have hnonneg : (0 : ℚ) ≤ ((num % den : ℕ) : ℚ) / den := by positivity
  have hhalf (n : ℕ) : (n : ℚ) / den < 1 / 2 ↔ 2 * n < den := by
    rw [div_lt_div_iff₀ hpos two_pos, one_mul, mul_comm]
    exact_mod_cast Iff.rfl
  have hhalf' (n : ℕ) : 1 / 2 < (n : ℚ) / den ↔ den < 2 * n := by
    rw [div_lt_div_iff₀ two_pos hpos, one_mul, mul_comm (n : ℚ)]
    exact_mod_cast Iff.rfl
  -- The rounding looks at twice the rest of a division; from here on the rest is a fraction.
  rw [div_eq_quotient_add num hden, roundHalfEven]
  have hlow := hhalf (num % den)
  have hhigh := hhalf' (num % den)
  generalize ((num % den : ℕ) : ℚ) / den = rest at *
  split_ifs with hbelow habove
  · left
    rw [abs_lt]
    constructor <;> linarith [hlow.mpr hbelow]
  · left
    rw [abs_lt]
    push_cast
    constructor <;> linarith [hhigh.mpr habove]
  · right
    have hrest : rest = 1 / 2 :=
      le_antisymm (not_lt.mp (mt hhigh.mp habove)) (not_lt.mp (mt hlow.mp hbelow))
    refine ⟨?_, by omega⟩
    rw [hrest]
    rcases Nat.mod_two_eq_zero_or_one (num / den) with h | h <;> rw [h] <;> push_cast <;>
      norm_num

/-! ## The binary logarithm -/

theorem floorLog2_bounds {num den : ℕ} (hnum : num ≠ 0) (hden : den ≠ 0) :
    (2 : ℚ) ^ floorLog2 num den ≤ num / den ∧ (num : ℚ) / den < 2 ^ (floorLog2 num den + 1) := by
  have hpos : (0 : ℚ) < den := by exact_mod_cast Nat.pos_of_ne_zero hden
  have hnumLow : (2 : ℚ) ^ (num.log2 : ℤ) ≤ num := by exact_mod_cast Nat.log2_self_le hnum
  have hnumHigh : (num : ℚ) < 2 ^ ((num.log2 : ℤ) + 1) := by exact_mod_cast Nat.lt_log2_self (n := num)
  have hdenLow : (2 : ℚ) ^ (den.log2 : ℤ) ≤ den := by exact_mod_cast Nat.log2_self_le hden
  have hdenHigh : (den : ℚ) < 2 ^ ((den.log2 : ℤ) + 1) := by exact_mod_cast Nat.lt_log2_self (n := den)
  set guess : ℤ := (num.log2 : ℤ) - den.log2 with hguess
  -- Comparing with the power that was guessed, without fractions.
  have hcompare : den * 2 ^ guess.toNat ≤ num * 2 ^ (-guess).toNat ↔
      (2 : ℚ) ^ guess ≤ num / den := by
    rw [le_div_iff₀ hpos, zpow_eq_div two_ne_zero, div_mul_eq_mul_div, div_le_iff₀ (by positivity),
      mul_comm, ← Nat.cast_le (α := ℚ)]
    push_cast
    rfl
  have hhigh : (num : ℚ) / den < 2 ^ (guess + 1) := by
    rw [div_lt_iff₀ hpos]
    calc (num : ℚ) < 2 ^ ((num.log2 : ℤ) + 1) := hnumHigh
      _ = 2 ^ (guess + 1) * 2 ^ (den.log2 : ℤ) := by
        rw [← zpow_add₀ two_ne_zero]
        congr 1
        omega
      _ ≤ 2 ^ (guess + 1) * den := by gcongr
  have hlow : (2 : ℚ) ^ (guess - 1) < num / den := by
    rw [lt_div_iff₀ hpos]
    calc (2 : ℚ) ^ (guess - 1) * den < 2 ^ (guess - 1) * 2 ^ ((den.log2 : ℤ) + 1) := by gcongr
      _ = 2 ^ (num.log2 : ℤ) := by
        rw [← zpow_add₀ two_ne_zero]
        congr 1
        omega
      _ ≤ num := hnumLow
  rw [floorLog2, ← hguess]
  split_ifs with h
  · exact ⟨hcompare.mp h, hhigh⟩
  · refine ⟨hlow.le, ?_⟩
    rw [sub_add_cancel]
    exact not_le.mp (mt hcompare.mpr h)

namespace BinaryFormat

variable (f : BinaryFormat)

/-! ## The parts of a code -/

theorem binade_pos : 0 < f.binade := Nat.two_pow_pos _

variable {f}

/-- The magnitude of a code, by its binade and its place in it. The first place after a binade has
the same magnitude as the last in it. -/
theorem units_parts {s k : ℕ} (hk : k ≤ 2 * f.binade) (hfull : s = 0 ∨ f.binade ≤ k) :
    f.units (s * f.binade + k) = k * 2 ^ s := by
  have hpos := f.binade_pos
  rw [units]
  -- Below a full significand there is only the lowest binade. The first place behind a binade
  -- counts as the first of the next one, where the significand is halved and the unit doubled.
  rcases lt_or_ge k f.binade with hlt | hge
  · obtain rfl : s = 0 := hfull.resolve_right (by omega)
    rw [zero_mul, zero_add, if_pos hlt, pow_zero, mul_one]
  · rw [if_neg (by have := Nat.le_add_left k (s * f.binade); omega)]
    rcases hk.lt_or_eq with hlt | rfl
    · have hdiv : (s * f.binade + k) / f.binade = s + 1 := by
        refine Nat.div_eq_of_lt_le ?_ ?_
        · rw [Nat.add_mul, one_mul]
          omega
        · rw [Nat.add_mul, Nat.add_mul, one_mul]
          omega
      have hmod : (s * f.binade + k) % f.binade + f.binade = k := by
        have := Nat.div_add_mod (s * f.binade + k) f.binade
        rw [hdiv, Nat.mul_succ, mul_comm f.binade] at this
        omega
      rw [hdiv, hmod, Nat.add_sub_cancel]
    · have hdiv : (s * f.binade + 2 * f.binade) / f.binade = s + 2 := by
        rw [← add_mul, Nat.mul_div_cancel _ hpos]
      have hmod : (s * f.binade + 2 * f.binade) % f.binade = 0 := by
        rw [← add_mul, Nat.mul_mod_left]
      rw [hdiv, hmod, zero_add, show s + 2 - 1 = s + 1 by omega, pow_succ]
      ring

theorem exists_parts (code : ℕ) :
    ∃ s k, code = s * f.binade + k ∧ k < 2 * f.binade ∧ (s = 0 ∨ f.binade ≤ k) := by
  have hpos := f.binade_pos
  rcases lt_or_ge code f.binade with hlt | hge
  · exact ⟨0, code, by omega, by omega, .inl rfl⟩
  · have hdiv := Nat.div_add_mod' code f.binade
    have hone : 1 ≤ code / f.binade := (Nat.one_le_div_iff hpos).mpr hge
    have hmod := Nat.mod_lt code hpos
    refine ⟨code / f.binade - 1, code % f.binade + f.binade, ?_, by omega, .inr (by omega)⟩
    rw [Nat.sub_mul]
    have : f.binade ≤ code / f.binade * f.binade := Nat.le_mul_of_pos_left _ hone
    omega

variable (f)

theorem units_lt_succ (code : ℕ) : f.units code < f.units (code + 1) := by
  obtain ⟨s, k, rfl, hk, hfull⟩ := f.exists_parts code
  rw [units_parts hk.le hfull, add_assoc, units_parts hk (hfull.imp_right (by omega))]
  exact Nat.mul_lt_mul_of_pos_right (Nat.lt_succ_self k) (by positivity)

theorem units_strictMono : StrictMono f.units := strictMono_nat_of_lt_succ f.units_lt_succ

theorem units_succ_le (code : ℕ) :
    f.units (code + 1) ≤ 2 * f.binade * (f.units (code + 1) - f.units code) := by
  obtain ⟨s, k, rfl, hk, hfull⟩ := f.exists_parts code
  rw [units_parts hk.le hfull, add_assoc, units_parts hk (hfull.imp_right (by omega)),
    ← Nat.sub_mul, show k.succ - k = 1 by omega, one_mul]
  exact Nat.mul_le_mul_right _ hk

theorem units_lt_mul (code : ℕ) :
    f.units code < 2 * f.binade * (f.units (code + 1) - f.units code) := by
  obtain ⟨s, k, rfl, hk, hfull⟩ := f.exists_parts code
  rw [units_parts hk.le hfull, add_assoc, units_parts hk (hfull.imp_right (by omega)),
    ← Nat.sub_mul, show k.succ - k = 1 by omega, one_mul]
  exact Nat.mul_lt_mul_of_pos_right hk (by positivity)

/-! ## Midpoints -/

theorem lowerMidpoint_succ (code : ℕ) : f.lowerMidpoint (code + 1) = f.upperMidpoint code := rfl

theorem upperMidpoint_strictMono : StrictMono f.upperMidpoint := by
  refine strictMono_nat_of_lt_succ fun code ↦ ?_
  have h := f.units_lt_succ code
  have h' := f.units_lt_succ (code + 1)
  simp only [upperMidpoint]
  omega

/-- The upper midpoint of a place in a binade, in half units. -/
theorem upperMidpoint_parts {s k : ℕ} (hk : k < 2 * f.binade) (hfull : s = 0 ∨ f.binade ≤ k) :
    f.upperMidpoint (s * f.binade + k) = (2 * k + 1) * 2 ^ s := by
  rw [upperMidpoint, add_assoc, units_parts hk.le hfull,
    units_parts hk (hfull.imp_right fun h ↦ h.trans k.le_succ), ← add_mul]
  congr 1
  omega

theorem upperMidpoint_le_lowerMidpoint {code code' : ℕ} (h : code < code') :
    f.upperMidpoint code ≤ f.lowerMidpoint code' := by
  obtain ⟨n, rfl⟩ : ∃ n, code' = n + 1 := ⟨code' - 1, by omega⟩
  exact f.upperMidpoint_strictMono.monotone (by omega)

/-! ## The nearest value -/

variable {num den : ℕ}

/-- A fraction, counted in units of the smallest positive value. -/
def inUnits (num den : ℕ) : ℚ := num * 2 ^ f.unitExponent / den

/-- How a fraction is rounded: in a binade where its significand is full, or else in the lowest, to
the nearest place. -/
theorem exists_nearest (hf : 1 ≤ f.precision) (hnum : num ≠ 0) (hden : 0 < den) :
    ∃ s k, f.nearestCode num den = min (s * f.binade + k) f.infinityCode ∧
      (s = 0 ∨ (f.binade : ℚ) ≤ f.inUnits num den / 2 ^ s) ∧
      f.inUnits num den / 2 ^ s < 2 * f.binade ∧
      (|(k : ℚ) - f.inUnits num den / 2 ^ s| < 1 / 2 ∨
        (|(k : ℚ) - f.inUnits num den / 2 ^ s| = 1 / 2 ∧ k % 2 = 0)) := by
  obtain ⟨hlow, hhigh⟩ := floorLog2_bounds hnum hden.ne'
  set power := floorLog2 num den with hpower
  set s := (power + 1 - f.precision + f.unitExponent).toNat with hs
  have hunits : f.inUnits num den / 2 ^ s = num / den * 2 ^ (f.unitExponent : ℤ) / 2 ^ s := by
    rw [inUnits, zpow_natCast]
    ring
  have hfraction : f.inUnits num den / 2 ^ s
      = (num * 2 ^ f.unitExponent : ℕ) / (den * 2 ^ s : ℕ) := by
    rw [inUnits]
    push_cast
    rw [div_div]
  have hbinade : (2 * f.binade : ℚ) = 2 ^ (f.precision : ℤ) := by
    rw [binade, zpow_natCast]
    push_cast
    rw [← pow_succ', Nat.sub_add_cancel hf]
  -- Where `s` is not cut off at zero, it is the binade of the fraction; where it is, the fraction
  -- is below the end of the lowest binade and may be below its beginning.
  refine ⟨s, roundHalfEven (num * 2 ^ f.unitExponent) (den * 2 ^ s), ?_, ?_, ?_, ?_⟩
  · rw [nearestCode, if_neg hnum]
  · rcases Nat.eq_zero_or_pos s with hzero | hpos
    · exact .inl hzero
    · right
      have hhalf : (f.binade : ℚ) = 2 ^ ((f.precision : ℤ) - 1) := by
        rw [zpow_sub_one₀ two_ne_zero, ← hbinade]
        ring
      rw [hhalf, hunits, le_div_iff₀ (by positivity), ← zpow_natCast 2 s, ← zpow_add₀ two_ne_zero]
      calc (2 : ℚ) ^ ((f.precision : ℤ) - 1 + s) = 2 ^ power * 2 ^ (f.unitExponent : ℤ) := by
            rw [← zpow_add₀ two_ne_zero]
            congr 1
            omega
        _ ≤ num / den * 2 ^ (f.unitExponent : ℤ) := by gcongr
  · rw [hbinade, hunits, div_lt_iff₀ (by positivity), ← zpow_natCast 2 s, ← zpow_add₀ two_ne_zero]
    calc (num : ℚ) / den * 2 ^ (f.unitExponent : ℤ)
        < 2 ^ (power + 1) * 2 ^ (f.unitExponent : ℤ) := by gcongr
      _ = 2 ^ (power + 1 + f.unitExponent) := by rw [← zpow_add₀ two_ne_zero]
      _ ≤ 2 ^ ((f.precision : ℤ) + s) := zpow_le_zpow_right₀ one_le_two (by omega)
  · rw [hfraction]
    exact roundHalfEven_cases _ (by positivity)

theorem lowerMidpoint_lt {code : ℕ} (h : code ≠ 0) : f.lowerMidpoint code < 2 * f.units code := by
  have := f.units_strictMono (show code - 1 < code by omega)
  rw [lowerMidpoint]
  omega

theorem lt_upperMidpoint (code : ℕ) : 2 * f.units code < f.upperMidpoint code := by
  have := f.units_lt_succ code
  rw [upperMidpoint]
  omega

/-- A value with a place in a binade lies between the midpoints of that place; a midpoint itself it
is only where the code is even. -/
structure IsBetween (code : ℕ) (v : ℚ) : Prop where
  lower : f.lowerMidpoint code < 2 * v ∨ (f.lowerMidpoint code = 2 * v ∧ code % 2 = 0)
  upper : 2 * v < f.upperMidpoint code ∨ (2 * v = f.upperMidpoint code ∧ code % 2 = 0)

/-- The place that a value is rounded to is in its binade, or just behind it. -/
theorem bounds_of_nearest {s k : ℕ} {y : ℚ} (hfull : s = 0 ∨ (f.binade : ℚ) ≤ y)
    (hlt : y < 2 * f.binade) (hk : |(k : ℚ) - y| ≤ 1 / 2) :
    k ≤ 2 * f.binade ∧ (s = 0 ∨ f.binade ≤ k) := by
  obtain ⟨hge, hle⟩ := abs_le.mp hk
  constructor
  · have : (k : ℚ) < 2 * f.binade + 1 := by linarith
    exact Nat.lt_succ_iff.mp (by exact_mod_cast this)
  · refine hfull.imp_right fun h ↦ ?_
    have : (f.binade : ℚ) < k + 1 := by linarith
    exact Nat.lt_succ_iff.mp (by exact_mod_cast this)

theorem parity_parts (hf : 2 ≤ f.precision) (s k : ℕ) : (s * f.binade + k) % 2 = k % 2 := by
  have heven : f.binade % 2 = 0 := by
    rw [binade, show f.precision - 1 = f.precision - 2 + 1 by omega, pow_succ, Nat.mul_mod_left]
  rw [Nat.add_mod, Nat.mul_mod, heven, mul_zero, Nat.zero_mod, zero_add, Nat.mod_mod]

/-- What is rounded down by no more than a half lies above the lower midpoint. -/
theorem lower_of_nearest (hf : 2 ≤ f.precision) {s k : ℕ} {y : ℚ} (hy : 0 ≤ y)
    (hkle : k ≤ 2 * f.binade) (hkfull : s = 0 ∨ f.binade ≤ k) (hfull : s = 0 ∨ (f.binade : ℚ) ≤ y)
    (hk : (k : ℚ) - y < 1 / 2 ∨ ((k : ℚ) - y = 1 / 2 ∧ k % 2 = 0)) :
    (f.lowerMidpoint (s * f.binade + k) : ℚ) < 2 * (y * 2 ^ s) ∨
      ((f.lowerMidpoint (s * f.binade + k) : ℚ) = 2 * (y * 2 ^ s) ∧ (s * f.binade + k) % 2 = 0) := by
  have hpow : (0 : ℚ) < 2 ^ s := by positivity
  rw [f.parity_parts hf]
  rcases Nat.eq_zero_or_pos k with rfl | hpos
  · -- The lowest code has nothing below it.
    obtain rfl : s = 0 := hkfull.resolve_right (by have := f.binade_pos; omega)
    have hlower : f.lowerMidpoint (0 * f.binade + 0) = 0 := by
      rw [lowerMidpoint]
      simp [units, f.binade_pos]
    rw [hlower, Nat.cast_zero, pow_zero, mul_one]
    rcases hy.lt_or_eq with h | rfl
    · exact .inl (by linarith)
    · exact .inr ⟨(mul_zero 2).symm, rfl⟩
  -- The place below is in the same binade, unless the value is at the beginning of its own. There
  -- the step down is only half as large, and the value lies above the midpoint in any case.
  by_cases hprevious : s = 0 ∨ f.binade ≤ k - 1
  · have hlower : (f.lowerMidpoint (s * f.binade + k) : ℚ) = (2 * k - 1) * 2 ^ s := by
      rw [show s * f.binade + k = s * f.binade + (k - 1) + 1 by omega, lowerMidpoint_succ,
        f.upperMidpoint_parts (by omega) hprevious]
      push_cast [hpos]
      ring
    rw [hlower, ← mul_assoc]
    rcases hk with h | ⟨h, hparity⟩
    · exact .inl (mul_lt_mul_of_pos_right (by linarith) hpow)
    · exact .inr ⟨congrArg (· * (2 : ℚ) ^ s) (by linarith), hparity⟩
  · -- The value is at least that of the first place in the binade.
    obtain ⟨hs, hkB⟩ := not_or.mp hprevious
    have hfirst : k = f.binade := by
      have := hkfull.resolve_left hs
      omega
    have hlower := f.lowerMidpoint_lt (show s * f.binade + k ≠ 0 by omega)
    left
    calc (f.lowerMidpoint (s * f.binade + k) : ℚ) < (2 * f.units (s * f.binade + k) : ℕ) := by
          exact_mod_cast hlower
      _ = 2 * (f.binade * 2 ^ s) := by
          rw [units_parts hkle hkfull, hfirst]
          push_cast
          ring
      _ ≤ 2 * (y * 2 ^ s) := by
          gcongr
          exact hfull.resolve_left hs

/-- What is rounded up by no more than a half lies below the upper midpoint. -/
theorem upper_of_nearest (hf : 2 ≤ f.precision) {s k : ℕ} {y : ℚ} (hkle : k ≤ 2 * f.binade)
    (hkfull : s = 0 ∨ f.binade ≤ k) (hlt : y < 2 * f.binade)
    (hk : y - k < 1 / 2 ∨ (y - k = 1 / 2 ∧ k % 2 = 0)) :
    2 * (y * 2 ^ s) < f.upperMidpoint (s * f.binade + k) ∨
      (2 * (y * 2 ^ s) = f.upperMidpoint (s * f.binade + k) ∧ (s * f.binade + k) % 2 = 0) := by
  have hpow : (0 : ℚ) < 2 ^ s := by positivity
  rw [f.parity_parts hf]
  rcases hkle.lt_or_eq with hnext | hlast
  · have hupper : (f.upperMidpoint (s * f.binade + k) : ℚ) = (2 * k + 1) * 2 ^ s := by
      exact_mod_cast f.upperMidpoint_parts hnext hkfull
    rw [hupper, ← mul_assoc]
    rcases hk with h | ⟨h, hparity⟩
    · exact .inl (mul_lt_mul_of_pos_right (by linarith) hpow)
    · exact .inr ⟨congrArg (· * (2 : ℚ) ^ s) (by linarith), hparity⟩
  · -- The value is below that of the last place, which begins the next binade.
    left
    calc 2 * (y * 2 ^ s) < 2 * (2 * f.binade * 2 ^ s) := by gcongr
      _ = (2 * f.units (s * f.binade + k) : ℕ) := by
          rw [units_parts hkle hkfull, hlast]
          push_cast
          ring
      _ < f.upperMidpoint (s * f.binade + k) := by exact_mod_cast f.lt_upperMidpoint _

/-- A value lies between the midpoints of the place that it is rounded to. -/
theorem isBetween_parts (hf : 2 ≤ f.precision) {s k : ℕ} {v : ℚ} (hv : 0 ≤ v)
    (hfull : s = 0 ∨ (f.binade : ℚ) ≤ v / 2 ^ s) (hlt : v / 2 ^ s < 2 * f.binade)
    (hk : |(k : ℚ) - v / 2 ^ s| < 1 / 2 ∨ (|(k : ℚ) - v / 2 ^ s| = 1 / 2 ∧ k % 2 = 0)) :
    f.IsBetween (s * f.binade + k) v := by
  have hscale : v / 2 ^ s * 2 ^ s = v := div_mul_cancel₀ v (by positivity)
  obtain ⟨hkle, hkfull⟩ := f.bounds_of_nearest hfull hlt (hk.elim le_of_lt fun h ↦ h.1.le)
  have hdown : (k : ℚ) - v / 2 ^ s < 1 / 2 ∨ ((k : ℚ) - v / 2 ^ s = 1 / 2 ∧ k % 2 = 0) := by
    rcases hk with h | ⟨h, hparity⟩
    · exact .inl (abs_lt.mp h).2
    · exact (le_of_abs_le h.le).lt_or_eq.imp_right fun heq ↦ ⟨heq, hparity⟩
  have hup : v / 2 ^ s - k < 1 / 2 ∨ (v / 2 ^ s - k = 1 / 2 ∧ k % 2 = 0) := by
    rw [abs_sub_comm] at hk
    rcases hk with h | ⟨h, hparity⟩
    · exact .inl (abs_lt.mp h).2
    · exact (le_of_abs_le h.le).lt_or_eq.imp_right fun heq ↦ ⟨heq, hparity⟩
  have hlower := f.lower_of_nearest hf (by positivity) hkle hkfull hfull hdown
  have hupper := f.upper_of_nearest hf hkle hkfull hlt hup
  rw [hscale] at hlower hupper
  exact ⟨hlower, hupper⟩

variable {f}

/-- Midpoints rise with their codes, so there is one code only that a value lies between. -/
theorem IsBetween.unique {code code' : ℕ} {v : ℚ} (h : f.IsBetween code v)
    (h' : f.IsBetween code' v) : code = code' := by
  wlog hlt : code < code' generalizing code code'
  · rcases (not_lt.mp hlt).lt_or_eq with hgt | heq
    · exact (this h' h hgt).symm
    · exact heq.symm
  -- Of two codes, the value would have to be below the midpoint above one and above that below the
  -- other.
  have hle : (f.upperMidpoint code : ℚ) ≤ f.lowerMidpoint code' := by
    exact_mod_cast f.upperMidpoint_le_lowerMidpoint hlt
  rcases h.upper with hupper | ⟨hupper, heven⟩
  · rcases h'.lower with hlower | ⟨hlower, -⟩ <;> linarith
  · rcases h'.lower with hlower | ⟨hlower, heven'⟩
    · linarith
    · -- Both codes are even, so a code with midpoints of its own lies in between.
      have hstrict : f.upperMidpoint code < f.upperMidpoint (code' - 1) :=
        f.upperMidpoint_strictMono (by omega)
      have hpred : f.upperMidpoint (code' - 1) = f.lowerMidpoint code' := by
        rw [← lowerMidpoint_succ, show code' - 1 + 1 = code' by omega]
      have : (f.upperMidpoint code : ℚ) < f.lowerMidpoint code' := by
        rw [← hpred]
        exact_mod_cast hstrict
      linarith

theorem IsBetween.pos {code : ℕ} {v : ℚ} (h : f.IsBetween code v) (hcode : code ≠ 0) : 0 < v := by
  have hlt := f.units_strictMono (Nat.pos_of_ne_zero hcode)
  have hmidpoint : (0 : ℚ) < f.lowerMidpoint code := by
    rw [lowerMidpoint]
    exact_mod_cast Nat.add_pos_right _ ((Nat.zero_le _).trans_lt hlt)
  rcases h.lower with hlower | ⟨hlower, -⟩ <;> linarith

variable (f)

/-- **The code of a fraction is the one that it lies between**, below infinity. -/
theorem nearestCode_eq_of_isBetween (hf : 2 ≤ f.precision) {code : ℕ}
    (hcode : code < f.infinityCode) (hnum : num ≠ 0) (hden : 0 < den)
    (h : f.IsBetween code (f.inUnits num den)) : f.nearestCode num den = code := by
  obtain ⟨s, k, hnearest, hfull, hlt, hk⟩ := f.exists_nearest (by omega) hnum hden
  have hv : 0 ≤ f.inUnits num den := by rw [inUnits]; positivity
  rw [hnearest, (f.isBetween_parts hf hv hfull hlt hk).unique h]
  exact min_eq_left hcode.le

/-! ## Errors -/

theorem nearestCode_lt_infinityCode (hf : 2 ≤ f.precision) (hnum : num ≠ 0) (hden : 0 < den) {code : ℕ}
    (hcode : code < f.infinityCode) (h : f.inUnits num den < f.units code) :
    f.nearestCode num den < f.infinityCode := by
  obtain ⟨s, k, hnearest, hfull, hlt, hk⟩ := f.exists_nearest (by omega) hnum hden
  have hv : 0 ≤ f.inUnits num den := by rw [inUnits]; positivity
  have hbetween := f.isBetween_parts hf hv hfull hlt hk
  have hle : s * f.binade + k ≤ code := by
    by_contra hgt
    have hmid : (f.upperMidpoint code : ℚ) ≤ f.lowerMidpoint (s * f.binade + k) := by
      exact_mod_cast f.upperMidpoint_le_lowerMidpoint (not_le.mp hgt)
    have hupper : (2 * f.units code : ℚ) < f.upperMidpoint code := by
      exact_mod_cast f.lt_upperMidpoint code
    rcases hbetween.lower with hlower | ⟨hlower, -⟩ <;> linarith
  omega

theorem exists_units_nearestCode (hf : 2 ≤ f.precision) (hnum : num ≠ 0) (hden : 0 < den)
    (hfinite : f.nearestCode num den < f.infinityCode) :
    ∃ s k : ℕ, (f.units (f.nearestCode num den) : ℚ) = k * 2 ^ s ∧
      (s = 0 ∨ (f.binade : ℚ) ≤ f.inUnits num den / 2 ^ s) ∧
      |(k : ℚ) - f.inUnits num den / 2 ^ s| ≤ 1 / 2 := by
  obtain ⟨s, k, hnearest, hfull, hlt, hk⟩ := f.exists_nearest (by omega) hnum hden
  have hcode : f.nearestCode num den = s * f.binade + k := by omega
  have habs : |(k : ℚ) - f.inUnits num den / 2 ^ s| ≤ 1 / 2 := hk.elim le_of_lt fun h ↦ h.1.le
  obtain ⟨hkle, hkfull⟩ := f.bounds_of_nearest hfull hlt habs
  refine ⟨s, k, ?_, hfull, habs⟩
  rw [hcode, units_parts hkle hkfull]
  push_cast
  rfl

/-- **The relative error of rounding** to a value with a full significand. -/
theorem abs_units_nearestCode_sub_le (hf : 2 ≤ f.precision) (hnum : num ≠ 0) (hden : 0 < den)
    (hfull : (f.binade : ℚ) ≤ f.inUnits num den)
    (hfinite : f.nearestCode num den < f.infinityCode) :
    |(f.units (f.nearestCode num den) : ℚ) - f.inUnits num den|
      ≤ f.inUnits num den / (2 * f.binade) := by
  have hpos : (0 : ℚ) < f.binade := by exact_mod_cast f.binade_pos
  obtain ⟨s, k, hunits, hs, habs⟩ := f.exists_units_nearestCode hf hnum hden hfinite
  have hpow : (0 : ℚ) < 2 ^ s := by positivity
  have hsbound : (2 : ℚ) ^ s * f.binade ≤ f.inUnits num den := by
    rcases hs with rfl | hs
    · rwa [pow_zero, one_mul]
    · rwa [mul_comm, ← le_div_iff₀ hpow]
  rw [hunits]
  calc |(k : ℚ) * 2 ^ s - f.inUnits num den|
      = |(k : ℚ) - f.inUnits num den / 2 ^ s| * 2 ^ s := by
        rw [← abs_of_pos hpow, ← abs_mul, abs_of_pos hpow, sub_mul, div_mul_cancel₀ _ hpow.ne']
    _ ≤ 1 / 2 * 2 ^ s := by gcongr
    _ ≤ f.inUnits num den / (2 * f.binade) := by
        rw [le_div_iff₀ (by positivity)]
        linarith

/-- **Fractions that are values are not changed**: a natural number with no more bits than a
significand, times a power of two. -/
theorem units_nearestCode_eq (hf : 2 ≤ f.precision) (hnum : num ≠ 0) (hden : 0 < den) {m t : ℕ}
    (hm : m < 2 * f.binade) (hvalue : f.inUnits num den = m * 2 ^ t)
    (hfinite : f.nearestCode num den < f.infinityCode) :
    (f.units (f.nearestCode num den) : ℚ) = f.inUnits num den := by
  obtain ⟨s, k, hunits, hs, habs⟩ := f.exists_units_nearestCode hf hnum hden hfinite
  have hpow : (0 : ℚ) < 2 ^ s := by positivity
  -- The binade is no higher than the power of two, or the significand would not be full.
  have hst : s ≤ t := by
    by_contra hgt
    have hfull := hs.resolve_left (by omega)
    rw [hvalue, le_div_iff₀ hpow] at hfull
    have hlt : (m : ℚ) * 2 ^ t < f.binade * 2 ^ s :=
      calc (m : ℚ) * 2 ^ t < 2 * f.binade * 2 ^ t := by
            gcongr
            exact_mod_cast hm
        _ = f.binade * 2 ^ (t + 1) := by ring
        _ ≤ f.binade * 2 ^ s := by
            gcongr
            · exact one_le_two
            · omega
    linarith
  have hplace : f.inUnits num den / 2 ^ s = (m * 2 ^ (t - s) : ℕ) := by
    rw [hvalue, div_eq_iff hpow.ne']
    push_cast
    rw [mul_assoc, ← pow_add, Nat.sub_add_cancel hst]
  have hk : k = m * 2 ^ (t - s) := by
    rw [hplace] at habs
    obtain ⟨hge, hle⟩ := abs_le.mp habs
    generalize m * 2 ^ (t - s) = place at *
    have hlower : (place : ℚ) < k + 1 := by linarith
    have hupper : (k : ℚ) < place + 1 := by linarith
    exact le_antisymm (Nat.lt_succ_iff.mp (by exact_mod_cast hupper))
      (Nat.lt_succ_iff.mp (by exact_mod_cast hlower))
  rw [hunits, hk, ← hplace, div_mul_cancel₀ _ hpow.ne']

end BinaryFormat

end ReportPress.Number
