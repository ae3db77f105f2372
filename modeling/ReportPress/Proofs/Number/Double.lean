import ReportPress.Number.Single
import ReportPress.Proofs.Number.Shortest

/-!
# Numbers read by way of double precision

A decimal number of up to fifty-three bits is read in two roundings: of the power of ten, and of the
product or quotient. The result is off by less than one part in `2 ^ 51`. Where the power of ten is
a value and the decimal number is one, neither rounding changes anything.
-/

namespace ReportPress.Number.Double

open BinaryFormat

-- Powers are those of the core library, whatever else is in scope.
attribute [local instance (2000)] instPowNat

variable {num den significand n : ℕ} {exponent : ℤ}

/-! ## Rounding to double precision -/

theorem binade_double : double.binade = 2 ^ 52 := rfl

theorem nearestCode_lt_infinityCode (hnum : num ≠ 0) (hden : 0 < den)
    (h : double.inUnits num den < 2 ^ 200 * 2 ^ double.unitExponent) :
    double.nearestCode num den < double.infinityCode := by
  have hcode : (double.unitExponent + 148) * double.binade + double.binade
      < double.infinityCode := by decide
  refine double.nearestCode_lt_infinityCode (by decide) hnum hden hcode (h.trans_le (le_of_eq ?_))
  rw [units_parts (by omega) (.inr le_rfl), binade_double, pow_add]
  push_cast
  ring

theorem abs_units_nearestCode_sub_le (hnum : num ≠ 0) (hden : 0 < den)
    (hfull : 2 ^ 52 ≤ double.inUnits num den)
    (h : double.inUnits num den < 2 ^ 200 * 2 ^ double.unitExponent) :
    |(double.units (double.nearestCode num den) : ℚ) - double.inUnits num den|
      ≤ double.inUnits num den / 2 ^ 53 := by
  have hbinade : (double.binade : ℚ) = 2 ^ 52 := by rw [binade_double]; norm_num
  have := double.abs_units_nearestCode_sub_le (by decide) hnum hden (hbinade ▸ hfull)
    (nearestCode_lt_infinityCode hnum hden h)
  rwa [hbinade, ← pow_succ'] at this

theorem units_nearestCode_eq (hnum : num ≠ 0) (hden : 0 < den) {m t : ℕ} (hm : m < 2 ^ 53)
    (hvalue : double.inUnits num den = m * 2 ^ t)
    (h : double.inUnits num den < 2 ^ 200 * 2 ^ double.unitExponent) :
    (double.units (double.nearestCode num den) : ℚ) = double.inUnits num den := by
  refine double.units_nearestCode_eq (by decide) hnum hden ?_ hvalue
    (nearestCode_lt_infinityCode hnum hden h)
  rw [binade_double]
  exact hm

theorem inUnits_one (n : ℕ) : double.inUnits n 1 = n * 2 ^ double.unitExponent := by
  rw [inUnits, Nat.cast_one, div_one]

/-! ## Powers of ten -/

theorem ten_pow_lt (hn : n ≤ 60) : (10 : ℚ) ^ n < 2 ^ 200 :=
  (pow_le_pow_right₀ (by norm_num) hn).trans_lt (by norm_num)

theorem two_pow_le_unit : (2 : ℚ) ^ 256 ≤ 2 ^ double.unitExponent :=
  pow_le_pow_right₀ one_le_two (by decide)

theorem inUnits_ten_pow_bounds (hn : n ≤ 60) :
    2 ^ 52 ≤ double.inUnits (10 ^ n) 1 ∧
      double.inUnits (10 ^ n) 1 < 2 ^ 200 * 2 ^ double.unitExponent := by
  have hone : (1 : ℚ) ≤ 10 ^ n := one_le_pow₀ (by norm_num)
  rw [inUnits_one]
  push_cast
  constructor
  · calc (2 : ℚ) ^ 52 ≤ 1 * 2 ^ 256 := by norm_num
      _ ≤ 10 ^ n * 2 ^ double.unitExponent :=
        mul_le_mul hone two_pow_le_unit (by positivity) (by positivity)
  · gcongr
    exact ten_pow_lt hn

theorem abs_units_powerOfTen_sub_le (hn : n ≤ 60) :
    |(double.units (powerOfTen n) : ℚ) - 10 ^ n * 2 ^ double.unitExponent|
      ≤ 10 ^ n * 2 ^ double.unitExponent / 2 ^ 53 := by
  obtain ⟨hfull, hlt⟩ := inUnits_ten_pow_bounds hn
  have := abs_units_nearestCode_sub_le (by positivity) one_pos hfull hlt
  rw [inUnits_one] at this
  push_cast at this
  exact this

theorem units_powerOfTen (hn : n ≤ 22) :
    (double.units (powerOfTen n) : ℚ) = 10 ^ n * 2 ^ double.unitExponent := by
  have hfive : 5 ^ n < 2 ^ 53 := (Nat.pow_le_pow_right (by norm_num) hn).trans_lt (by norm_num)
  have hvalue : double.inUnits (10 ^ n) 1 = (5 ^ n : ℕ) * 2 ^ (n + double.unitExponent) := by
    rw [inUnits_one, pow_add, show (10 : ℕ) = 5 * 2 by norm_num, Nat.mul_pow]
    push_cast
    ring
  have := units_nearestCode_eq (by positivity) one_pos hfive hvalue
    (inUnits_ten_pow_bounds (by omega)).2
  rw [powerOfTen, this, inUnits_one]
  push_cast
  rfl

/-! ## Scaling -/

/-- A second rounding of what was nearly right. -/
theorem abs_units_nearestCode_sub_le_of_near {v : ℚ} (hnum : num ≠ 0) (hden : 0 < den)
    (hlow : 2 ^ 53 ≤ v) (hhigh : v < 2 ^ 199 * 2 ^ double.unitExponent)
    (hnear : |double.inUnits num den - v| ≤ v / 2 ^ 52) :
    double.nearestCode num den < double.infinityCode ∧
      |(double.units (double.nearestCode num den) : ℚ) - v| ≤ v / 2 ^ 51 := by
  obtain ⟨hbelow, habove⟩ := abs_le.mp hnear
  have hlt : double.inUnits num den < 2 ^ 200 * 2 ^ double.unitExponent := by
    rw [show (200 : ℕ) = 199 + 1 by norm_num, pow_succ]
    linarith
  refine ⟨nearestCode_lt_infinityCode hnum hden hlt, ?_⟩
  obtain ⟨hbelow', habove'⟩ := abs_le.mp
    (abs_units_nearestCode_sub_le hnum hden (by linarith) hlt)
  rw [abs_le]
  constructor <;> linarith

theorem units_zero : double.units 0 = 0 := by decide

variable {negative : Bool}

/-- A significand of up to fifty-three bits is a value, and no digits are cut off. -/
theorem ofDecimal?_eq_scale? (hlt : significand < 2 ^ 53) :
    ofDecimal? ⟨negative, significand, exponent⟩
      = scale? (double.nearestCode significand 1) exponent := by
  have hexcess : excessDigits significand = 0 := if_pos (hlt.trans (by norm_num))
  simp only [ofDecimal?, hexcess, pow_zero, Nat.div_one, Nat.cast_zero, add_zero]

theorem units_nearestCode_natural (hpos : 0 < significand) (hlt : significand < 2 ^ 53) :
    (double.units (double.nearestCode significand 1) : ℚ)
      = significand * 2 ^ double.unitExponent := by
  have hltUnits : double.inUnits significand 1 < 2 ^ 200 * 2 ^ double.unitExponent := by
    have : (significand : ℚ) < 2 ^ 200 := by
      exact_mod_cast hlt.trans (by norm_num)
    rw [inUnits_one]
    gcongr
  rw [units_nearestCode_eq hpos.ne' one_pos hlt (inUnits_one significand) hltUnits, inUnits_one]

theorem abs_div_sub_div_le {a p q : ℚ} (ha : 0 ≤ a) (hq : 0 < q) (h : |p - q| ≤ q / 2 ^ 53) :
    |a / p - a / q| ≤ a / q / 2 ^ 52 := by
  obtain ⟨hbelow, -⟩ := abs_le.mp h
  have hhalf : q / 2 ≤ p := by linarith
  have hp : 0 < p := by linarith
  rw [div_sub_div _ _ hp.ne' hq.ne', abs_div, abs_of_pos (mul_pos hp hq), div_le_iff₀ (mul_pos hp hq)]
  calc |a * q - p * a| = a * |p - q| := by
        rw [mul_comm p, ← mul_sub, abs_mul, abs_of_nonneg ha, abs_sub_comm]
    _ ≤ a * (q / 2 ^ 53) := by gcongr
    _ = a / q / 2 ^ 52 * (q / 2 * q) := by field_simp
    _ ≤ a / q / 2 ^ 52 * (p * q) := by gcongr

theorem units_powerOfTen_pos (hn : n ≤ 60) : 0 < double.units (powerOfTen n) := by
  have hbelow := (abs_le.mp (abs_units_powerOfTen_sub_le hn)).1
  have hten : (0 : ℚ) < 10 ^ n * 2 ^ double.unitExponent := by positivity
  have : (0 : ℚ) < double.units (powerOfTen n) := by linarith
  exact_mod_cast this

theorem nearestCode_natural_ne_zero (hpos : 0 < significand) (hlt : significand < 2 ^ 53) :
    double.nearestCode significand 1 ≠ 0 := by
  intro hzero
  have hunits := units_nearestCode_natural hpos hlt
  rw [hzero, units_zero] at hunits
  have : (0 : ℚ) < significand * 2 ^ double.unitExponent := by positivity
  simp [← hunits] at this

theorem units_nearestCode_natural_ne_zero (hpos : 0 < significand) (hlt : significand < 2 ^ 53) :
    double.units (double.nearestCode significand 1) ≠ 0 := by
  have := double.units_strictMono
    (Nat.pos_of_ne_zero (nearestCode_natural_ne_zero hpos hlt))
  omega

/-- The fraction that a decimal number is read as: it is rounded last, it is off by the rounding of
the power of ten, and it is exact where that is. -/
structure ReadAs (negative : Bool) (significand : ℕ) (exponent : ℤ) (num den : ℕ) : Prop where
  num_ne_zero : num ≠ 0
  den_pos : 0 < den
  read : double.nearestCode num den < double.infinityCode →
    ofDecimal? ⟨negative, significand, exponent⟩ = some (double.nearestCode num den)
  /-- It is off by little. -/
  near : |double.inUnits num den - double.decimalUnits significand exponent|
    ≤ double.decimalUnits significand exponent / 2 ^ 52
  /-- It is not off where the power of ten is a value. -/
  eq_of_bounds : -22 ≤ exponent → exponent ≤ 22 →
    double.inUnits num den = double.decimalUnits significand exponent

/-- With a negative exponent, the significand is divided by the power of ten. -/
theorem readAs_neg (negative : Bool) (hpos : 0 < significand) (hlt : significand < 2 ^ 53)
    (hn : n ≤ 60) (hzero : n ≠ 0) :
    ReadAs negative significand (-n) (double.units (double.nearestCode significand 1))
      (double.units (powerOfTen n)) := by
  have hunits := units_nearestCode_natural hpos hlt
  have hcode := nearestCode_natural_ne_zero hpos hlt
  have hvalue : double.decimalUnits significand (-n)
      = significand * 2 ^ double.unitExponent * 2 ^ double.unitExponent
        / (10 ^ n * 2 ^ double.unitExponent) := by
    rw [decimalUnits, zpow_neg, zpow_natCast]
    field_simp
  refine ⟨units_nearestCode_natural_ne_zero hpos hlt, units_powerOfTen_pos hn, fun _ ↦ ?_, ?_,
    fun hexact _ ↦ ?_⟩
  · rw [ofDecimal?_eq_scale? hlt, scale?, if_neg hcode, if_neg (by rw [greatestPower]; omega),
      if_neg (by rw [greatestPower]; omega), if_pos (by omega), neg_neg, Int.toNat_natCast]
    rfl
  · rw [inUnits, hunits, hvalue]
    exact abs_div_sub_div_le (by positivity) (by positivity) (abs_units_powerOfTen_sub_le hn)
  · rw [inUnits, hunits, hvalue, units_powerOfTen (by omega)]

/-- Otherwise it is multiplied by the power of ten. -/
theorem readAs_natCast (negative : Bool) (hpos : 0 < significand) (hlt : significand < 2 ^ 53)
    (hn : n ≤ 60) :
    ReadAs negative significand n
      (double.units (double.nearestCode significand 1) * double.units (powerOfTen n))
      (2 ^ (2 * double.unitExponent)) := by
  have hunits := units_nearestCode_natural hpos hlt
  have hcode := nearestCode_natural_ne_zero hpos hlt
  have hproduct : double.inUnits
      (double.units (double.nearestCode significand 1) * double.units (powerOfTen n))
      (2 ^ (2 * double.unitExponent)) = significand * double.units (powerOfTen n) := by
    rw [inUnits]
    push_cast
    rw [hunits, two_mul, pow_add]
    field_simp
  have hvalue : double.decimalUnits significand n
      = significand * (10 ^ n * 2 ^ double.unitExponent) := by
    rw [decimalUnits, zpow_natCast, mul_assoc]
  refine ⟨mul_ne_zero (units_nearestCode_natural_ne_zero hpos hlt) (units_powerOfTen_pos hn).ne',
    by positivity, fun hfinite ↦ ?_, ?_, fun _ hexact ↦ ?_⟩
  · rw [ofDecimal?_eq_scale? hlt, scale?, if_neg hcode, if_neg (by omega), if_neg (by omega),
      if_neg (by omega), if_pos (by rw [greatestPower]; omega), Int.toNat_natCast]
    exact if_pos hfinite
  · rw [hproduct, hvalue, ← mul_sub, abs_mul, Nat.abs_cast]
    calc (significand : ℚ) * |(double.units (powerOfTen n) : ℚ) - 10 ^ n * 2 ^ double.unitExponent|
        ≤ significand * (10 ^ n * 2 ^ double.unitExponent / 2 ^ 53) := by
          gcongr
          exact abs_units_powerOfTen_sub_le hn
      _ ≤ significand * (10 ^ n * 2 ^ double.unitExponent) / 2 ^ 52 := by
          rw [← mul_div_assoc]
          exact div_le_div_of_nonneg_left (by positivity) (by positivity) (by norm_num)
  · rw [hproduct, hvalue, units_powerOfTen (by omega)]

theorem exists_readAs (negative : Bool) (hpos : 0 < significand) (hlt : significand < 2 ^ 53)
    (hmin : -60 ≤ exponent) (hmax : exponent ≤ 60) :
    ∃ num den, ReadAs negative significand exponent num den := by
  rcases lt_or_ge exponent 0 with hneg | hnonneg
  · obtain ⟨n, rfl⟩ : ∃ n : ℕ, exponent = -n := ⟨exponent.natAbs, by omega⟩
    exact ⟨_, _, readAs_neg negative hpos hlt (by omega) (by omega)⟩
  · obtain ⟨n, rfl⟩ := Int.eq_ofNat_of_zero_le hnonneg
    exact ⟨_, _, readAs_natCast negative hpos hlt (by omega)⟩

/-- **How far off a number is read**: by less than one part in `2 ^ 51`; and not at all where the
power of ten and the number itself are values. -/
theorem exists_ofDecimal? (negative : Bool) (hpos : 0 < significand) (hlt : significand < 2 ^ 53)
    (hmin : -60 ≤ exponent) (hmax : exponent ≤ 60)
    (hrange : double.decimalUnits significand exponent < 2 ^ 199 * 2 ^ double.unitExponent) :
    ∃ code, ofDecimal? ⟨negative, significand, exponent⟩ = some code ∧
      |(double.units code : ℚ) - double.decimalUnits significand exponent|
        ≤ double.decimalUnits significand exponent / 2 ^ 51 ∧
      (-22 ≤ exponent → exponent ≤ 22 →
        (∃ m t : ℕ, m < 2 ^ 53 ∧ double.decimalUnits significand exponent = m * 2 ^ t) →
          (double.units code : ℚ) = double.decimalUnits significand exponent) := by
  obtain ⟨num, den, hfraction⟩ := exists_readAs negative hpos hlt hmin hmax
  -- Far above the smallest positive value, rounding is off by a part of the number.
  have hlow : (2 : ℚ) ^ 53 ≤ double.decimalUnits significand exponent := by
    have hten : ((10 : ℚ) ^ 60)⁻¹ ≤ 10 ^ exponent := by
      rw [← zpow_natCast, ← zpow_neg]
      exact zpow_le_zpow_right₀ (by norm_num) hmin
    have hone : (1 : ℚ) ≤ significand := by exact_mod_cast hpos
    calc (2 : ℚ) ^ 53 ≤ 1 * ((10 : ℚ) ^ 60)⁻¹ * 2 ^ 256 := by norm_num
      _ ≤ double.decimalUnits significand exponent := by
        rw [decimalUnits]
        exact mul_le_mul (mul_le_mul hone hten (by positivity) (by positivity)) two_pow_le_unit
          (by positivity) (by positivity)
  obtain ⟨hfinite, hoff⟩ := abs_units_nearestCode_sub_le_of_near hfraction.num_ne_zero
    hfraction.den_pos hlow hrange hfraction.near
  refine ⟨_, hfraction.read hfinite, hoff, ?_⟩
  rintro hge hle ⟨m, t, hm, hvalue⟩
  have hunits := hfraction.eq_of_bounds hge hle
  rw [units_nearestCode_eq hfraction.num_ne_zero hfraction.den_pos hm (hunits.trans hvalue), hunits]
  rw [hunits]
  refine hrange.trans_le ?_
  gcongr <;> norm_num

end ReportPress.Number.Double
