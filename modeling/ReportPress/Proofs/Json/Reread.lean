import ReportPress.Proofs.Json.Midpoints
import ReportPress.Proofs.Number.Double

/-!
# The shortest digits are read back

The shortest digits of a single-precision value read as it when they are rounded once. In JSON they
are rounded three times, by way of double precision, and the result is off by less than one part in
`2 ^ 51` before the last rounding. That makes no difference to digits that are further than that
from the midpoints of the value: the many, since they are close to the value itself. The few may be
next to a midpoint, where all cases are known; and what is a midpoint is read without any error.
-/

namespace ReportPress.Json

open Number BinaryFormat

-- Powers are those of the core library, whatever else is in scope.
attribute [local instance (2000)] instPowNat

/-! ## Reading by way of double precision -/

section Reading

variable {significand : ℕ} {exponent : ℤ}

theorem decimalUnits_single (significand : ℕ) (exponent : ℤ) :
    single.decimalUnits significand exponent
      = double.decimalUnits significand exponent * 2 ^ single.unitExponent
        / 2 ^ double.unitExponent := by
  rw [decimalUnits, decimalUnits, eq_div_iff (by positivity)]
  ring

/-- What is known of a fraction that is rounded last when a decimal number is read. -/
structure Reading (significand : ℕ) (exponent : ℤ) (num den : ℕ) : Prop where
  num_ne_zero : num ≠ 0
  den_pos : 0 < den
  read (negative : Bool) :
    codeByDouble? ⟨negative, significand, exponent⟩ = some (single.nearestCode num den)
  /-- It is off by little. -/
  near : |single.inUnits num den - single.decimalUnits significand exponent|
    ≤ single.decimalUnits significand exponent / 2 ^ 51
  /-- It is not off where powers of ten are values and half of the number has few bits. -/
  eq_of_bounds : -22 ≤ exponent → exponent ≤ 22 →
    (∃ m t : ℕ, m < 2 ^ 53 ∧ 2 * single.decimalUnits significand exponent = m * 2 ^ t) →
      single.inUnits num den = single.decimalUnits significand exponent

theorem exists_reading (hpos : 0 < significand) (hlt : significand < 2 ^ 53) (hmin : -60 ≤ exponent)
    (hmax : exponent ≤ 60) (hrange : (significand : ℚ) * 10 ^ exponent < 2 ^ 199) :
    ∃ num den, Reading significand exponent num den := by
  set scale : ℚ := 2 ^ single.unitExponent / 2 ^ double.unitExponent with hscale
  have hscalePos : 0 < scale := by positivity
  have hsingle : single.decimalUnits significand exponent
      = double.decimalUnits significand exponent * scale := by
    rw [decimalUnits_single, mul_div_assoc]
  have hpositive : 0 < double.decimalUnits significand exponent := decimalUnits_pos_iff.mpr hpos
  have hrange' : double.decimalUnits significand exponent < 2 ^ 199 * 2 ^ double.unitExponent :=
    mul_lt_mul_of_pos_right hrange (by positivity)
  obtain ⟨code, hread, hnear, hexact⟩ := Double.exists_ofDecimal? false hpos hlt hmin hmax hrange'
  have hinUnits : single.inUnits (double.units code) (2 ^ double.unitExponent)
      = double.units code * scale := by
    rw [inUnits, hscale]
    push_cast
    rw [mul_div_assoc]
  have hcode : 0 < double.units code := by
    have hbelow := (abs_le.mp hnear).1
    have : (0 : ℚ) < double.units code := by linarith
    exact_mod_cast this
  -- The fraction that is rounded last is the number in double precision.
  refine ⟨double.units code, 2 ^ double.unitExponent, hcode.ne', by positivity, fun negative ↦ ?_,
    ?_, ?_⟩
  · have hread' : Double.ofDecimal? ⟨negative, significand, exponent⟩ = some code := hread
    rw [codeByDouble?, hread']
    rfl
  · rw [hinUnits, hsingle, ← sub_mul, abs_mul, abs_of_pos hscalePos, mul_div_right_comm]
    exact mul_le_mul_of_nonneg_right hnear hscalePos.le
  · rintro hge hle ⟨m, t, hm, hvalue⟩
    rw [hinUnits, hsingle, hexact hge hle ⟨m, t + (double.unitExponent - 150), hm, ?_⟩]
    have hunit : double.unitExponent - 150 + (single.unitExponent + 1) = double.unitExponent := rfl
    rw [hsingle, hscale, ← hunit, pow_add _ _ (single.unitExponent + 1),
      pow_succ _ single.unitExponent] at hvalue
    rw [pow_add, ← mul_assoc, ← hvalue]
    field_simp

/-! ## Reading what is spelled -/

theorem magnitude_spelled (d : Decimal) : (spelled d).magnitude = d.magnitude := by
  rw [← d.magnitude_normalize, spelled]
  split_ifs with hzero hwhole
  · simp [Decimal.magnitude, hzero]
  · obtain ⟨n, hn⟩ : ∃ n : ℕ, d.normalize.exponent = n := ⟨_, (Int.toNat_of_nonneg hwhole.1).symm⟩
    simp only [Decimal.magnitude, hn, Int.toNat_natCast, pow_succ, zpow_natCast, zpow_neg_one]
    push_cast
    ring
  · rfl

theorem negative_spelled (d : Decimal) : (spelled d).negative = d.negative := by
  rw [spelled]
  split_ifs
  · rfl
  · rfl
  · exact d.negative_normalize

theorem spelled_cases (d : Decimal) (hzero : d.significand ≠ 0) :
    (∃ n < 10 ^ 13, (spelled d).significand = n * 10 ∧ (spelled d).exponent = -1) ∨
      ∃ zeros : ℕ, (spelled d).significand * 10 ^ zeros = d.significand ∧
        (spelled d).exponent = d.exponent + zeros := by
  have hnormal : d.normalize.significand ≠ 0 := mt d.significand_normalize_eq_zero.mp hzero
  rw [spelled, if_neg hnormal]
  split_ifs with hwhole
  · left
    refine ⟨d.normalize.significand * 10 ^ d.normalize.exponent.toNat, ?_, ?_, rfl⟩
    -- A whole number is spelled with a fraction only up to thirteen places.
    · obtain ⟨hexponent, hpoint⟩ := hwhole
      have hpos : 0 < decimalLength d.normalize.significand := Nat.length_toDigits_pos
      have hlt : d.normalize.significand < 10 ^ decimalLength d.normalize.significand :=
        (Nat.length_toDigits_le_iff (by norm_num) hpos).mp le_rfl
      rw [Decimal.point] at hpoint
      calc d.normalize.significand * 10 ^ d.normalize.exponent.toNat
          < 10 ^ decimalLength d.normalize.significand * 10 ^ d.normalize.exponent.toNat :=
            Nat.mul_lt_mul_of_pos_right hlt (by positivity)
        _ = 10 ^ (decimalLength d.normalize.significand + d.normalize.exponent.toNat) :=
            (pow_add _ _ _).symm
        _ ≤ 10 ^ 13 := Nat.pow_le_pow_right (by norm_num) (by omega)
    · rw [pow_succ, mul_assoc]
  · right
    obtain ⟨zeros, hzeros, hexponent⟩ := d.exists_normalize_eq
    exact ⟨zeros, hzeros, hexponent hzero⟩

/-- Of digits without their zeros, whatever zeros were left out before or are left out now. -/
theorem spelled_normalize_cases (d : Decimal) (hzero : d.significand ≠ 0) :
    (∃ n < 10 ^ 13, (spelled d.normalize).significand = n * 10 ∧ (spelled d.normalize).exponent = -1) ∨
      ∃ zeros : ℕ, (spelled d.normalize).significand * 10 ^ zeros = d.significand ∧
        (spelled d.normalize).exponent = d.exponent + zeros := by
  have hnormal : d.normalize.significand ≠ 0 := mt d.significand_normalize_eq_zero.mp hzero
  obtain ⟨stripped, hstripped, hexponent⟩ := d.exists_normalize_eq
  refine (spelled_cases d.normalize hnormal).imp_right ?_
  rintro ⟨zeros, hzeros, hshift⟩
  refine ⟨zeros + stripped, ?_, ?_⟩
  · rw [pow_add, ← mul_assoc, hzeros, hstripped]
  · rw [hshift, hexponent hzero]
    push_cast
    ring

end Reading

/-! ## Midpoints -/

section Midpoints

variable {code significand : ℕ} {exponent : ℤ} {v w : ℚ}

/-- A number that is far from both midpoints of a value may be off by a little. -/
theorem isBetween_of_far (h : single.IsBetween code v) (hnear : |w - v| ≤ v / 2 ^ 51)
    (hlower : ¬IsNextTo (single.lowerMidpoint code) v)
    (hupper : ¬IsNextTo (single.upperMidpoint code) v) : single.IsBetween code w := by
  obtain ⟨hbelow, habove⟩ := abs_le.mp hnear
  have hlow : (single.lowerMidpoint code : ℚ) ≤ 2 * v := h.lower.elim le_of_lt fun h ↦ h.1.le
  have hhigh : 2 * v ≤ single.upperMidpoint code := h.upper.elim le_of_lt fun h ↦ h.1.le
  rw [IsNextTo, not_le, abs_of_nonneg (by linarith)] at hlower
  rw [IsNextTo, not_le, abs_of_nonpos (by linarith)] at hupper
  exact ⟨.inl (by linarith), .inl (by linarith)⟩

/-- Digits of more than twenty-six bits are far from the midpoints. -/
theorem far_of_two_pow_le (hcode : code ≠ 0) (hsignificand : 2 ^ 26 ≤ significand)
    (hnear : |single.decimalUnits significand exponent - single.units code|
      ≤ single.decimalUnits 1 exponent) :
    ¬IsNextTo (single.lowerMidpoint code) (single.decimalUnits significand exponent) ∧
      ¬IsNextTo (single.upperMidpoint code) (single.decimalUnits significand exponent) := by
  have hplace : 2 ^ 26 * single.decimalUnits 1 exponent
      ≤ single.decimalUnits significand exponent := by
    have hcast : (2 : ℚ) ^ 26 ≤ significand := by exact_mod_cast hsignificand
    have hnonneg : (0 : ℚ) ≤ 10 ^ exponent * 2 ^ single.unitExponent := by positivity
    simp only [decimalUnits, Nat.cast_one, one_mul, mul_assoc]
    exact mul_le_mul_of_nonneg_right hcast hnonneg
  have hpositive : 0 < single.decimalUnits significand exponent :=
    decimalUnits_pos_iff.mpr (by omega)
  -- A step between values is at least a part in `2 ^ 24` of the value, and the digits are nearer to
  -- the value than a part in `2 ^ 26`.
  have hbelow := single.units_succ_le (code - 1)
  have habove := single.units_lt_mul code
  have hlt := single.units_strictMono (show code - 1 < code by omega)
  have hlt' := single.units_lt_succ code
  rw [show code - 1 + 1 = code by omega] at hbelow
  rw [show 2 * single.binade = 2 ^ 24 by decide] at hbelow habove
  zify [hlt.le] at hbelow
  zify [hlt'.le] at habove
  qify at hbelow habove
  obtain ⟨hdown, hup⟩ := abs_le.mp hnear
  generalize single.decimalUnits significand exponent = v at *
  generalize single.decimalUnits 1 exponent = place at *
  rw [IsNextTo, IsNextTo, not_le, not_le]
  constructor
  · have hgap : v < (2 * v - single.lowerMidpoint code) * 2 ^ 50 := by
      rw [lowerMidpoint]
      push_cast
      linarith
    linarith [le_abs_self (2 * v - single.lowerMidpoint code)]
  · have hgap : v < (single.upperMidpoint code - 2 * v) * 2 ^ 50 := by
      rw [upperMidpoint]
      push_cast
      linarith
    linarith [neg_le_abs (2 * v - single.upperMidpoint code)]

/-- A decimal number of few digits that is a midpoint has a small power of ten. -/
theorem bounds_of_eq_upperMidpoint (hpos : 0 < significand) (hlt : significand < 10 ^ 8)
    (h : 2 * single.decimalUnits significand exponent = single.upperMidpoint code) :
    -22 ≤ exponent ∧ exponent ≤ 22 ∧
      ∃ m t : ℕ, m < 2 ^ 53 ∧ 2 * single.decimalUnits significand exponent = m * 2 ^ t := by
  obtain ⟨s, k, rfl, hk, hfull⟩ := single.exists_parts code
  rw [single.upperMidpoint_parts hk hfull] at h
  have hbinade : single.binade = 2 ^ 23 := rfl
  rw [hbinade] at hk
  have hscaled := two_mul_decimalUnits_mul single significand exponent
  rw [h] at hscaled
  have hnat : (2 * k + 1) * 2 ^ s * 10 ^ (-exponent).toNat
      = significand * 10 ^ exponent.toNat * 2 ^ (single.unitExponent + 1) := by exact_mod_cast hscaled
  -- The midpoint is an odd number of half units. A large power of ten on either side would bring a
  -- factor of five into it that eight digits or twenty-five bits have no room for.
  have hcoprime (a b : ℕ) : Nat.Coprime (5 ^ a) (2 ^ b) := Nat.Coprime.pow _ _ (by norm_num)
  refine ⟨?_, ?_, 2 * k + 1, s, by omega, by rw [h]; push_cast; ring⟩
  · by_contra hmin
    have hdvd : 5 ^ 12 ∣ significand * 10 ^ exponent.toNat * 2 ^ (single.unitExponent + 1) := by
      rw [← hnat]
      exact dvd_mul_of_dvd_right ((pow_dvd_pow _ (by omega)).trans
        (pow_dvd_pow_of_dvd (by norm_num) _)) _
    rw [show exponent.toNat = 0 by omega, pow_zero, mul_one] at hdvd
    have := Nat.le_of_dvd hpos ((hcoprime _ _).dvd_of_dvd_mul_right hdvd)
    omega
  · by_contra hmax
    have hdvd : 5 ^ 12 ∣ (2 * k + 1) * 2 ^ s * 10 ^ (-exponent).toNat := by
      rw [hnat]
      exact dvd_mul_of_dvd_left (dvd_mul_of_dvd_right ((pow_dvd_pow _ (by omega)).trans
        (pow_dvd_pow_of_dvd (by norm_num) _)) _) _
    rw [show (-exponent).toNat = 0 by omega, pow_zero, mul_one] at hdvd
    have := Nat.le_of_dvd (by omega) ((hcoprime _ _).dvd_of_dvd_mul_right hdvd)
    omega

end Midpoints

/-! ## The shortest digits are read back -/

section Shortest

variable {code significand : ℕ} {exponent : ℤ} {num den : ℕ}

namespace Reading

theorem nearestCode_eq (h : Reading significand exponent num den)
    (hfinite : code < single.infinityCode) (hbetween : single.IsBetween code (single.inUnits num den)) :
    single.nearestCode num den = code :=
  single.nearestCode_eq_of_isBetween (by decide) hfinite h.num_ne_zero h.den_pos hbetween

/-- Next to a midpoint, the number is read right unless its digits are not those that are
written. -/
theorem digitsReadBack_or_nearestCode_eq {below : ℕ} (h : Reading significand exponent num den)
    (hpos : 0 < significand) (hlt : significand < 10 ^ 8) (hmin : -53 ≤ exponent)
    (hmax : exponent ≤ 48) (hfinite : code < single.infinityCode)
    (hbetween : single.IsBetween code (single.decimalUnits significand exponent))
    (hbelow : code = below ∨ code = below + 1)
    (hnext : IsNextTo (single.upperMidpoint below) (single.decimalUnits significand exponent)) :
    digitsReadBack code = true ∨ single.nearestCode num den = code := by
  rcases eq_or_readsRight_or_digitsReadBack hpos hlt hmin hmax (by omega) hnext with
    heq | hright | ⟨hback, hback'⟩
  · obtain ⟨hge, hle, hvalue⟩ := bounds_of_eq_upperMidpoint hpos hlt heq
    exact .inr (h.nearestCode_eq hfinite (h.eq_of_bounds hge hle hvalue ▸ hbetween))
  · right
    rw [readsRight, h.read, Option.any_some] at hright
    exact (readsAs_iff.mp hright).unique hbetween
  · left
    rcases hbelow with rfl | rfl
    · exact hback
    · exact hback'

/-- Digits without their zeros: many are far from all midpoints, and few are read right even next to
one. -/
theorem digitsReadBack_or_nearestCode_eq_of_shortest {digits : ℕ} {place : ℤ}
    (h : Reading significand exponent num den) (hcode : code ≠ 0)
    (hfinite : code < single.infinityCode) (hpos : 0 < significand) (hle : significand ≤ digits)
    (hmin : -53 ≤ exponent) (hmax : exponent ≤ 48)
    (hunits : single.decimalUnits significand exponent = single.decimalUnits digits place)
    (hbetween : single.IsBetween code (single.decimalUnits significand exponent))
    (hnear : |single.decimalUnits digits place - single.units code| ≤ single.decimalUnits 1 place) :
    digitsReadBack code = true ∨ single.nearestCode num den = code := by
  rcases le_or_gt (2 ^ 26) digits with hmany | hfew
  · obtain ⟨hlower, hupper⟩ := far_of_two_pow_le hcode hmany hnear
    rw [← hunits] at hlower hupper
    exact .inr (h.nearestCode_eq hfinite (isBetween_of_far hbetween h.near hlower hupper))
  have hlt : significand < 10 ^ 8 := by omega
  by_cases hupper : IsNextTo (single.upperMidpoint code) (single.decimalUnits significand exponent)
  · exact h.digitsReadBack_or_nearestCode_eq hpos hlt hmin hmax hfinite hbetween (.inl rfl) hupper
  by_cases hlower : IsNextTo (single.lowerMidpoint code) (single.decimalUnits significand exponent)
  · obtain ⟨below, rfl⟩ := Nat.exists_eq_succ_of_ne_zero hcode
    exact h.digitsReadBack_or_nearestCode_eq hpos hlt hmin hmax hfinite hbetween (.inr rfl) hlower
  exact .inr (h.nearestCode_eq hfinite (isBetween_of_far hbetween h.near hlower hupper))

end Reading

theorem codeByDouble?_eq_of_tenths {d : Decimal} {n : ℕ} (hn : n < 10 ^ 13)
    (hten : d.significand = n * 10) (hone : d.exponent = -1) (hpos : 0 < d.significand)
    (hrange : (d.significand : ℚ) * 10 ^ d.exponent < 2 ^ 199) (hfinite : code < single.infinityCode)
    (hbetween : single.IsBetween code (single.decimalUnits d.significand d.exponent)) :
    codeByDouble? d = some code := by
  obtain ⟨num, den, hreading⟩ := exists_reading hpos (by omega) (by omega) (by omega) hrange
  have hexact := hreading.eq_of_bounds (by omega) (by omega) ⟨n, single.unitExponent + 1,
    by omega, by rw [decimalUnits, hten, hone, pow_succ]; push_cast; ring⟩
  rw [← hreading.nearestCode_eq hfinite (hexact ▸ hbetween)]
  exact hreading.read d.negative

theorem mul_zpow_lt_of_le {digits : ℕ} {place : ℤ} (hdigits : digits ≤ 10 ^ 9) (hplace : place ≤ 39) :
    (digits : ℚ) * 10 ^ place < 2 ^ 199 :=
  calc (digits : ℚ) * 10 ^ place ≤ 10 ^ 9 * 10 ^ (39 : ℤ) := by
        gcongr
        · exact_mod_cast hdigits
        · norm_num
    _ < 2 ^ 199 := by norm_num

/-- **The shortest digits of a value are read as it**, though they are rounded three times. -/
theorem codeByDouble?_spelled_shortest (hfinite : code < single.infinityCode) (negative : Bool) :
    codeByDouble? (spelled (single.shortest .even negative code)) = some code := by
  rcases eq_or_ne code 0 with rfl | hcode
  · cases negative <;> decide
  obtain ⟨digits, place, hshortest, hbetween, hnear, hdigits, hmin, hmax⟩ :=
    exists_shortest hcode hfinite .even negative
  have hpos : 0 < digits := decimalUnits_pos_iff.mp (hbetween.pos hcode)
  have hcases := spelled_normalize_cases ⟨negative, digits, place⟩ hpos.ne'
  have hvalue : (spelled (Decimal.mk negative digits place).normalize).magnitude
      = digits * 10 ^ place := by
    rw [magnitude_spelled, Decimal.magnitude_normalize]
    rfl
  rw [hshortest]
  generalize hd : spelled (Decimal.mk negative digits place).normalize = d at *
  rw [Decimal.magnitude] at hvalue
  have hunits : single.decimalUnits d.significand d.exponent = single.decimalUnits digits place :=
    congrArg (· * 2 ^ single.unitExponent) hvalue
  rw [← hunits] at hbetween
  have hsignificand : 0 < d.significand := decimalUnits_pos_iff.mp (hbetween.pos hcode)
  have hrange : (d.significand : ℚ) * 10 ^ d.exponent < 2 ^ 199 :=
    hvalue ▸ mul_zpow_lt_of_le hdigits hmax
  rcases hcases with ⟨n, hn, hten, hone⟩ | ⟨zeros, hzeros, hplace⟩
  · -- A whole number of few digits.
    exact codeByDouble?_eq_of_tenths hn hten hone hsignificand hrange hfinite hbetween
  · -- Digits without their zeros.
    dsimp only at hzeros hplace
    have hle : d.significand ≤ digits := hzeros ▸ Nat.le_mul_of_pos_right _ (by positivity)
    have hten : 10 ^ zeros ≤ 10 ^ 9 :=
      (Nat.le_mul_of_pos_left _ hsignificand).trans (hzeros.le.trans hdigits)
    have hnine : zeros ≤ 9 := (Nat.pow_le_pow_iff_right (by norm_num)).mp hten
    obtain ⟨num, den, hreading⟩ := exists_reading hsignificand (by omega) (by omega) (by omega) hrange
    rcases hreading.digitsReadBack_or_nearestCode_eq_of_shortest hcode hfinite hsignificand hle
      (by omega) (by omega) hunits hbetween hnear with hback | heq
    · have := List.all_eq_true.mp hback negative (by cases negative <;> simp)
      rwa [decide_eq_true_eq, hshortest, hd] at this
    · rw [← heq]
      exact hreading.read d.negative

end Shortest

end ReportPress.Json
