import ReportPress.Proofs.Number.Nearest
import ReportPress.Proofs.Number.Decimal

/-!
# The shortest digits are close

Of the digits that are chosen for a value: they lie between its midpoints, so they read as it when
they are rounded once, and they differ from it by no more than one in the last place. Nine digits
are always enough.
-/

namespace ReportPress.Number

-- Powers are those of the core library, whatever else is in scope.
attribute [local instance (2000)] instPowNat

namespace BinaryFormat

variable {f : BinaryFormat} {code significand : ℕ} {exponent : ℤ}

/-! ## Comparing -/

/-- A decimal number, counted in units of the smallest positive value. -/
def decimalUnits (f : BinaryFormat) (significand : ℕ) (exponent : ℤ) : ℚ :=
  significand * 10 ^ exponent * 2 ^ f.unitExponent

theorem decimalUnits_pos_iff : 0 < f.decimalUnits significand exponent ↔ 0 < significand := by
  rw [decimalUnits, mul_assoc, mul_pos_iff_of_pos_right (by positivity), Nat.cast_pos]

theorem decimalUnits_mul (f : BinaryFormat) (significand : ℕ) (exponent : ℤ) :
    f.decimalUnits significand exponent * 10 ^ (-exponent).toNat
      = (significand * 10 ^ exponent.toNat * 2 ^ f.unitExponent : ℕ) := by
  have hpos : (0 : ℚ) < 10 ^ (-exponent).toNat := by positivity
  rw [decimalUnits, zpow_eq_div (by norm_num)]
  push_cast
  field_simp

theorem two_mul_decimalUnits_mul (f : BinaryFormat) (significand : ℕ) (exponent : ℤ) :
    2 * f.decimalUnits significand exponent * 10 ^ (-exponent).toNat
      = (significand * 10 ^ exponent.toNat * 2 ^ (f.unitExponent + 1) : ℕ) := by
  rw [mul_assoc, decimalUnits_mul, pow_succ]
  push_cast
  ring

theorem compareHalves_eq_lt (f : BinaryFormat) (significand : ℕ) (exponent : ℤ) (halves : ℕ) :
    f.compareHalves significand exponent halves = .lt ↔
    2 * f.decimalUnits significand exponent < halves := by
  have hpos : (0 : ℚ) < 10 ^ (-exponent).toNat := by positivity
  rw [compareHalves, Nat.compare_eq_lt, ← mul_lt_mul_iff_left₀ hpos, two_mul_decimalUnits_mul]
  exact_mod_cast Iff.rfl

theorem compareHalves_eq_gt (f : BinaryFormat) (significand : ℕ) (exponent : ℤ) (halves : ℕ) :
    f.compareHalves significand exponent halves = .gt ↔
    halves < 2 * f.decimalUnits significand exponent := by
  have hpos : (0 : ℚ) < 10 ^ (-exponent).toNat := by positivity
  rw [compareHalves, Nat.compare_eq_gt, ← mul_lt_mul_iff_left₀ hpos, two_mul_decimalUnits_mul]
  exact_mod_cast Iff.rfl

theorem readsAs_iff : f.readsAs code significand exponent = true ↔
    f.IsBetween code (f.decimalUnits significand exponent) := by
  rw [readsAs]
  have hlower := f.compareHalves_eq_lt significand exponent (f.lowerMidpoint code)
  have hlower' := f.compareHalves_eq_gt significand exponent (f.lowerMidpoint code)
  have hupper := f.compareHalves_eq_lt significand exponent (f.upperMidpoint code)
  have hupper' := f.compareHalves_eq_gt significand exponent (f.upperMidpoint code)
  -- The midpoints themselves count for even codes only.
  by_cases heven : code % 2 = 0
  · simp only [heven, ↓reduceIte, Bool.and_eq_true, bne_iff_ne, ne_eq, hlower, hupper']
    constructor
    · rintro ⟨hl, hu⟩
      exact ⟨(not_lt.mp hl).lt_or_eq.imp_right fun h ↦ ⟨h, heven⟩,
        (not_lt.mp hu).lt_or_eq.imp_right fun h ↦ ⟨h, heven⟩⟩
    · rintro ⟨hl, hu⟩
      exact ⟨not_lt.mpr (hl.elim le_of_lt fun h ↦ h.1.le),
        not_lt.mpr (hu.elim le_of_lt fun h ↦ h.1.le)⟩
  · simp only [heven, ↓reduceIte, Bool.and_eq_true, beq_iff_eq, hlower', hupper]
    constructor
    · rintro ⟨hl, hu⟩
      exact ⟨.inl hl, .inl hu⟩
    · rintro ⟨hl, hu⟩
      exact ⟨hl.resolve_right fun h ↦ heven h.2, hu.resolve_right fun h ↦ heven h.2⟩

/-! ## Candidates -/

/-- The digits of a value down to a power of ten, the rest cut off. -/
def digitsBelow (f : BinaryFormat) (code : ℕ) (exponent : ℤ) : ℕ :=
  f.units code * 10 ^ (-exponent).toNat / (2 ^ f.unitExponent * 10 ^ exponent.toNat)

theorem decimalUnits_digitsBelow (f : BinaryFormat) (code : ℕ) (exponent : ℤ) :
    f.decimalUnits (f.digitsBelow code exponent) exponent ≤ f.units code ∧
      f.units code < f.decimalUnits (f.digitsBelow code exponent + 1) exponent := by
  have hpos : (0 : ℚ) < 10 ^ (-exponent).toNat := by positivity
  have hden : 0 < 2 ^ f.unitExponent * 10 ^ exponent.toNat := by positivity
  set n := f.digitsBelow code exponent with hn
  constructor
  · rw [← mul_le_mul_iff_left₀ hpos, decimalUnits_mul]
    have := (Nat.le_div_iff_mul_le hden).mp hn.le
    rw [mul_assoc, mul_comm (10 ^ exponent.toNat)]
    exact_mod_cast this
  · rw [← mul_lt_mul_iff_left₀ hpos, decimalUnits_mul]
    have := (Nat.div_lt_iff_lt_mul hden).mp (Nat.lt_succ_of_le hn.ge)
    rw [mul_assoc, mul_comm (10 ^ exponent.toNat)]
    exact_mod_cast this

/-- A candidate reads as the value, and is one of the two numbers that enclose it. -/
theorem candidate?_eq_some {half : HalfWay} (h : f.candidate? half code exponent = some significand) :
    f.readsAs code significand exponent = true ∧
      (significand = f.digitsBelow code exponent ∨ significand = f.digitsBelow code exponent + 1) := by
  unfold candidate? at h
  rw [← digitsBelow] at h
  generalize f.digitsBelow code exponent = n at h ⊢
  dsimp only at h
  -- One case for each way in which the two neighbours are tried.
  split at h
  · cases h
  · cases h
    exact ⟨‹_›, .inl rfl⟩
  · cases h
    exact ⟨‹_›, .inr rfl⟩
  · split at h
    · cases h
      exact ⟨‹_›, .inl rfl⟩
    · cases h
      exact ⟨‹_›, .inr rfl⟩
    · split at h
      · cases h
        exact ⟨‹_›, .inr rfl⟩
      · cases h
        split
        · exact ⟨‹_›, .inl rfl⟩
        · exact ⟨‹_›, .inr rfl⟩

theorem candidate?_ne_none (half : HalfWay)
    (h : f.readsAs code (f.digitsBelow code exponent) exponent = true) :
    f.candidate? half code exponent ≠ none := by
  unfold candidate?
  rw [← digitsBelow]
  dsimp only
  rw [h]
  split
  · simp_all
  · simp
  · simp
  · split
    · simp
    · simp
    · cases half <;> simp

/-! ## The decimal point -/

theorem units_lt_two_pow (h : code < single.infinityCode) {n : ℕ} (hn : 277 ≤ n) :
    single.units code < 2 ^ n := by
  have hinfinity : single.units single.infinityCode = 2 ^ 24 * 2 ^ 253 := by decide +kernel
  obtain ⟨k, rfl⟩ := Nat.exists_eq_add_of_le hn
  calc single.units code < single.units single.infinityCode := single.units_strictMono h
    _ ≤ 2 ^ 24 * 2 ^ 253 * 2 ^ k := hinfinity ▸ Nat.le_mul_of_pos_right _ (Nat.two_pow_pos k)
    _ = 2 ^ (277 + k) := by rw [← pow_add, ← pow_add]

/-- The guess at the decimal point is right or one too low, whichever of the binades a value is
in. -/
theorem guess_bounds : ∀ n : ℕ, n < 277 →
    let guess : ℤ := ((n : ℤ) - 149) * 30103 / 100000 + 1
    10 ^ (guess - 1).toNat * 2 ^ 149 ≤ 2 ^ n * 10 ^ (-(guess - 1)).toNat ∧
      2 ^ (n + 1) * 10 ^ (-(guess + 1)).toNat ≤ 10 ^ (guess + 1).toNat * 2 ^ 149 := by
  decide +kernel

theorem decimalPoint_bounds (hzero : code ≠ 0) (h : code < single.infinityCode) :
    single.decimalUnits 1 (single.decimalPoint code - 1) ≤ single.units code ∧
      single.units code < single.decimalUnits 1 (single.decimalPoint code) ∧
      -44 ≤ single.decimalPoint code ∧ single.decimalPoint code ≤ 40 := by
  have hpos : 0 < single.units code := by
    have := single.units_strictMono (Nat.pos_of_ne_zero hzero)
    omega
  set n := (single.units code).log2 with hn
  have hlow : 2 ^ n ≤ single.units code := Nat.log2_self_le hpos.ne'
  have hhigh : single.units code < 2 ^ (n + 1) := Nat.lt_log2_self
  -- The guess was checked for every binary logarithm that a finite value has.
  have hlt : n < 277 := by
    by_contra hge
    exact absurd hlow (not_le.mpr (units_lt_two_pow h (not_lt.mp hge)))
  have hbounds := guess_bounds n hlt
  set guess : ℤ := ((n : ℤ) - 149) * 30103 / 100000 + 1 with hguess
  obtain ⟨hlower, hupper⟩ := hbounds
  have hpoint : single.decimalPoint code
      = if single.compareHalves 1 guess (2 * single.units code) = .gt then guess else guess + 1 := rfl
  have hguessLow : single.decimalUnits 1 (guess - 1) ≤ single.units code := by
    have hscale : (0 : ℚ) < 10 ^ (-(guess - 1)).toNat := by positivity
    rw [← mul_le_mul_iff_left₀ hscale, decimalUnits_mul]
    have : 1 * 10 ^ (guess - 1).toNat * 2 ^ 149 ≤ single.units code * 10 ^ (-(guess - 1)).toNat := by
      rw [one_mul]
      exact hlower.trans (Nat.mul_le_mul_right _ hlow)
    exact_mod_cast this
  have hguessHigh : single.units code < single.decimalUnits 1 (guess + 1) := by
    have hscale : (0 : ℚ) < 10 ^ (-(guess + 1)).toNat := by positivity
    rw [← mul_lt_mul_iff_left₀ hscale, decimalUnits_mul]
    have : single.units code * 10 ^ (-(guess + 1)).toNat < 1 * 10 ^ (guess + 1).toNat * 2 ^ 149 := by
      rw [one_mul]
      exact (Nat.mul_lt_mul_of_pos_right hhigh (by positivity)).trans_le hupper
    exact_mod_cast this
  -- One comparison decides between the guess and the next number.
  have hcompare := single.compareHalves_eq_gt 1 guess (2 * single.units code)
  push_cast at hcompare
  rw [hpoint]
  split_ifs with hgt
  · have := hcompare.mp hgt
    exact ⟨hguessLow, by linarith, by omega, by omega⟩
  · have := not_lt.mp (mt hcompare.mpr hgt)
    rw [add_sub_cancel_right]
    exact ⟨by linarith, hguessHigh, by omega, by omega⟩

/-! ## The shortest digits -/

theorem decimalUnits_add (f : BinaryFormat) (significand : ℕ) (exponent : ℤ) (k : ℕ) :
    f.decimalUnits significand (exponent + k) = f.decimalUnits (significand * 10 ^ k) exponent := by
  rw [decimalUnits, decimalUnits, zpow_add₀ (by norm_num), zpow_natCast]
  push_cast
  ring

theorem decimalUnits_lt_iff (f : BinaryFormat) {a b : ℕ} (exponent : ℤ) :
    f.decimalUnits a exponent < f.decimalUnits b exponent ↔ a < b := by
  rw [decimalUnits, decimalUnits, mul_assoc, mul_assoc, mul_lt_mul_iff_left₀ (by positivity),
    Nat.cast_lt]

theorem decimalUnits_succ (f : BinaryFormat) (significand : ℕ) (exponent : ℤ) :
    f.decimalUnits (significand + 1) exponent
      = f.decimalUnits significand exponent + f.decimalUnits 1 exponent := by
  simp only [decimalUnits]
  push_cast
  ring

/-- Digits up to the ninth are close enough. -/
theorem readsAs_digitsBelow (hzero : code ≠ 0) (h : code < single.infinityCode) :
    single.readsAs code (single.digitsBelow code (single.decimalPoint code - 9))
      (single.decimalPoint code - 9) = true := by
  obtain ⟨hpoint, -⟩ := decimalPoint_bounds hzero h
  obtain ⟨hlow, hhigh⟩ := decimalUnits_digitsBelow single code (single.decimalPoint code - 9)
  set exponent := single.decimalPoint code - 9 with hexponent
  -- One in the last place is less than half the step down to the next value.
  have hplace : 10 ^ 8 * single.decimalUnits 1 exponent ≤ single.units code := by
    have := decimalUnits_add single 1 exponent 8
    rw [show exponent + (8 : ℕ) = single.decimalPoint code - 1 by omega] at this
    rw [this] at hpoint
    refine le_trans (le_of_eq ?_) hpoint
    simp only [decimalUnits]
    push_cast
    ring
  rw [decimalUnits_succ] at hhigh
  have hstep := single.units_succ_le (code - 1)
  have hlt := single.units_strictMono (show code - 1 < code by omega)
  rw [show code - 1 + 1 = code by omega, show 2 * single.binade = 2 ^ 24 by decide] at hstep
  have hstep' : (single.units code : ℚ)
      ≤ 2 ^ 24 * (single.units code - single.units (code - 1)) := by
    rw [← Nat.cast_sub hlt.le]
    exact_mod_cast hstep
  have hpos : (0 : ℚ) < single.units code := by exact_mod_cast (Nat.zero_le _).trans_lt hlt
  have hupper := single.lt_upperMidpoint code
  rw [readsAs_iff]
  constructor
  · left
    rw [lowerMidpoint]
    push_cast
    linarith
  · left
    have : (2 * single.units code : ℚ) < single.upperMidpoint code := by exact_mod_cast hupper
    linarith

/-- What is tried with one digit more than `n`. -/
def tried? (f : BinaryFormat) (half : HalfWay) (negative : Bool) (code n : ℕ) : Option Decimal :=
  (f.candidate? half code (f.decimalPoint code - (n + 1 : ℕ))).map
    fun significand ↦ ⟨negative, significand, f.decimalPoint code - (n + 1 : ℕ)⟩

theorem shortest_eq_getD_tried? (hzero : code ≠ 0) (half : HalfWay) (negative : Bool) :
    single.shortest half negative code
      = (((List.range 9).findSome? (single.tried? half negative code)).getD
        ⟨negative, single.units code, -single.unitExponent⟩).normalize :=
  if_neg hzero

theorem exists_candidate?_eq_some (hzero : code ≠ 0) (h : code < single.infinityCode)
    (half : HalfWay) (negative : Bool) :
    ∃ n < 9, ∃ significand,
      single.candidate? half code (single.decimalPoint code - (n + 1 : ℕ)) = some significand ∧
      single.shortest half negative code
        = (Decimal.mk negative significand (single.decimalPoint code - (n + 1 : ℕ))).normalize := by
  have hsome : (List.range 9).findSome? (single.tried? half negative code) ≠ none := by
    rw [Ne, List.findSome?_eq_none_iff]
    intro hnone
    have hcandidate := candidate?_ne_none half (readsAs_digitsBelow hzero h)
    exact hcandidate (Option.map_eq_none_iff.mp (hnone 8 (by simp)))
  obtain ⟨d, hd⟩ := Option.ne_none_iff_exists'.mp hsome
  obtain ⟨n, hn, htried⟩ := List.exists_of_findSome?_eq_some hd
  obtain ⟨significand, hcandidate, rfl⟩ := Option.map_eq_some_iff.mp htried
  refine ⟨n, List.mem_range.mp hn, significand, hcandidate, ?_⟩
  rw [shortest_eq_getD_tried? hzero, hd, Option.getD_some]

/-- **What is known of the shortest digits**: they lie between the midpoints of the value and differ
from it by at most one in the last place, of which there are nine at most. -/
theorem exists_shortest (hzero : code ≠ 0) (h : code < single.infinityCode) (half : HalfWay)
    (negative : Bool) :
    ∃ significand exponent,
      single.shortest half negative code = (Decimal.mk negative significand exponent).normalize ∧
      single.IsBetween code (single.decimalUnits significand exponent) ∧
      |single.decimalUnits significand exponent - single.units code| ≤ single.decimalUnits 1 exponent ∧
      significand ≤ 10 ^ 9 ∧ -53 ≤ exponent ∧ exponent ≤ 39 := by
  obtain ⟨hpoint, hpoint', hmin, hmax⟩ := decimalPoint_bounds hzero h
  obtain ⟨n, hn, significand, hcandidate, hshortest⟩ :=
    exists_candidate?_eq_some hzero h half negative
  set point := single.decimalPoint code with hp
  obtain ⟨hreads, hnear⟩ := candidate?_eq_some hcandidate
  obtain ⟨hlow, hhigh⟩ := decimalUnits_digitsBelow single code (point - (n + 1 : ℕ))
  set exponent := point - (n + 1 : ℕ) with hexponent
  set below := single.digitsBelow code exponent with hbelow
  -- The value is below the power of ten at its point, so there are at most `n + 1` digits of it.
  have hbelowLt : below < 1 * 10 ^ (n + 1) := by
    rw [← single.decimalUnits_lt_iff exponent, ← decimalUnits_add, hexponent,
      sub_add_cancel]
    exact hlow.trans_lt hpoint'
  have hpower : (10 : ℕ) ^ (n + 1) ≤ 10 ^ 9 := Nat.pow_le_pow_right (by norm_num) (by omega)
  rw [decimalUnits_succ] at hhigh
  refine ⟨significand, exponent, hshortest, readsAs_iff.mp hreads, ?_, ?_, by omega, by omega⟩
  · rw [abs_le]
    rcases hnear with rfl | rfl
    · constructor <;> linarith
    · rw [decimalUnits_succ single below]
      constructor <;> linarith
  · rcases hnear with rfl | rfl <;> omega

end BinaryFormat

end ReportPress.Number
