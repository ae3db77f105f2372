import ReportPress.Number.Single
import ReportPress.Proofs.Json.Numeral
import ReportPress.Proofs.Number.NearLine
import ReportPress.Proofs.Number.Shortest

/-!
# Decimal numbers next to a midpoint

Numbers in JSON are read by way of double precision, so a decimal number may be read on the wrong
side of a midpoint that it is next to. A decimal number `x · 10 ^ exponent` of up to eight digits is
next to a midpoint `y · 2 ^ binary` only for some hundred pairs of `x` and `y`, as each pair of
exponents leaves few integral points near a line. All of them are read on the right side but four,
`7.038531e-26` among them; and these are not the digits that either neighbour of the midpoint is
written with.
-/

namespace ReportPress.Json

open Number BinaryFormat

-- Powers are those of the core library, whatever else is in scope.
attribute [local instance (2000)] instPowNat

/-! ## What is to be found of a number next to a midpoint -/

/-- The code that a decimal number is read as by way of double precision. -/
def codeByDouble? (d : Decimal) : Option ℕ :=
  (Double.ofDecimal? d).map fun read ↦
    single.nearestCode (double.units read) (2 ^ double.unitExponent)

theorem ofDecimalByDouble?_eq (d : Decimal) :
    Single.ofDecimalByDouble? d = (codeByDouble? d).map (Single.ofCode d.negative) := by
  rw [codeByDouble?, Option.map_map]
  rfl

/-- Whether a decimal number is read as the value between whose midpoints it lies. -/
def readsRight (significand : ℕ) (exponent : ℤ) : Bool :=
  (codeByDouble? ⟨false, significand, exponent⟩).any
    fun code ↦ single.readsAs code significand exponent

/-- Whether a value is read back from its digits, whatever its sign. -/
def digitsReadBack (code : ℕ) : Bool :=
  [false, true].all fun negative ↦
    codeByDouble? (spelled (single.shortest .even negative code)) = some code

/-- The integral points `(x, y)` for which the decimal number `x · 10 ^ exponent` is near a
midpoint, that is, near `y · 2 ^ binary` half units. -/
def midpointStrip (exponent : ℤ) (binary : ℕ) : Strip where
  rise := 10 ^ exponent.toNat * 2 ^ 150
  run := 2 ^ binary * 10 ^ (-exponent).toNat
  width := 2 ^ 25 * (2 ^ binary * 10 ^ (-exponent).toNat) / (2 ^ 51 - 1)
  reach := 10 ^ 8

/-- Whether the number and the midpoint are so close that the error of reading may be larger. -/
def nextTo (exponent : ℤ) (binary x y : ℕ) : Bool :=
  (midpointStrip exponent binary).gap x y * 2 ^ 51 ≤ x * (midpointStrip exponent binary).rise

/-- Whether a number that is next to a midpoint is read right, however many zeros are left of its
digits; or else the two neighbours of the midpoint are read back. -/
def resolved (exponent : ℤ) (binary x y : ℕ) : Bool :=
  let code := binary * 2 ^ 23 + y / 2
  y % 2 = 0 || 2 ^ 25 ≤ y || !nextTo exponent binary x y ||
    (List.range 8).all (fun zeros ↦
      x % 10 ^ zeros ≠ 0 || readsRight (x / 10 ^ zeros) (exponent + zeros)) ||
    digitsReadBack code && digitsReadBack (code + 1)

/-! ## The search -/

/-- Whether eight digits are below all midpoints of a binade. -/
def isBelow (exponent : ℤ) (binary : ℕ) : Bool :=
  2 * 10 ^ 8 * (midpointStrip exponent binary).rise
    < (if binary = 0 then 1 else 2 ^ 24) * (midpointStrip exponent binary).run

/-- Whether eight digits are above all midpoints of a binade. -/
def isAbove (exponent : ℤ) (binary : ℕ) : Bool :=
  2 * 2 ^ 25 * (midpointStrip exponent binary).run < 10 ^ 7 * (midpointStrip exponent binary).rise

/-- Whether all is well with the midpoints of one binade. -/
def binadeChecked (exponent : ℤ) (binary : ℕ) : Bool :=
  isBelow exponent binary || isAbove exponent binary ||
    (midpointStrip exponent binary).checked (resolved exponent binary)

/-- The binades whose midpoints eight digits may reach: from the first number to before the
second. -/
def reachable (exponent : ℤ) : ℕ × ℕ :=
  let power : ℤ :=
    (10 ^ 7 * (midpointStrip exponent 0).rise).log2 - (midpointStrip exponent 0).run.log2
  ((power - 26).toNat, min 254 (max 1 (power - 16).toNat))

/-- Whether all is well with the eight digits down to this exponent. -/
def exponentChecked (exponent : ℤ) : Bool :=
  let (low, high) := reachable exponent
  (low = 0 || isAbove exponent (low - 1)) && 0 < high && (254 ≤ high || isBelow exponent high) &&
    (List.range (high - low)).all fun n ↦ binadeChecked exponent (low + n)

theorem exponentChecked_sub : ∀ n < 109, exponentChecked ((n : ℕ) - 60) = true := by
  decide +kernel

/-! ## What the search shows -/

section Near

variable {exponent : ℤ} {binary x y : ℕ}

theorem run_pos : 0 < (midpointStrip exponent binary).run := by
  rw [midpointStrip]
  positivity

variable (exponent binary x y)

/-- The two sides that are compared, in half units and with the denominator that the exponent calls
for. -/
theorem cast_mul_rise : ((x * (midpointStrip exponent binary).rise : ℕ) : ℚ)
    = 2 * single.decimalUnits x exponent * 10 ^ (-exponent).toNat := by
  rw [two_mul_decimalUnits_mul, mul_assoc]
  rfl

theorem cast_mul_run : ((y * (midpointStrip exponent binary).run : ℕ) : ℚ)
    = (y * 2 ^ binary : ℕ) * 10 ^ (-exponent).toNat := by
  rw [midpointStrip]
  push_cast
  ring

theorem cast_gap_midpointStrip : ((midpointStrip exponent binary).gap x y : ℚ)
    = |2 * single.decimalUnits x exponent - (y * 2 ^ binary : ℕ)| * 10 ^ (-exponent).toNat := by
  have hpos : (0 : ℚ) < 10 ^ (-exponent).toNat := by positivity
  have hgap := (midpointStrip exponent binary).cast_gap x y
  qify at hgap
  rw [hgap]
  calc |(x : ℚ) * (midpointStrip exponent binary).rise - y * (midpointStrip exponent binary).run|
      = |2 * single.decimalUnits x exponent * 10 ^ (-exponent).toNat
          - (y * 2 ^ binary : ℕ) * 10 ^ (-exponent).toNat| := by
        rw [← cast_mul_rise exponent binary, ← cast_mul_run exponent binary, Nat.cast_mul, Nat.cast_mul]
    _ = _ := by rw [← sub_mul, abs_mul, abs_of_pos hpos]

variable {exponent binary x y}

theorem le_of_nextTo (h : nextTo exponent binary x y = true) :
    y * (midpointStrip exponent binary).run ≤ 2 * (x * (midpointStrip exponent binary).rise) ∧
      x * (midpointStrip exponent binary).rise ≤ 2 * (y * (midpointStrip exponent binary).run) := by
  rw [nextTo, decide_eq_true_eq, Strip.gap] at h
  generalize y * (midpointStrip exponent binary).run = r at *
  generalize x * (midpointStrip exponent binary).rise = l at *
  have := Nat.dist_tri_left l r
  have := Nat.dist_tri_left' l r
  constructor <;> omega

theorem contains_of_nextTo (h : nextTo exponent binary x y = true) (hx : x ≤ 10 ^ 8)
    (hy : y < 2 ^ 25) : (midpointStrip exponent binary).Contains x y := by
  refine ⟨hx, ?_⟩
  have hrun : y * (midpointStrip exponent binary).run ≤ 2 ^ 25 * (midpointStrip exponent binary).run :=
    Nat.mul_le_mul_right _ hy.le
  have htri := Nat.dist_tri_left' (x * (midpointStrip exponent binary).rise)
    (y * (midpointStrip exponent binary).run)
  rw [nextTo, decide_eq_true_eq] at h
  rw [← Strip.gap] at htri
  show _ ≤ 2 ^ 25 * (midpointStrip exponent binary).run / (2 ^ 51 - 1)
  rw [Nat.le_div_iff_mul_le (by norm_num), Nat.mul_sub_one]
  generalize (midpointStrip exponent binary).gap x y = gap at *
  generalize x * (midpointStrip exponent binary).rise = l at *
  generalize y * (midpointStrip exponent binary).run = r at *
  omega

theorem isBelow_eq_false (h : nextTo exponent binary x y = true) (hx : x ≤ 10 ^ 8)
    (hy : 0 < y) (hfull : binary = 0 ∨ 2 ^ 24 ≤ y) : isBelow exponent binary = false := by
  have hle := (le_of_nextTo h).1
  have hrise : x * (midpointStrip exponent binary).rise
      ≤ 10 ^ 8 * (midpointStrip exponent binary).rise := Nat.mul_le_mul_right _ hx
  have hrun : (if binary = 0 then 1 else 2 ^ 24) * (midpointStrip exponent binary).run
      ≤ y * (midpointStrip exponent binary).run := by
    refine Nat.mul_le_mul_right _ ?_
    split_ifs with hzero
    · exact hy
    · exact hfull.resolve_left hzero
  rw [isBelow, decide_eq_false_iff_not, not_lt, mul_assoc]
  omega

theorem isAbove_eq_false (h : nextTo exponent binary x y = true) (hx : 10 ^ 7 ≤ x)
    (hy : y < 2 ^ 25) : isAbove exponent binary = false := by
  have hle := (le_of_nextTo h).2
  have hrise : 10 ^ 7 * (midpointStrip exponent binary).rise
      ≤ x * (midpointStrip exponent binary).rise := Nat.mul_le_mul_right _ hx
  have hrun : y * (midpointStrip exponent binary).run
      ≤ 2 ^ 25 * (midpointStrip exponent binary).run := Nat.mul_le_mul_right _ hy.le
  rw [isAbove, decide_eq_false_iff_not, not_lt, mul_assoc]
  omega

theorem run_le_run {binary' : ℕ} (h : binary ≤ binary') :
    (midpointStrip exponent binary).run ≤ (midpointStrip exponent binary').run :=
  Nat.mul_le_mul_right _ (Nat.pow_le_pow_right two_pos h)

theorem isBelow_mono {binary' : ℕ} (hpos : binary ≠ 0) (h : binary ≤ binary')
    (hbelow : isBelow exponent binary = true) : isBelow exponent binary' = true := by
  rw [isBelow, decide_eq_true_eq, if_neg hpos] at hbelow
  rw [isBelow, decide_eq_true_eq, if_neg (by omega)]
  exact hbelow.trans_le (Nat.mul_le_mul_left _ (run_le_run h))

theorem isAbove_anti {binary' : ℕ} (h : binary' ≤ binary)
    (habove : isAbove exponent binary = true) : isAbove exponent binary' = true := by
  rw [isAbove, decide_eq_true_eq] at habove ⊢
  exact (Nat.mul_le_mul_left _ (run_le_run h)).trans_lt habove

theorem binadeChecked_of_exponentChecked (h : exponentChecked exponent = true)
    (hbinary : binary < 254) : binadeChecked exponent binary = true := by
  rw [exponentChecked] at h
  simp only [Bool.and_eq_true, Bool.or_eq_true, decide_eq_true_eq, List.all_eq_true,
    List.mem_range] at h
  generalize (reachable exponent).1 = low at h
  generalize (reachable exponent).2 = high at h
  obtain ⟨⟨⟨hlow, hpos⟩, hhigh⟩, hall⟩ := h
  rw [binadeChecked, Bool.or_eq_true, Bool.or_eq_true]
  rcases lt_or_ge binary low with hlt | hge
  · exact .inl (.inr (isAbove_anti (by omega) (hlow.resolve_left (by omega))))
  · rcases lt_or_ge binary high with hlt' | hge'
    · have := hall (binary - low) (by omega)
      rw [Nat.add_sub_cancel' hge, binadeChecked, Bool.or_eq_true, Bool.or_eq_true] at this
      exact this
    · exact .inl (.inl (isBelow_mono (by omega) hge' (hhigh.resolve_left (by omega))))

/-- The search covers all exponents that eight digits may have. -/
theorem binadeChecked_of_le (hmin : -60 ≤ exponent) (hmax : exponent ≤ 48) (hbinary : binary < 254) :
    binadeChecked exponent binary = true := by
  have hchecked := exponentChecked_sub (exponent + 60).toNat (by omega)
  rw [show ((exponent + 60).toNat : ℤ) - 60 = exponent by omega] at hchecked
  exact binadeChecked_of_exponentChecked hchecked hbinary

theorem eq_of_gap_eq_zero (h : (midpointStrip exponent binary).gap x y = 0) :
    2 * single.decimalUnits x exponent = (y * 2 ^ binary : ℕ) := by
  have hscale : (0 : ℚ) < 10 ^ (-exponent).toNat := by positivity
  have hgap := cast_gap_midpointStrip exponent binary x y
  rw [h, Nat.cast_zero, eq_comm, mul_eq_zero_iff_right hscale.ne', abs_eq_zero, sub_eq_zero] at hgap
  exact hgap

end Near

theorem exists_eight_digits {n : ℕ} (hpos : 0 < n) (hlt : n < 10 ^ 8) :
    ∃ zeros < 8, 10 ^ 7 ≤ n * 10 ^ zeros ∧ n * 10 ^ zeros < 10 ^ 8 := by
  have hlog : 10 ^ Nat.log 10 n ≤ n := Nat.pow_log_le_self 10 hpos.ne'
  have hlog' : n < 10 ^ (Nat.log 10 n + 1) := Nat.lt_pow_succ_log_self (by norm_num) n
  have hseven : Nat.log 10 n < 8 := Nat.log_lt_of_lt_pow hpos.ne' hlt
  refine ⟨7 - Nat.log 10 n, by omega, ?_, ?_⟩
  · calc 10 ^ 7 = 10 ^ Nat.log 10 n * 10 ^ (7 - Nat.log 10 n) := by
          rw [← pow_add]
          congr 1
          omega
      _ ≤ n * 10 ^ (7 - Nat.log 10 n) := Nat.mul_le_mul_right _ hlog
  · calc n * 10 ^ (7 - Nat.log 10 n)
        < 10 ^ (Nat.log 10 n + 1) * 10 ^ (7 - Nat.log 10 n) :=
          Nat.mul_lt_mul_of_pos_right hlog' (by positivity)
      _ = 10 ^ 8 := by
          rw [← pow_add]
          congr 1
          omega

/-- Whether a number of units is so close to a midpoint, in half units, that the error of reading
may be larger. -/
def IsNextTo (midpoint : ℕ) (v : ℚ) : Prop := |2 * v - midpoint| * 2 ^ 51 ≤ 2 * v

theorem nextTo_of_isNextTo {exponent : ℤ} {binary x y : ℕ}
    (h : IsNextTo (y * 2 ^ binary) (single.decimalUnits x exponent)) :
    nextTo exponent binary x y = true := by
  have hscale : (0 : ℚ) < 10 ^ (-exponent).toNat := by positivity
  rw [IsNextTo] at h
  rw [nextTo, decide_eq_true_eq, ← Nat.cast_le (α := ℚ), cast_mul_rise, Nat.cast_mul,
    cast_gap_midpointStrip, mul_right_comm]
  exact mul_le_mul_of_nonneg_right (by exact_mod_cast h) hscale.le

/-- **A decimal number next to a midpoint** is the midpoint, or it is read right, or its digits are
none that the neighbours of the midpoint are written with. -/
theorem eq_or_readsRight_or_digitsReadBack {significand code : ℕ} {exponent : ℤ}
    (hpos : 0 < significand) (hlt : significand < 10 ^ 8) (hmin : -53 ≤ exponent) (hmax : exponent ≤ 48)
    (hcode : code < single.infinityCode)
    (hnear : IsNextTo (single.upperMidpoint code) (single.decimalUnits significand exponent)) :
    2 * single.decimalUnits significand exponent = single.upperMidpoint code ∨
      readsRight significand exponent = true ∨
        (digitsReadBack code = true ∧ digitsReadBack (code + 1) = true) := by
  obtain ⟨zeros, hzeros, hlow, hhigh⟩ := exists_eight_digits hpos hlt
  obtain ⟨binary, k, rfl, hk, hfull⟩ := single.exists_parts code
  have hunits : single.decimalUnits significand exponent
      = single.decimalUnits (significand * 10 ^ zeros) (exponent - zeros) := by
    rw [← decimalUnits_add, sub_add_cancel]
  have hmidpoint := single.upperMidpoint_parts hk hfull
  have hbinade : single.binade = 2 ^ 23 := rfl
  have hinfinity : single.infinityCode = 255 * 2 ^ 23 := rfl
  rw [hbinade] at hk hfull hcode
  rw [hinfinity] at hcode
  have hbinary : binary < 254 := by omega
  have hchecked : binadeChecked (exponent - zeros) binary = true :=
    binadeChecked_of_le (by omega) (by omega) hbinary
  rw [hunits, hmidpoint] at hnear
  have hnext := nextTo_of_isNextTo hnear
  -- A number next to a midpoint of the binade is neither below all of them nor above, so the binade
  -- was searched.
  rw [binadeChecked, isBelow_eq_false hnext hhigh.le (by omega) (by omega),
    isAbove_eq_false hnext hlow (by omega), Bool.false_or, Bool.false_or] at hchecked
  rcases Strip.gap_eq_zero_or_of_checked run_pos hchecked
    (contains_of_nextTo hnext hhigh.le (by omega)) with hgap | hresolved
  · left
    rw [hunits, hmidpoint]
    exact eq_of_gap_eq_zero hgap
  · right
    simp only [resolved, Bool.or_eq_true, Bool.and_eq_true, decide_eq_true_eq, hnext, Bool.not_true,
      Bool.false_eq_true, List.all_eq_true, List.mem_range, or_false] at hresolved
    rcases hresolved with ((heven | hlarge) | hright) | hback
    · omega
    · omega
    · left
      have := (hright zeros hzeros).resolve_left (by simp)
      rwa [Nat.mul_div_cancel _ (by positivity), sub_add_cancel] at this
    · right
      rwa [show (2 * k + 1) / 2 = k by omega] at hback

end ReportPress.Json
