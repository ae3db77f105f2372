import Mathlib

/-!
# Integral points near a line

A strip around a line through the origin, of bounded length, holds few integral points where it is
narrow. Two points whose determinant is one span all others, and a point of the strip is a
combination of them with coefficients that are bounded by how far the two are from the line.
Euclid's algorithm finds two for which the bounds are small; only their determinant enters the
proof, so nothing needs to be known of how they were found.
-/

namespace ReportPress.Number

-- Powers are those of the core library, whatever else is in scope.
attribute [local instance (2000)] instPowNat

/-- Two points on the two sides of a line. -/
structure Frame where
  x₁ : ℕ
  y₁ : ℕ
  x₂ : ℕ
  y₂ : ℕ

namespace Frame

variable (F : Frame)

/-- Whether the determinant is one or minus one. -/
def spans : Bool := F.x₁ * F.y₂ + 1 = F.x₂ * F.y₁ || F.x₂ * F.y₁ + 1 = F.x₁ * F.y₂

variable {F}

/-- A point is the combination of the two whose coefficients are the areas that it spans with
them. -/
theorem exists_combination (h : F.spans = true) (x y : ℤ) :
    ∃ a b : ℤ, a * F.x₁ + b * F.x₂ = x ∧ a * F.y₁ + b * F.y₂ = y ∧
      |a| = |x * F.y₂ - y * F.x₂| ∧ |b| = |x * F.y₁ - y * F.x₁| := by
  obtain ⟨δ, hδ, hdet⟩ : ∃ δ : ℤ, |δ| = 1 ∧ δ * (F.x₁ * F.y₂ - F.x₂ * F.y₁) = 1 := by
    rw [spans, Bool.or_eq_true, decide_eq_true_eq, decide_eq_true_eq] at h
    zify at h
    rcases h with h | h
    · exact ⟨-1, by simp, by linarith⟩
    · exact ⟨1, by simp, by linarith⟩
  refine ⟨δ * (x * F.y₂ - y * F.x₂), -δ * (x * F.y₁ - y * F.x₁), ?_, ?_, ?_, ?_⟩
  · linear_combination x * hdet
  · linear_combination y * hdet
  · rw [abs_mul, hδ, one_mul]
  · rw [abs_mul, abs_neg, hδ, one_mul]

end Frame

/-- The points `(x, y)` near the line `x · rise = y · run` with a bounded abscissa. -/
structure Strip where
  /-- How fast the line rises. -/
  rise : ℕ
  /-- How far it runs meanwhile. -/
  run : ℕ
  /-- How far `x · rise` and `y · run` may be apart. -/
  width : ℕ
  reach : ℕ

namespace Strip

variable (S : Strip)

/-- How far a point is from the line. -/
def gap (x y : ℕ) : ℕ := Nat.dist (x * S.rise) (y * S.run)

theorem cast_gap (x y : ℕ) : (S.gap x y : ℤ) = |(x : ℤ) * S.rise - y * S.run| := by
  rw [gap, Nat.dist, ← Nat.cast_mul, ← Nat.cast_mul]
  rcases le_total (x * S.rise) (y * S.run) with h | h
  · rw [abs_of_nonpos (by omega)]
    omega
  · rw [abs_of_nonneg (by omega)]
    omega

/-- Membership in the strip. -/
structure Contains (x y : ℕ) : Prop where
  le : x ≤ S.reach
  near : S.gap x y ≤ S.width

/-- A bound on the area that this point spans with the points of the strip. -/
def bound (x y : ℕ) : ℕ := (S.reach * S.gap x y + x * S.width) / S.run

variable {S}

theorem abs_area_le_bound (hrun : 0 < S.run) {x y : ℕ} (h : S.Contains x y) (x' y' : ℕ) :
    |(x : ℤ) * y' - y * x'| ≤ S.bound x' y' := by
  have hrun' : (0 : ℤ) < S.run := by exact_mod_cast hrun
  -- Times the run, the area is a combination of how far the two points are from the line.
  rw [bound, Int.natCast_ediv, Int.le_ediv_iff_mul_le hrun']
  push_cast
  calc |(x : ℤ) * y' - y * x'| * S.run
      = |((x : ℤ) * S.rise - y * S.run) * x' - x * (x' * S.rise - y' * S.run)| := by
        rw [← abs_of_pos hrun', ← abs_mul, abs_of_pos hrun']
        congr 1
        ring
    _ ≤ |((x : ℤ) * S.rise - y * S.run) * x'| + |(x : ℤ) * (x' * S.rise - y' * S.run)| :=
        abs_sub _ _
    _ = S.gap x y * x' + x * S.gap x' y' := by
        rw [abs_mul, abs_mul, Nat.abs_cast, Nat.abs_cast, cast_gap, cast_gap]
    _ ≤ S.width * x' + S.reach * S.gap x' y' := by
        gcongr
        · exact h.near
        · exact h.le
    _ = S.reach * S.gap x' y' + x' * S.width := by ring

/-! ## Checking all points of a strip -/

/-- Euclid's algorithm on the gaps of two points, until the second point is far enough out. -/
def search (far : ℕ) : (fuel x₁ y₁ gap₁ x₂ y₂ gap₂ : ℕ) → Frame
  | 0, x₁, y₁, _, x₂, y₂, _ => ⟨x₁, y₁, x₂, y₂⟩
  | fuel + 1, x₁, y₁, gap₁, x₂, y₂, gap₂ =>
    if far ≤ x₂ then ⟨x₁, y₁, x₂, y₂⟩
    else
      let quotient := gap₁ / gap₂
      search far fuel x₂ y₂ gap₂ (x₁ + quotient * x₂) (y₁ + quotient * y₂) (gap₁ % gap₂)

variable (S)

/-- Whether `p` holds of the combinations of two points that are in the strip. There are to be
few. -/
def checkedFrom (F : Frame) (p : ℕ → ℕ → Bool) : Bool :=
  let a := S.bound F.x₂ F.y₂
  let b := S.bound F.x₁ F.y₁
  F.spans && (2 * a + 1) * (2 * b + 1) ≤ 50 &&
    (List.range (2 * a + 1)).all fun i ↦ (List.range (2 * b + 1)).all fun j ↦
      let x := i * F.x₁ + j * F.x₂ - (a * F.x₁ + b * F.x₂)
      let y := i * F.y₁ + j * F.y₂ - (a * F.y₁ + b * F.y₂)
      S.width < S.gap x y || p x y

/-- Whether `p` holds of all points of the strip that are not on the line: because there are none,
or because it was found to hold of each. -/
def checked (p : ℕ → ℕ → Bool) : Bool :=
  S.width < Nat.gcd S.rise S.run ||
    S.checkedFrom (search (2 ^ 25) 100 0 1 S.run 1 0 S.rise) p

variable {S} {p : ℕ → ℕ → Bool} {x y : ℕ}

theorem exists_natCast_sub_eq {a : ℤ} {n : ℕ} (h : |a| ≤ n) : ∃ i < 2 * n + 1, (i : ℤ) - n = a := by
  obtain ⟨hlow, hhigh⟩ := abs_le.mp h
  exact ⟨(a + n).toNat, by omega, by omega⟩

theorem of_checkedFrom {F : Frame} (hrun : 0 < S.run) (h : S.checkedFrom F p = true)
    (hxy : S.Contains x y) : p x y = true := by
  rw [checkedFrom, Bool.and_eq_true, Bool.and_eq_true, List.all_eq_true] at h
  obtain ⟨⟨hspans, -⟩, hall⟩ := h
  obtain ⟨a, b, hx, hy, ha, hb⟩ := F.exists_combination hspans x y
  obtain ⟨i, hi, rfl⟩ := exists_natCast_sub_eq (ha.trans_le (abs_area_le_bound hrun hxy F.x₂ F.y₂))
  obtain ⟨j, hj, rfl⟩ := exists_natCast_sub_eq (hb.trans_le (abs_area_le_bound hrun hxy F.x₁ F.y₁))
  have hpoint := List.all_eq_true.mp (hall i (List.mem_range.mpr hi)) j (List.mem_range.mpr hj)
  generalize S.bound F.x₂ F.y₂ = m at *
  generalize S.bound F.x₁ F.y₁ = n at *
  have habscissa : i * F.x₁ + j * F.x₂ - (m * F.x₁ + n * F.x₂) = x := by
    rw [Nat.sub_eq_iff_eq_add] <;> zify <;> linarith
  have hordinate : i * F.y₁ + j * F.y₂ - (m * F.y₁ + n * F.y₂) = y := by
    rw [Nat.sub_eq_iff_eq_add] <;> zify <;> linarith
  simp only [habscissa, hordinate, Bool.or_eq_true, decide_eq_true_eq] at hpoint
  exact hpoint.resolve_left (not_lt.mpr hxy.near)

/-- **What is checked holds of the strip**, off the line. -/
theorem gap_eq_zero_or_of_checked (hrun : 0 < S.run) (h : S.checked p = true)
    (hxy : S.Contains x y) : S.gap x y = 0 ∨ p x y = true := by
  rw [checked, Bool.or_eq_true, decide_eq_true_eq] at h
  rcases h with hnone | h
  · -- The gap is a multiple of what the width is less than.
    left
    have hdvd : Nat.gcd S.rise S.run ∣ S.gap x y := by
      rw [gap, Nat.dist]
      exact dvd_add
        (Nat.dvd_sub (dvd_mul_of_dvd_right (Nat.gcd_dvd_left _ _) _)
          (dvd_mul_of_dvd_right (Nat.gcd_dvd_right _ _) _))
        (Nat.dvd_sub (dvd_mul_of_dvd_right (Nat.gcd_dvd_right _ _) _)
          (dvd_mul_of_dvd_right (Nat.gcd_dvd_left _ _) _))
    exact Nat.eq_zero_of_dvd_of_lt hdvd (hxy.near.trans_lt hnone)
  · exact .inr (of_checkedFrom hrun h hxy)

end Strip

end ReportPress.Number
