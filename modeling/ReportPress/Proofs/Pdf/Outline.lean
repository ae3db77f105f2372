import Mathlib
import ReportPress.Pdf.Outline

/-!
# The outline of a box

In exact arithmetic the outline of a rounded box is what it should be, whichever two opposite
corners the box is given by and whatever radius is asked for. It goes round the box
counter-clockwise. Along every side it runs straight on, never back, and stops short of the corner
by the radius; the corner is one curve to the next side, and its handles lie on the two sides
between the curve and the corner.

All that is used of the radius is that it fits (`fits_fittingRadius`), and of the length of handles
that they are not longer than the radius (`handleRatio_nonneg`, `handleRatio_le_one`). That the
outline stays in the box is not read off from its points one by one: it holds of everything that
goes round corners of the box (`GoesRound.inBox`).
-/

namespace ReportPress

/-- Exact numbers as coordinates. -/
instance : Coordinate ℚ where
  smaller := min
  larger := max
  half x := x / 2
  zero := 0
  handleRatio := 0.5522848

namespace Outline

open Coordinate

/-! ## Going round a box -/

/-- Whether a point lies in the box between two opposite corners. Between two corners that share a
side it lies on the side. -/
def InBox (a b p : PointOf ℚ) : Prop := p.x ∈ Set.uIcc a.x b.x ∧ p.y ∈ Set.uIcc a.y b.y

/-- The corners of a box, counter-clockwise from the lower left, and the first two once more. -/
def corners (lo hi : PointOf ℚ) : List (PointOf ℚ) :=
  [lo, ⟨hi.x, lo.y⟩, hi, ⟨lo.x, hi.y⟩, lo, ⟨hi.x, lo.y⟩]

def squaredDistance (p q : PointOf ℚ) : ℚ := (p.x - q.x) ^ 2 + (p.y - q.y) ^ 2

/-- Whether the way from one point to another and on to a third turns left, if it turns at all. -/
def TurnsLeft (p q s : PointOf ℚ) : Prop :=
  0 ≤ (q.x - p.x) * (s.y - q.y) - (q.y - p.y) * (s.x - q.x)

/-- **A side of a box and the rounded corner at its end.** The side runs from one corner to the
next, and from there another side runs on to a third. The outline follows the side from `start` to
`stop`, and goes from there to `turned` on the other side in a curve with two handles. -/
structure RoundsCorner (r : ℚ) (before corner after : PointOf ℚ)
    (start stop first second turned : PointOf ℚ) : Prop where
  /-- The box lies to the left. -/
  turnsLeft : TurnsLeft before corner after
  /-- The edge begins on the side. -/
  start_onSide : InBox before corner start
  /-- It runs towards the corner. -/
  stop_onSide : InBox start corner stop
  /-- It stops at the radius. -/
  stop_distance : squaredDistance stop corner = r ^ 2
  /-- The first handle lies between there and the corner. -/
  first_onSide : InBox stop corner first
  /-- The curve ends on the other side. -/
  turned_onSide : InBox corner after turned
  /-- It ends at the radius. -/
  turned_distance : squaredDistance corner turned = r ^ 2
  /-- The second handle lies between the corner and there. -/
  second_onSide : InBox corner turned second

/-- **Whether an outline goes round corners**, from a point on the side behind the first of them. -/
inductive GoesRound (r : ℚ) : List (PointOf ℚ) → PointOf ℚ → List (OutlinePoint ℚ) → Prop
  /-- No corner is left, only the side behind the last. -/
  | done (corner after start : PointOf ℚ) : GoesRound r [corner, after] start []
  /-- Along a side, round the corner and on. -/
  | side {before corner after start stop first second turned : PointOf ℚ}
      {others : List (PointOf ℚ)} {points : List (OutlinePoint ℚ)}
      (hcorner : RoundsCorner r before corner after start stop first second turned)
      (hrest : GoesRound r (corner :: after :: others) turned points) :
      GoesRound r (before :: corner :: after :: others) start
        (⟨stop, false⟩ :: ⟨first, true⟩ :: ⟨second, true⟩ :: ⟨turned, false⟩ :: points)

/-- **Whether an outline is that of a box with rounded corners.** -/
structure RoundsBox (lo hi : PointOf ℚ) (r : ℚ) (outline : List (OutlinePoint ℚ)) : Prop where
  /-- It has four edges and four curves, and its first point once more. -/
  length : outline.length = 17
  /-- Every curve has two handles. -/
  handles : outline.countP (·.isHandle) = 8
  /-- It ends where it begins. -/
  closed : outline.head? = outline.getLast?
  /-- It stays in the box. -/
  inBox : ∀ p ∈ outline, InBox lo hi p.point
  /-- The radius is not negative. -/
  radius_nonneg : 0 ≤ r
  /-- The lower and the upper side have room for the curves at both ends. -/
  fits_across : lo.x + r ≤ hi.x - r
  /-- So have the left and the right side. -/
  fits_upright : lo.y + r ≤ hi.y - r
  /-- It goes round the four corners. -/
  goesRound : ∃ start points, outline = ⟨start, false⟩ :: points ∧
    GoesRound r (corners lo hi) start points

section InBox

variable {lo hi a b p : PointOf ℚ} {r : ℚ}

theorem InBox.trans (ha : InBox lo hi a) (hb : InBox lo hi b) (h : InBox a b p) : InBox lo hi p :=
  ⟨Set.uIcc_subset_uIcc ha.1 hb.1 h.1, Set.uIcc_subset_uIcc ha.2 hb.2 h.2⟩

theorem inBox_corners (lo hi : PointOf ℚ) : ∀ c ∈ corners lo hi, InBox lo hi c := by
  simp [corners, InBox]

theorem GoesRound.inBox {around : List (PointOf ℚ)} {start : PointOf ℚ}
    {points : List (OutlinePoint ℚ)} (h : GoesRound r around start points)
    (haround : ∀ c ∈ around, InBox lo hi c) (hstart : InBox lo hi start) :
    ∀ p ∈ points, InBox lo hi p.point := by
  induction h with
  | done => exact fun p hp ↦ absurd hp List.not_mem_nil
  | side hcorner _ ih =>
    obtain ⟨-, hothers⟩ := List.forall_mem_cons.mp haround
    have hhere := hothers _ List.mem_cons_self
    have hafter := hothers _ (.tail _ List.mem_cons_self)
    have hstop := hstart.trans hhere hcorner.stop_onSide
    have hturned := hhere.trans hafter hcorner.turned_onSide
    simp only [List.forall_mem_cons]
    exact ⟨hstop, hstop.trans hhere hcorner.first_onSide,
      hhere.trans hturned hcorner.second_onSide, hturned, ih hothers hturned⟩

end InBox

/-! ## Radius and handles -/

section Fitting

variable {lo hi : PointOf ℚ}

theorem handleRatio_nonneg : 0 ≤ (handleRatio : ℚ) := by
  show (0 : ℚ) ≤ 0.5522848
  norm_num

theorem handleRatio_le_one : (handleRatio : ℚ) ≤ 1 := by
  show (0.5522848 : ℚ) ≤ 1
  norm_num

theorem fittingRadius_eq (lo hi : PointOf ℚ) (radius : ℚ) :
    fittingRadius lo hi radius
      = max (min (min radius ((hi.x - lo.x) / 2)) ((hi.y - lo.y) / 2)) 0 := rfl

theorem fits_fittingRadius (hx : lo.x ≤ hi.x) (hy : lo.y ≤ hi.y) (radius : ℚ) :
    0 ≤ fittingRadius lo hi radius ∧
      lo.x + fittingRadius lo hi radius ≤ hi.x - fittingRadius lo hi radius ∧
      lo.y + fittingRadius lo hi radius ≤ hi.y - fittingRadius lo hi radius := by
  rw [fittingRadius_eq]
  set fit := min (min radius ((hi.x - lo.x) / 2)) ((hi.y - lo.y) / 2)
  have hwidth : fit ≤ (hi.x - lo.x) / 2 := (min_le_left _ _).trans (min_le_right _ _)
  have hheight : fit ≤ (hi.y - lo.y) / 2 := min_le_right _ _
  have hacross : max fit 0 ≤ (hi.x - lo.x) / 2 := max_le hwidth (by linarith)
  have hupright : max fit 0 ≤ (hi.y - lo.y) / 2 := max_le hheight (by linarith)
  exact ⟨le_max_right fit 0, by linarith, by linarith⟩

end Fitting

/-! ## The rounded box -/

section Rounded

variable {lo hi : PointOf ℚ} {r k : ℚ}

/-- The points of a rounded box with handles of length `k`. -/
theorem rounded_eq (hk : r * handleRatio = k) : rounded lo hi r =
    [⟨⟨lo.x + r, lo.y⟩, false⟩,
      ⟨⟨hi.x - r, lo.y⟩, false⟩, ⟨⟨hi.x - r + k, lo.y⟩, true⟩, ⟨⟨hi.x, lo.y + r - k⟩, true⟩,
      ⟨⟨hi.x, lo.y + r⟩, false⟩,
      ⟨⟨hi.x, hi.y - r⟩, false⟩, ⟨⟨hi.x, hi.y - r + k⟩, true⟩, ⟨⟨hi.x - r + k, hi.y⟩, true⟩,
      ⟨⟨hi.x - r, hi.y⟩, false⟩,
      ⟨⟨lo.x + r, hi.y⟩, false⟩, ⟨⟨lo.x + r - k, hi.y⟩, true⟩, ⟨⟨lo.x, hi.y - r + k⟩, true⟩,
      ⟨⟨lo.x, hi.y - r⟩, false⟩,
      ⟨⟨lo.x, lo.y + r⟩, false⟩, ⟨⟨lo.x, lo.y + r - k⟩, true⟩, ⟨⟨lo.x + r - k, lo.y⟩, true⟩,
      ⟨⟨lo.x + r, lo.y⟩, false⟩] := by
  subst hk
  rfl

/-- With a radius that fits, the points of a rounded box go round its corners. -/
theorem exists_goesRound (hr : 0 ≤ r) (hx : lo.x + r ≤ hi.x - r) (hy : lo.y + r ≤ hi.y - r) :
    ∃ points, rounded lo hi r = ⟨⟨lo.x + r, lo.y⟩, false⟩ :: points ∧
      GoesRound r (corners lo hi) ⟨lo.x + r, lo.y⟩ points := by
  generalize hk : r * handleRatio = k
  have hnonneg : 0 ≤ k := hk ▸ mul_nonneg hr handleRatio_nonneg
  have hle : k ≤ r := hk ▸ mul_le_of_le_one_right hr handleRatio_le_one
  have harea : 0 ≤ (hi.x - lo.x) * (hi.y - lo.y) := mul_nonneg (by linarith) (by linarith)
  refine ⟨_, rounded_eq hk, .side ?_ (.side ?_ (.side ?_ (.side ?_ (.done _ _ _))))⟩
  -- The same facts four times: every coordinate is one of its corner's, or is off it by at most `r`.
  all_goals
    constructor
    case turnsLeft =>
      rw [TurnsLeft]
      linarith
    all_goals
      simp only [InBox, squaredDistance, Set.mem_uIcc]
      grind

theorem roundsBox_rounded (hr : 0 ≤ r) (hx : lo.x + r ≤ hi.x - r) (hy : lo.y + r ≤ hi.y - r) :
    RoundsBox lo hi r (rounded lo hi r) := by
  obtain ⟨points, hpoints, hround⟩ := exists_goesRound hr hx hy
  have hstart : InBox lo hi ⟨lo.x + r, lo.y⟩ :=
    ⟨Set.mem_uIcc_of_le (by linarith) (by linarith), Set.left_mem_uIcc⟩
  have hinBox : ∀ p ∈ (⟨⟨lo.x + r, lo.y⟩, false⟩ : OutlinePoint ℚ) :: points, InBox lo hi p.point :=
    List.forall_mem_cons.mpr ⟨hstart, hround.inBox (inBox_corners lo hi) hstart⟩
  exact
    { length := rfl
      handles := rfl
      closed := rfl
      inBox := by rwa [hpoints]
      radius_nonneg := hr
      fits_across := hx
      fits_upright := hy
      goesRound := ⟨_, points, hpoints, hround⟩ }

end Rounded

section Corners

variable (a b : PointOf ℚ) (radius : ℚ)

theorem lowerLeft_eq : lowerLeft a b = ⟨min a.x b.x, min a.y b.y⟩ := rfl

theorem upperRight_eq : upperRight a b = ⟨max a.x b.x, max a.y b.y⟩ := rfl

/-- **Outlines of boxes.** The outline of the rounded box between two opposite corners is that of a
box with rounded corners, for the radius that fits, and that of the box goes through its corners.
Both are the same for all pairs of opposite corners of one box. -/
theorem roundsBox_ofRoundedRect :
    RoundsBox (lowerLeft a b) (upperRight a b)
        (fittingRadius (lowerLeft a b) (upperRight a b) radius) (ofRoundedRect a b radius) ∧
      ofRect a b = ((corners (lowerLeft a b) (upperRight a b)).take 4).map (⟨·, false⟩) ∧
      (∀ p, InBox (lowerLeft a b) (upperRight a b) p ↔ InBox a b p) ∧
      (ofRoundedRect b a radius = ofRoundedRect a b radius ∧ ofRect b a = ofRect a b) ∧
      ofRoundedRect ⟨a.x, b.y⟩ ⟨b.x, a.y⟩ radius = ofRoundedRect a b radius ∧
      ofRect ⟨a.x, b.y⟩ ⟨b.x, a.y⟩ = ofRect a b := by
  have hsame {c d : PointOf ℚ} (hlo : lowerLeft c d = lowerLeft a b)
      (hhi : upperRight c d = upperRight a b) :
      ofRoundedRect c d radius = ofRoundedRect a b radius ∧ ofRect c d = ofRect a b := by
    simp only [ofRoundedRect, ofRect, hlo, hhi, and_self]
  have hwidth : (lowerLeft a b).x ≤ (upperRight a b).x := min_le_max
  have hheight : (lowerLeft a b).y ≤ (upperRight a b).y := min_le_max
  obtain ⟨hr, hx, hy⟩ := fits_fittingRadius hwidth hheight radius
  refine ⟨roundsBox_rounded hr hx hy, rfl, ?_, hsame ?_ ?_, hsame ?_ ?_⟩
  · intro p
    simp only [InBox, lowerLeft_eq, upperRight_eq, Set.uIcc_of_le min_le_max]
    rfl
  · simp only [lowerLeft_eq, min_comm]
  · simp only [upperRight_eq, max_comm]
  · simp only [lowerLeft_eq, min_comm b.y]
  · simp only [upperRight_eq, max_comm b.y]

end Corners

end Outline

end ReportPress
