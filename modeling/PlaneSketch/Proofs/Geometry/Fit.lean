import PlaneSketch.Proofs.Exact.Outcome
import PlaneSketch.Proofs.Geometry.Regression

/-! How well the lines of least squares fit. What a line `a + b·f` leaves of another coordinate is least if the
residuals sum to zero, alone and weighted by `f`, since any other line then leaves the squares of the difference
besides. Which coordinate is fitted over which depends on the slope, and where a slope is divided by a spread of zero
it is not used. -/
namespace PlaneSketch

variable {f g : Point ℝ → ℝ} {points : List (Point ℝ)} {a b : ℝ}

/-- What the line `a + b·f` leaves of `g`, squared and summed. -/
noncomputable def squaresLeft (f g : Point ℝ → ℝ) (points : List (Point ℝ)) (a b : ℝ) : ℝ :=
  (points.map fun p => (g p - (a + b * f p)) ^ 2).sum

def FitsBest (f g : Point ℝ → ℝ) (points : List (Point ℝ)) (a b : ℝ) : Prop :=
  ∀ a' b', squaresLeft f g points a b ≤ squaresLeft f g points a' b'

/-- The slope of all lines that fit best. There is none if these have different ones. -/
structure IsSlope (f g : Point ℝ → ℝ) (points : List (Point ℝ)) (b : ℝ) : Prop where
  fits : ∃ a, FitsBest f g points a b
  only : ∀ a' b', FitsBest f g points a' b' → b' = b

/-- What a line fitted to points is for: it passes through their mean and through all of them if it can, and fits
best as `y` over `x` if that slope is one and is not steep, and as `x` over `y` otherwise. -/
structure Line.Fitted (l : Line ℝ) (points : List (Point ℝ)) : Prop where
  distinct : l.p0 ≠ l.p1
  mean : l.Contains (Point.mean points)
  colinear : Colinear points → ∀ p ∈ points, l.Contains p
  gentle : ∀ b, IsSlope Point.x Point.y points b → |b| ≤ 1 →
    ∃ a, FitsBest Point.x Point.y points a b ∧ ∀ p, l.Contains p ↔ p.y = a + b * p.x
  steep : (∀ b, IsSlope Point.x Point.y points b → 1 < |b|) →
    ∃ a b, FitsBest Point.y Point.x points a b ∧ ∀ p, l.Contains p ↔ p.x = a + b * p.y

section Squares

theorem squaresLeft_nonneg (f g : Point ℝ → ℝ) (points : List (Point ℝ)) (a b : ℝ) :
    0 ≤ squaresLeft f g points a b :=
  List.sum_nonneg (List.forall_mem_map.mpr fun _ _ => sq_nonneg _)

theorem squaresLeft_eq_zero : squaresLeft f g points a b = 0 ↔ ∀ p ∈ points, g p = a + b * f p := by
  rw [squaresLeft, sum_sq_eq_zero_iff]
  simp only [sub_eq_zero]

/-- Completing the square: how another line does, by the residuals of the first and by the difference. -/
private theorem squaresLeft_add (f g : Point ℝ → ℝ) (points : List (Point ℝ)) (a b c d : ℝ) :
    squaresLeft f g points (a + c) (b + d) =
      squaresLeft f g points a b + squaresLeft f 0 points c d -
        2 * (c * (points.map fun p => g p - (a + b * f p)).sum +
          d * (points.map fun p => f p * (g p - (a + b * f p))).sum) := by
  simp only [squaresLeft]
  induction points with
  | nil => simp
  | cons p points ih =>
    simp only [List.map_cons, List.sum_cons, ih, Pi.zero_apply]
    ring

private theorem sum_residuals (f g : Point ℝ → ℝ) (points : List (Point ℝ)) (a b : ℝ) :
    (points.map fun p => g p - (a + b * f p)).sum =
      (points.map g).sum - (points.length * a + b * (points.map f).sum) := by
  induction points with
  | nil => simp
  | cons p points ih =>
    simp only [List.map_cons, List.sum_cons, List.length_cons, Nat.cast_succ, ih]
    ring

private theorem sum_weighted_residuals (f g : Point ℝ → ℝ) (points : List (Point ℝ)) (a b : ℝ) :
    (points.map fun p => f p * (g p - (a + b * f p))).sum =
      (points.map fun p => f p * g p).sum - (a * (points.map f).sum + b * (points.map fun p => f p * f p).sum) := by
  induction points with
  | nil => simp
  | cons p points ih =>
    simp only [List.map_cons, List.sum_cons, ih]
    ring

end Squares

section Slope

noncomputable def slope (f g : Point ℝ → ℝ) (points : List (Point ℝ)) : ℝ :=
  comoment f g points / comoment f f points

noncomputable def intercept (f g : Point ℝ → ℝ) (points : List (Point ℝ)) : ℝ :=
  ((points.map g).sum - slope f g points * (points.map f).sum) / points.length

theorem comoment_of_forall {c : ℝ} (same : ∀ p ∈ points, g p = c) (f : Point ℝ → ℝ) : comoment f g points = 0 := by
  have products : (points.map fun p => f p * g p) = points.map fun p => f p * c :=
    List.map_congr_left fun p member => congrArg (f p * ·) (same p member)
  have values : points.map g = points.map fun _ => c := List.map_congr_left same
  rw [comoment, products, values, List.sum_map_mul_right, List.map_const', List.sum_replicate, nsmul_eq_mul]
  ring

private theorem comoment_eq_zero (still : comoment g g points = 0) (f : Point ℝ → ℝ) :
    comoment f g points = 0 :=
  comoment_of_forall (eq_mean_of_comoment_self still) f

/-- The residuals of the fitted line balance, so that what another line leaves besides are the squares of the
difference. -/
theorem squaresLeft_eq_fitted_add (varies : comoment f f points ≠ 0) (a b : ℝ) :
    squaresLeft f g points a b =
      squaresLeft f g points (intercept f g points) (slope f g points) +
        squaresLeft f 0 points (a - intercept f g points) (b - slope f g points) := by
  have count : (points.length : ℝ) ≠ 0 := by
    intro none
    rw [Nat.cast_eq_zero, List.length_eq_zero_iff] at none
    subst none
    exact varies (by simp [comoment])
  have inclined : slope f g points * comoment f f points = comoment f g points := div_mul_cancel₀ _ varies
  have balanced : points.length * intercept f g points = (points.map g).sum - slope f g points * (points.map f).sum :=
    mul_div_cancel₀ _ count
  have residuals : (points.map g).sum -
      (points.length * intercept f g points + slope f g points * (points.map f).sum) = 0 := by
    linear_combination -balanced
  have weighted : (points.map fun p => f p * g p).sum -
      (intercept f g points * (points.map f).sum + slope f g points * (points.map fun p => f p * f p).sum) = 0 := by
    apply mul_left_cancel₀ count
    rw [comoment, comoment] at inclined
    linear_combination -inclined - (points.map f).sum * balanced
  have square := squaresLeft_add f g points (intercept f g points) (slope f g points) (a - intercept f g points)
    (b - slope f g points)
  rwa [sum_residuals, sum_weighted_residuals, residuals, weighted, mul_zero, mul_zero, add_zero, mul_zero, sub_zero,
    add_sub_cancel, add_sub_cancel] at square

theorem fitsBest_fitted (varies : comoment f f points ≠ 0) :
    FitsBest f g points (intercept f g points) (slope f g points) := by
  intro a b
  rw [squaresLeft_eq_fitted_add varies a b]
  exact le_add_of_nonneg_right (squaresLeft_nonneg f 0 points _ _)

private theorem isSlope_iff : IsSlope f g points b ↔ comoment f f points ≠ 0 ∧ b = slope f g points := by
  constructor
  · rintro ⟨⟨a, fits⟩, only⟩
    -- Over a coordinate that is the same for all points a steeper line can start lower and do as well.
    have varies : comoment f f points ≠ 0 := by
      intro still
      have same := eq_mean_of_comoment_self still
      have turned : FitsBest f g points (a - (points.map f).sum / points.length) (b + 1) := by
        intro a' b'
        refine le_of_eq_of_le (congrArg List.sum (List.map_congr_left fun p member => ?_)) (fits a' b')
        rw [same p member]
        ring
      exact absurd (only _ _ turned) (by simp)
    exact ⟨varies, (only _ _ (fitsBest_fitted varies)).symm⟩
  · rintro ⟨varies, rfl⟩
    refine ⟨⟨_, fitsBest_fitted varies⟩, fun a' b' fits => ?_⟩
    have least := fits (intercept f g points) (slope f g points)
    rw [squaresLeft_eq_fitted_add varies a' b', add_le_iff_nonpos_right] at least
    have same := squaresLeft_eq_zero.mp (least.antisymm (squaresLeft_nonneg f 0 points _ _))
    by_contra different
    apply varies
    apply comoment_of_forall fun p member => eq_div_of_mul_eq (sub_ne_zero.mpr different) ?_
    · exact intercept f g points - a'
    · have level : (0 : ℝ) = a' - intercept f g points + (b' - slope f g points) * f p := same p member
      linear_combination -level

end Slope

section Lines

private theorem leastSquares_contains_mean (nonempty : points ≠ []) :
    (leastSquares points).Contains (Point.mean points) := by
  have count : (points.length : ℝ) ≠ 0 := by simpa using nonempty
  rw [Line.contains_iff_side (leastSquares_distinct points), Point.mean_eq_sums nonempty, Line.side]
  apply mul_left_cancel₀ count
  have balanced := sum_side_leastSquares points
  rw [Line.sum_side] at balanced
  field_simp
  linear_combination balanced

theorem leastSquares_eq_ofCoords (points : List (Point ℝ)) :
    leastSquares points =
      if comoment Point.x Point.x points = 0 ∨ 1 < |slope Point.x Point.y points| then
        if comoment Point.y Point.y points = 0 then
          let x := (points.map Point.x).sum / points.length
          let y := (points.map Point.y).sum / points.length
          .ofCoords x y x (y + 1)
        else
          let x := intercept Point.y Point.x points
          .ofCoords x 0 (x + slope Point.y Point.x points) 1
      else
        let y := intercept Point.x Point.y points
        .ofCoords 0 y 1 (y + slope Point.x Point.y points) := by
  rw [leastSquares_eq]
  simp only [intercept, slope, comoment_comm Point.y Point.x]

private theorem contains_leastSquares_of_gentle (varies : comoment Point.x Point.x points ≠ 0)
    (gentle : |slope Point.x Point.y points| ≤ 1) (p : Point ℝ) :
    (leastSquares points).Contains p ↔
      p.y = intercept Point.x Point.y points + slope Point.x Point.y points * p.x := by
  rw [leastSquares_eq_ofCoords, if_neg (not_or.mpr ⟨varies, gentle.not_gt⟩), Line.contains_flat]

private theorem contains_leastSquares_of_steep
    (steep : comoment Point.x Point.x points = 0 ∨ 1 < |slope Point.x Point.y points|)
    (varies : comoment Point.y Point.y points ≠ 0) (p : Point ℝ) :
    (leastSquares points).Contains p ↔
      p.x = intercept Point.y Point.x points + slope Point.y Point.x points * p.y := by
  rw [leastSquares_eq_ofCoords, if_pos steep, if_neg varies, Line.contains_steep]

private theorem contains_leastSquares_of_still
    (steep : comoment Point.x Point.x points = 0 ∨ 1 < |slope Point.x Point.y points|)
    (still : comoment Point.y Point.y points = 0) :
    comoment Point.x Point.x points = 0 ∧
      ∀ p, (leastSquares points).Contains p ↔ p.x = (points.map Point.x).sum / points.length := by
  have upright : comoment Point.x Point.x points = 0 := by
    apply steep.resolve_right
    rw [slope, comoment_eq_zero still, zero_div, abs_zero]
    exact zero_le_one.not_gt
  refine ⟨upright, fun p => ?_⟩
  rw [leastSquares_eq_ofCoords, if_pos (.inl upright), if_pos still, Line.contains_upright]

private theorem leastSquares_fits_steep
    (steep : comoment Point.x Point.x points = 0 ∨ 1 < |slope Point.x Point.y points|) :
    ∃ a b, FitsBest Point.y Point.x points a b ∧ ∀ p, (leastSquares points).Contains p ↔ p.x = a + b * p.y := by
  by_cases still : comoment Point.y Point.y points = 0
  · obtain ⟨upright, line⟩ := contains_leastSquares_of_still steep still
    refine ⟨(points.map Point.x).sum / points.length, 0, fun a' b' => ?_, fun p => ?_⟩
    · rw [squaresLeft_eq_zero.mpr fun p member => ?_]
      · exact squaresLeft_nonneg _ _ _ _ _
      · rw [zero_mul, add_zero, eq_mean_of_comoment_self upright p member]
    · rw [line, zero_mul, add_zero]
  · exact ⟨_, _, fitsBest_fitted still, contains_leastSquares_of_steep steep still⟩

private theorem leastSquares_fitted (nonempty : points ≠ []) : (leastSquares points).Fitted points where
  distinct := leastSquares_distinct points
  mean := leastSquares_contains_mean nonempty
  colinear := Colinear.contains_leastSquares
  gentle b isSlope gentle := by
    obtain ⟨varies, rfl⟩ := isSlope_iff.mp isSlope
    exact ⟨_, fitsBest_fitted varies, contains_leastSquares_of_gentle varies gentle⟩
  steep slopes := by
    apply leastSquares_fits_steep
    by_cases varies : comoment Point.x Point.x points = 0
    · exact .inl varies
    · exact .inr (slopes _ (isSlope_iff.mpr ⟨varies, rfl⟩))

end Lines

section Undefined

open Outcome

private theorem total_map_number (f : Point Outcome → Outcome) (g : Point ℝ → ℝ)
    (same : ∀ p : Point ℝ, f (p.map number) = number (g p)) (points : List (Point ℝ)) :
    total ((points.map (·.map number)).map f) = number (points.map g).sum := by
  have values : (points.map (·.map number)).map f = (points.map g).map number := by
    rw [List.map_map, List.map_map]
    exact List.map_congr_left fun p _ => same p
  rw [values, total_number, total_real]

private theorem steep_number (spread covariance : ℝ) :
    (number spread == 0 || decide (1 < Scalar.abs (number covariance / number spread))) =
      decide (spread = 0 ∨ 1 < |covariance / spread|) := by
  rw [zero_number, one_number, number_beq, Scalar.beq_real]
  by_cases still : spread = 0
  · simp [still]
  · simp [still, number_div _ still]

theorem comoment_number (f g : Point ℝ → ℝ) (points : List (Point ℝ)) :
    number points.length * number (points.map fun p => f p * g p).sum -
      number (points.map f).sum * number (points.map g).sum = number (comoment f g points) := rfl

private theorem leastSquares_number (nonempty : points ≠ []) :
    leastSquares (points.map (·.map number)) = (leastSquares points).map number := by
  have count : (points.length : ℝ) ≠ 0 := by simpa using nonempty
  have xs := total_map_number Point.x Point.x (fun _ => rfl) points
  have ys := total_map_number Point.y Point.y (fun _ => rfl) points
  have xxs := total_map_number (fun p => p.x * p.x) (fun p => p.x * p.x) (fun _ => rfl) points
  have yys := total_map_number (fun p => p.y * p.y) (fun p => p.y * p.y) (fun _ => rfl) points
  have xys := total_map_number (fun p => p.x * p.y) (fun p => p.x * p.y) (fun _ => rfl) points
  rw [leastSquares_eq, leastSquares]
  simp only [xs, ys, xxs, yys, xys, List.length_map, ofNat_number, comoment_number Point.x Point.x points,
    comoment_number Point.x Point.y points, comoment_number Point.y Point.y points, steep_number]
  simp only [zero_number, one_number, number_beq, Scalar.beq_real, decide_eq_true_eq]
  split_ifs with steep still
  · simp only [number_div _ count, number_add]
    rfl
  · simp only [number_div _ count, number_div _ still, number_mul, number_sub, number_add]
    rfl
  · simp only [number_div _ count, number_div _ (not_or.mp steep).1, number_mul, number_sub, number_add]
    rfl

/-- Points, at least one, are fitted without a quotient by zero that matters. -/
theorem leastSquares_fits (nonempty : points ≠ []) :
    leastSquares (points.map (·.map number)) = (leastSquares points).map number ∧ (leastSquares points).Fitted points :=
  ⟨leastSquares_number nonempty, leastSquares_fitted nonempty⟩

/-- Points that the steeper fit is made for, none of them on the line. -/
def stairs : List (Point ℝ) := [⟨0, -1⟩, ⟨0, 0⟩, ⟨1, 1⟩]

theorem leastSquares_fits_stairs :
    stairs ≠ [] ∧ leastSquares (stairs.map (·.map number)) = (leastSquares stairs).map number ∧
      (leastSquares stairs).Fitted stairs := by
  have some : stairs ≠ [] := List.cons_ne_nil _ _
  exact ⟨some, leastSquares_fits some⟩

end Undefined

end PlaneSketch
