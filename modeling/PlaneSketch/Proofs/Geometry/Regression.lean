import PlaneSketch.Proofs.Geometry.Line
import PlaneSketch.Geometry.Regression

/-! Least squares lines in exact numbers. The fits are quotients of comoments; points of one line make
these proportional, so that the fit has the line's own slope, whichever way round it is made. -/
namespace PlaneSketch

open Scalar

@[simp] theorem total_real (xs : List ℝ) : total xs = xs.sum := by
  simp [total, List.sum_eq_foldl]

/-- The number of the points times the sum of the products, less the product of the sums. -/
noncomputable def comoment (f g : Point ℝ → ℝ) (points : List (Point ℝ)) : ℝ :=
  points.length * (points.map fun p => f p * g p).sum - (points.map f).sum * (points.map g).sum

theorem leastSquares_eq (points : List (Point ℝ)) :
    leastSquares points =
      let xs := (points.map Point.x).sum
      let ys := (points.map Point.y).sum
      let covariance := comoment Point.x Point.y points
      let xSpread := comoment Point.x Point.x points
      let ySpread := comoment Point.y Point.y points
      if xSpread = 0 ∨ 1 < |covariance / xSpread| then
        if ySpread = 0 then
          .ofCoords (xs / points.length) (ys / points.length) (xs / points.length) (ys / points.length + 1)
        else
          let x := (xs - covariance / ySpread * ys) / points.length
          .ofCoords x 0 (x + covariance / ySpread) 1
      else
        let y := (ys - covariance / xSpread * xs) / points.length
        .ofCoords 0 y 1 (y + covariance / xSpread) := by
  simp only [leastSquares, total_real, beq_real, Bool.or_eq_true, decide_eq_true_eq, abs_real, ofNat_real,
    numeral_zero, numeral_one]
  rfl

section Comoments

variable {f : Point ℝ → ℝ} {points : List (Point ℝ)}

theorem comoment_comm (f g : Point ℝ → ℝ) (points : List (Point ℝ)) :
    comoment f g points = comoment g f points := by
  simp only [comoment, mul_comm (f _), mul_comm (points.map f).sum]

theorem sum_sq_eq_zero_iff : (points.map fun p => f p ^ 2).sum = 0 ↔ ∀ p ∈ points, f p = 0 := by
  rw [← sum_real, sum_eq_zero_iff (List.forall_mem_map.mpr fun _ _ => sq_nonneg _), List.forall_mem_map]
  simp only [sq_eq_zero_iff]

private theorem sum_sq_sub (f : Point ℝ → ℝ) (points : List (Point ℝ)) (middle : ℝ) :
    (points.map fun p => (f p - middle) ^ 2).sum =
      (points.map fun p => f p * f p).sum - 2 * middle * (points.map f).sum + points.length * middle ^ 2 := by
  induction points with
  | nil => simp
  | cons p points ih =>
    simp only [List.map_cons, List.sum_cons, List.length_cons, Nat.cast_succ, ih]
    ring

theorem eq_mean_of_comoment_self (still : comoment f f points = 0) :
    ∀ p ∈ points, f p = (points.map f).sum / points.length := by
  intro p member
  have count : (points.length : ℝ) ≠ 0 := by simpa using List.ne_nil_of_mem member
  set middle := (points.map f).sum / points.length with middle_eq
  have whole : (points.map f).sum = middle * points.length := by rw [middle_eq, div_mul_cancel₀ _ count]
  have none : (points.map fun p => (f p - middle) ^ 2).sum = 0 := by
    apply mul_left_cancel₀ count
    rw [comoment, whole] at still
    rw [sum_sq_sub, whole]
    linear_combination still
  exact sub_eq_zero.mp (sum_sq_eq_zero_iff.mp none p member)

end Comoments

section Level

variable {a b c : ℝ} {points : List (Point ℝ)} (level : ∀ p ∈ points, a * p.x - b * p.y = c)
include level

theorem weighted_level (weight : Point ℝ → ℝ) :
    a * (points.map fun p => weight p * p.x).sum - b * (points.map fun p => weight p * p.y).sum =
      c * (points.map weight).sum := by
  induction points with
  | nil => simp
  | cons p points ih =>
    obtain ⟨head, tail⟩ := List.forall_mem_cons.mp level
    simp only [List.map_cons, List.sum_cons]
    linear_combination ih tail + weight p * head

theorem sum_level : a * (points.map Point.x).sum - b * (points.map Point.y).sum = c * points.length := by
  simpa using weighted_level level fun _ => 1

private theorem comoment_level (f : Point ℝ → ℝ) :
    a * comoment f Point.x points = b * comoment f Point.y points := by
  have own := weighted_level level f
  have plain := sum_level level
  simp only [comoment]
  linear_combination points.length * own - (points.map f).sum * plain

private theorem level_mean {p : Point ℝ} (member : p ∈ points) :
    (a * (points.map Point.x).sum - b * (points.map Point.y).sum) / points.length = a * p.x - b * p.y := by
  have count : (points.length : ℝ) ≠ 0 := by simpa using List.ne_nil_of_mem member
  rw [sum_level level, mul_div_cancel_right₀ _ count, level p member]

end Level

namespace Line

variable {x y slope : ℝ} {p : Point ℝ}

theorem contains_flat : (ofCoords 0 y 1 (y + slope)).Contains p ↔ p.y = y + slope * p.x := by
  simp [Contains, ofCoords, along, Point.eq_iff, Point.scale]

theorem contains_steep : (ofCoords x 0 (x + slope) 1).Contains p ↔ p.x = x + slope * p.y := by
  simp [Contains, ofCoords, along, Point.eq_iff, Point.scale]

theorem contains_upright : (ofCoords x y x (y + 1)).Contains p ↔ p.x = x := by
  constructor
  · rintro ⟨r, rfl⟩
    simp [ofCoords, along, Point.scale]
  · intro same
    exact ⟨p.y - y, by simp [ofCoords, along, Point.eq_iff, Point.scale, same]⟩

theorem sum_side (l : Line ℝ) (points : List (Point ℝ)) :
    (points.map l.side).sum = ((points.map Point.x).sum - points.length * l.p0.x) * l.vector.y -
      ((points.map Point.y).sum - points.length * l.p0.y) * l.vector.x := by
  induction points with
  | nil => simp
  | cons p points ih =>
    simp only [List.map_cons, List.sum_cons, List.length_cons, Nat.cast_succ, ih, side]
    ring

end Line

theorem leastSquares_distinct (points : List (Point ℝ)) : (leastSquares points).p0 ≠ (leastSquares points).p1 := by
  rw [leastSquares_eq]
  dsimp only
  split_ifs
  · intro same
    exact (lt_add_one _).ne (congrArg Point.y same)
  · intro same
    exact zero_ne_one (congrArg Point.y same)
  · intro same
    exact zero_ne_one (congrArg Point.x same)

/-- The fitted line goes through the mean of the points, so that what is on one side of it outweighs nothing. -/
theorem sum_side_leastSquares (points : List (Point ℝ)) : (points.map (leastSquares points).side).sum = 0 := by
  by_cases empty : points = []
  · simp [empty]
  have count : (points.length : ℝ) ≠ 0 := by simpa using empty
  rw [Line.sum_side, leastSquares_eq]
  dsimp only [Line.vector_x, Line.vector_y]
  split_ifs
  all_goals
    simp only [Line.ofCoords]
    field_simp
    ring

theorem Colinear.contains_leastSquares {points : List (Point ℝ)} (colinear : Colinear points) :
    ∀ p ∈ points, (leastSquares points).Contains p := by
  obtain ⟨a, b, c, proper, level⟩ := colinear.exists_level
  intro p member
  have alongX := comoment_level level Point.x
  have alongY := comoment_level level Point.y
  rw [comoment_comm] at alongY
  rw [leastSquares_eq]
  dsimp only
  split_ifs with steep still
  -- All coincide: with a slope over the first axis there would be one over the second.
  · rw [Line.contains_upright]
    apply eq_mean_of_comoment_self _ p member
    rcases steep with upright | steep
    · exact upright
    · have varies : comoment Point.x Point.y points ≠ 0 := by
        intro flat
        rw [flat, zero_div, abs_zero] at steep
        exact absurd steep (not_lt.mpr zero_le_one)
      rw [still, mul_zero, mul_eq_zero, or_iff_left varies] at alongY
      rw [alongY, zero_mul, eq_comm, mul_eq_zero, or_iff_left varies] at alongX
      exact absurd ⟨alongY, alongX⟩ proper
  · rw [Line.contains_steep]
    set slope := comoment Point.x Point.y points / comoment Point.y Point.y points with slope_eq
    have proportion : b = a * slope := by
      rw [slope_eq, ← mul_div_assoc, alongY, mul_div_cancel_right₀ _ still]
    have tilted : a ≠ 0 := by
      rintro rfl
      exact proper ⟨rfl, proportion.trans (zero_mul _)⟩
    have level : ∀ q ∈ points, 1 * q.x - slope * q.y = c / a := by
      intro q listed
      rw [← level q listed, proportion]
      field_simp
    linear_combination -level_mean level member
  · rw [Line.contains_flat]
    set slope := comoment Point.x Point.y points / comoment Point.x Point.x points with slope_eq
    have proportion : a = b * slope := by
      rw [slope_eq, ← mul_div_assoc, ← alongX, mul_div_cancel_right₀ _ fun zero => steep (.inl zero)]
    have tilted : b ≠ 0 := by
      rintro rfl
      exact proper ⟨proportion.trans (zero_mul _), rfl⟩
    have level : ∀ q ∈ points, -slope * q.x - (-1) * q.y = -c / b := by
      intro q listed
      rw [← level q listed, proportion]
      field_simp
      ring
    linear_combination -level_mean level member

end PlaneSketch
