import PlaneSketch.Proofs.Exact.Outcome
import PlaneSketch.Proofs.Geometry.Line

/-! Segments of the exact plane: the points between the ends of a line, and which of them is nearest to a point.
How far a point of the line is away says Pythagoras, by the factor of the foot of the perpendicular, so that
nearest is the factor of the segment that is nearest to it. -/
namespace PlaneSketch.Line

/-- The point lies between the ends of the line, as a mean of them with weights that are not negative. -/
def Spans (l : Line ℝ) (p : Point ℝ) : Prop :=
  ∃ r, 0 ≤ r ∧ r ≤ 1 ∧ p.x = (1 - r) * l.p0.x + r * l.p1.x ∧ p.y = (1 - r) * l.p0.y + r * l.p1.y

variable {l : Line ℝ} {p q : Point ℝ} {r s : ℝ}

theorem along_zero (l : Line ℝ) : l.along 0 = l.p0 := by
  simp [Point.eq_iff]

theorem along_one (l : Line ℝ) : l.along 1 = l.p1 := by
  simp [Point.eq_iff]

private theorem eq_along : p = l.along r ↔
    p.x = (1 - r) * l.p0.x + r * l.p1.x ∧ p.y = (1 - r) * l.p0.y + r * l.p1.y := by
  have weights : ∀ a b : ℝ, a + (b - a) * r = (1 - r) * a + r * b := fun a b => by ring
  rw [Point.eq_iff, along_x, along_y, weights, weights]

theorem spans_iff : l.Spans p ↔ ∃ r, 0 ≤ r ∧ r ≤ 1 ∧ p = l.along r := by
  simp only [Spans, eq_along]

theorem Spans.contains (on : l.Spans p) : l.Contains p := by
  obtain ⟨r, _, _, along⟩ := spans_iff.mp on
  exact ⟨r, along⟩

theorem spans_p0 (l : Line ℝ) : l.Spans l.p0 := spans_iff.mpr ⟨0, le_rfl, zero_le_one, l.along_zero.symm⟩

theorem spans_p1 (l : Line ℝ) : l.Spans l.p1 := spans_iff.mpr ⟨1, zero_le_one, le_rfl, l.along_one.symm⟩

section Nearest

theorem dot_project (distinct : l.p0 ≠ l.p1) (p : Point ℝ) : (l.project p - p).dot l.vector = 0 := by
  obtain ⟨x, y⟩ := sub_project distinct p
  rw [Point.dot, Point.sub_x, Point.sub_y]
  linear_combination -l.vector.x * x - l.vector.y * y

private theorem distance_along_sq (l : Line ℝ) (p : Point ℝ) (r : ℝ) :
    p.distance (l.along r) ^ 2 = p.distance (l.project p) ^ 2 + ((r - l.factor p) * l.length) ^ 2 := by
  by_cases same : l.p0 = l.p1
  · have short : l.length = 0 := Point.distance_eq_zero.mpr same
    rw [along_of_eq same, project_of_eq same, short, mul_zero, sq 0, mul_zero, add_zero]
  · have upright := dot_project same p
    have square := l.length_sq
    rw [project_eq_along, Point.dot, Point.sub_x, Point.sub_y] at upright
    rw [project_eq_along, mul_pow, square]
    simp only [Point.distance, Point.norm_sq, Point.sub_x, Point.sub_y, along_x, along_y, vector_x, vector_y] at *
    linear_combination 2 * (r - l.factor p) * upright

theorem distance_along_le (p : Point ℝ) (nearer : |r - l.factor p| ≤ |s - l.factor p|) :
    p.distance (l.along r) ≤ p.distance (l.along s) := by
  have factors := mul_le_mul_of_nonneg_right nearer l.length_nonneg
  rw [← abs_of_nonneg l.length_nonneg, ← abs_mul, ← abs_mul] at factors
  apply le_of_sq_le_sq _ (Point.distance_nonneg _ _)
  rw [distance_along_sq, distance_along_sq]
  exact add_le_add_right (sq_le_sq.mpr factors) _

private theorem distance_project_le (p : Point ℝ) (on : l.Contains q) :
    p.distance (l.project p) ≤ p.distance q := by
  obtain ⟨r, rfl⟩ := on
  rw [project_eq_along]
  apply distance_along_le
  rw [sub_self, abs_zero]
  exact abs_nonneg _

/-- The clamped factor is the one of the segment that is nearest to the factor of the foot. -/
theorem exists_projectSegment (l : Line ℝ) (p : Point ℝ) :
    ∃ r, l.projectSegment p = l.along r ∧ 0 ≤ r ∧ r ≤ 1 ∧
      ∀ s, 0 ≤ s → s ≤ 1 → |r - l.factor p| ≤ |s - l.factor p| := by
  simp only [projectSegment, Scalar.isNaN_real, Bool.false_eq_true, or_false, Scalar.numeral_zero,
    Scalar.numeral_one]
  split_ifs with before after
  · refine ⟨0, rfl, le_rfl, zero_le_one, fun s start _ => ?_⟩
    rw [abs_of_nonneg (by linarith), abs_of_nonneg (by linarith)]
    linarith
  · refine ⟨1, rfl, zero_le_one, le_rfl, fun s _ stop => ?_⟩
    rw [abs_of_nonpos (by linarith), abs_of_nonpos (by linarith)]
    linarith
  · refine ⟨l.factor p, rfl, not_lt.mp before, not_lt.mp after, fun s _ _ => ?_⟩
    rw [sub_self, abs_zero]
    exact abs_nonneg _

private theorem spans_projectSegment (l : Line ℝ) (p : Point ℝ) : l.Spans (l.projectSegment p) := by
  obtain ⟨r, along, start, stop, -⟩ := l.exists_projectSegment p
  exact spans_iff.mpr ⟨r, start, stop, along⟩

private theorem distance_projectSegment_le (p : Point ℝ) (on : l.Spans q) :
    p.distance (l.projectSegment p) ≤ p.distance q := by
  obtain ⟨s, start, stop, rfl⟩ := spans_iff.mp on
  obtain ⟨r, along, -, -, nearest⟩ := l.exists_projectSegment p
  rw [along]
  exact distance_along_le p (nearest s start stop)

end Nearest

section Undefined

open Outcome

private theorem coincides_number (p q : Point ℝ) :
    (p.map number).coincides (q.map number) = p.coincides q := by
  simp only [Point.coincides, Point.map, number_beq]

theorem along_number (l : Line ℝ) (r : ℝ) : (l.map number).along (number r) = (l.along r).map number := rfl

theorem factor_number (l : Line ℝ) (p : Point ℝ) :
    (l.map number).factor (p.map number) = number (l.factor p) ∨
      l.p0 = l.p1 ∧ (l.map number).factor (p.map number) = undefined := by
  have first : (l.map number).p0.coincides (p.map number) = l.p0.coincides p := coincides_number _ _
  have last : (l.map number).p1.coincides (p.map number) = l.p1.coincides p := coincides_number _ _
  simp only [factor, first, last]
  split_ifs
  · exact .inl rfl
  · exact .inl rfl
  · set shadow := -((p - l.p0).dot (l.p0 - l.p1))
    set square := (l.p0 - l.p1).normSquared
    change number shadow / number square = number (shadow / square) ∨ _ ∧ number shadow / number square = undefined
    by_cases short : square = 0
    · rw [short, number_div_zero]
      exact .inr ⟨Point.distance_eq_zero.mp (Real.sqrt_eq_zero_of_nonpos short.le), rfl⟩
    · exact .inl (number_div _ short)

private theorem project_number (l : Line ℝ) (p : Point ℝ) :
    (l.map number).project (p.map number) = (l.project p).map number := by
  rw [project]
  rcases l.factor_number p with factor | ⟨same, factor⟩
  · rw [factor, isNaN_number, if_neg Bool.false_ne_true, along_number, project_eq_along]
  · rw [factor, isNaN_undefined, if_pos rfl, zero_number, along_number, along_of_eq same, project_of_eq same]

private theorem projectSegment_number (l : Line ℝ) (p : Point ℝ) :
    (l.map number).projectSegment (p.map number) = (l.projectSegment p).map number := by
  rw [projectSegment]
  rcases l.factor_number p with factor | ⟨same, factor⟩
  · simp only [factor, projectSegment, isNaN_number, Scalar.isNaN_real, zero_number, one_number, number_lt,
      Scalar.numeral_zero, Scalar.numeral_one, along_number]
    split_ifs <;> rfl
  · obtain ⟨r, along, -⟩ := l.exists_projectSegment p
    rw [along, along_of_eq same, factor, if_neg (not_undefined_lt _), if_pos (.inr rfl), one_number, along_number,
      along_of_eq same]

/-- Both projections come to numbers, although the factor of a line without length does not, and to the nearest
points there are. -/
theorem projections_nearest (l : Line ℝ) (p : Point ℝ) :
    ((l.map number).project (p.map number) = (l.project p).map number ∧
      (l.p0 ≠ l.p1 → l.Contains (l.project p) ∧ (l.project p - p).dot l.vector = 0) ∧
      (l.p0 = l.p1 → l.project p = l.p0) ∧
      ∀ q, l.Contains q → p.distance (l.project p) ≤ p.distance q) ∧
    (l.map number).projectSegment (p.map number) = (l.projectSegment p).map number ∧
      l.Spans (l.projectSegment p) ∧
      ∀ q, l.Spans q → p.distance (l.projectSegment p) ≤ p.distance q := by
  refine ⟨⟨project_number l p, ?_, ?_, ?_⟩, projectSegment_number l p, l.spans_projectSegment p, ?_⟩
  · exact fun distinct => ⟨l.exists_project p, dot_project distinct p⟩
  · exact fun same => project_of_eq same p
  · exact fun q on => distance_project_le p on
  · exact fun q on => distance_projectSegment_le p on

end Undefined

end PlaneSketch.Line
