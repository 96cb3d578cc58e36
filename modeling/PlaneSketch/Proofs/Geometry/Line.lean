import PlaneSketch.Proofs.Geometry.Vector
import PlaneSketch.Geometry.Line

/-! Lines of the exact plane: which points are on them, and how far the others are away. -/
namespace PlaneSketch

namespace Line

theorem eq_iff {κ : Type} {l m : Line κ} : l = m ↔ l.p0 = m.p0 ∧ l.p1 = m.p1 := by
  cases l
  cases m
  rw [mk.injEq]

/-- The point is on the infinite line. A line without length has one point only. -/
def Contains (l : Line ℝ) (p : Point ℝ) : Prop := ∃ r, p = l.along r

/-- The cross product of the way to a point and the way along the line, zero for points of the line. -/
noncomputable def side (l : Line ℝ) (p : Point ℝ) : ℝ :=
  (p.x - l.p0.x) * l.vector.y - (p.y - l.p0.y) * l.vector.x

section Coordinates

variable {α : Type} [Scalar α] (l : Line α) (r : α)

@[simp] theorem vector_x : l.vector.x = l.p1.x - l.p0.x := rfl

@[simp] theorem vector_y : l.vector.y = l.p1.y - l.p0.y := rfl

@[simp] theorem along_x : (l.along r).x = l.p0.x + (l.p1.x - l.p0.x) * r := rfl

@[simp] theorem along_y : (l.along r).y = l.p0.y + (l.p1.y - l.p0.y) * r := rfl

end Coordinates

variable {l : Line ℝ} {p : Point ℝ}

theorem norm_vector (l : Line ℝ) : l.vector.norm = l.length := Point.norm_sub_comm _ _

theorem length_sq (l : Line ℝ) : l.length ^ 2 = l.vector.x ^ 2 + l.vector.y ^ 2 := by
  rw [← norm_vector, Point.norm_sq]

theorem length_nonneg (l : Line ℝ) : 0 ≤ l.length := Point.distance_nonneg _ _

theorem length_pos (distinct : l.p0 ≠ l.p1) : 0 < l.length :=
  lt_of_le_of_ne l.length_nonneg fun none => distinct (Point.distance_eq_zero.mp none.symm)

theorem along_of_eq (same : l.p0 = l.p1) (r : ℝ) : l.along r = l.p0 := by
  rw [Point.eq_iff, along_x, along_y, ← same, sub_self, sub_self, zero_mul, add_zero, add_zero]
  exact ⟨rfl, rfl⟩

theorem contains_of_eq (same : l.p0 = l.p1) : l.Contains p ↔ p = l.p0 := by
  simp only [Contains, along_of_eq same, exists_const]

theorem side_along (l : Line ℝ) (r : ℝ) : l.side (l.along r) = 0 := by
  rw [side, along_x, along_y, vector_x, vector_y]
  ring

theorem side_congr {q : Point ℝ} (x : p.x = q.x ∨ l.p0.y = l.p1.y) (y : p.y = q.y ∨ l.p0.x = l.p1.x) :
    l.side p = l.side q := by
  rw [side, side, vector_x, vector_y]
  rcases x with x | level <;> rcases y with y | upright
  · rw [x, y]
  · rw [x, upright, sub_self, mul_zero, mul_zero]
  · rw [level, y, sub_self, mul_zero, mul_zero]
  · rw [level, upright, sub_self, sub_self, mul_zero, mul_zero, mul_zero, mul_zero]

theorem project_eq_along (l : Line ℝ) (p : Point ℝ) : l.project p = l.along (l.factor p) := by
  rw [project, Scalar.isNaN_real, if_neg Bool.false_ne_true]

theorem exists_project (l : Line ℝ) (p : Point ℝ) : ∃ r, l.project p = l.along r :=
  ⟨_, l.project_eq_along p⟩

theorem project_of_eq (same : l.p0 = l.p1) (p : Point ℝ) : l.project p = l.p0 := by
  obtain ⟨r, along⟩ := l.exists_project p
  rw [along, along_of_eq same]

private theorem factor_eq (distinct : l.p0 ≠ l.p1) (p : Point ℝ) :
    l.factor p = ((p.x - l.p0.x) * l.vector.x + (p.y - l.p0.y) * l.vector.y) / l.length ^ 2 := by
  have long := pow_ne_zero 2 (length_pos distinct).ne'
  simp only [factor, Point.coincides_real]
  split
  case isTrue first =>
    subst first
    simp
  case isFalse =>
    split
    case isTrue last =>
      subst last
      rw [← vector_x, ← vector_y, ← sq, ← sq, ← length_sq, div_self long, Scalar.numeral_one]
    case isFalse =>
      rw [length_sq]
      simp only [Point.normSquared, Point.dot, Point.sub_x, Point.sub_y, vector_x, vector_y]
      congr 1
      · ring
      · ring

private theorem project_eq (distinct : l.p0 ≠ l.p1) (p : Point ℝ) :
    l.project p =
      l.along (((p.x - l.p0.x) * l.vector.x + (p.y - l.p0.y) * l.vector.y) / l.length ^ 2) := by
  rw [project_eq_along, factor_eq distinct]

theorem sub_project (distinct : l.p0 ≠ l.p1) (p : Point ℝ) :
    p.x - (l.project p).x = l.side p * l.vector.y / l.length ^ 2 ∧
      p.y - (l.project p).y = -(l.side p * l.vector.x) / l.length ^ 2 := by
  have long := pow_ne_zero 2 (length_pos distinct).ne'
  have square := l.length_sq
  rw [project_eq distinct, along_x, along_y, side]
  rw [vector_x, vector_y] at *
  generalize l.length ^ 2 = area at *
  constructor
  · field_simp
    linear_combination (p.x - l.p0.x) * square
  · field_simp
    linear_combination (p.y - l.p0.y) * square

theorem project_of_side (distinct : l.p0 ≠ l.p1) (level : l.side p = 0) : l.project p = p := by
  obtain ⟨x, y⟩ := sub_project distinct p
  rw [level, zero_mul, zero_div, sub_eq_zero] at x
  rw [level, zero_mul, neg_zero, zero_div, sub_eq_zero] at y
  exact Point.eq_iff.mpr ⟨x.symm, y.symm⟩

theorem project_eq_self : l.project p = p ↔ l.Contains p := by
  constructor
  · intro same
    obtain ⟨r, along⟩ := l.exists_project p
    exact ⟨r, same.symm.trans along⟩
  · rintro ⟨r, rfl⟩
    by_cases same : l.p0 = l.p1
    · rw [project_of_eq same, along_of_eq same]
    · exact project_of_side same (l.side_along r)

theorem contains_iff_side (distinct : l.p0 ≠ l.p1) : l.Contains p ↔ l.side p = 0 := by
  constructor
  · rintro ⟨r, rfl⟩
    exact l.side_along r
  · intro level
    exact project_eq_self.mp (project_of_side distinct level)

theorem project_x_eq (distinct : l.p0 ≠ l.p1) : p.x = (l.project p).x ↔ l.Contains p ∨ l.p0.y = l.p1.y := by
  obtain ⟨x, -⟩ := sub_project distinct p
  have long := pow_ne_zero 2 (length_pos distinct).ne'
  rw [← sub_eq_zero, x, div_eq_zero_iff, or_iff_left long, mul_eq_zero, contains_iff_side distinct,
    vector_y, sub_eq_zero, eq_comm (a := l.p1.y)]

theorem project_y_eq (distinct : l.p0 ≠ l.p1) : p.y = (l.project p).y ↔ l.Contains p ∨ l.p0.x = l.p1.x := by
  obtain ⟨-, y⟩ := sub_project distinct p
  have long := pow_ne_zero 2 (length_pos distinct).ne'
  rw [← sub_eq_zero, y, div_eq_zero_iff, or_iff_left long, neg_eq_zero, mul_eq_zero,
    contains_iff_side distinct, vector_x, sub_eq_zero, eq_comm (a := l.p1.x)]

theorem distance_eq_zero : l.distance p = 0 ↔ l.Contains p := by
  rw [distance, Point.distance_eq_zero, eq_comm, project_eq_self]

theorem distance_eq (distinct : l.p0 ≠ l.p1) (p : Point ℝ) : l.distance p = |l.side p| / l.length := by
  have positive := length_pos distinct
  have square : l.length ^ 2 = l.vector.y ^ 2 + l.vector.x ^ 2 := l.length_sq.trans (add_comm _ _)
  obtain ⟨x, y⟩ := sub_project distinct p
  have squares : l.distance p ^ 2 = (|l.side p| / l.length) ^ 2 := by
    calc l.distance p ^ 2 = (p.x - (l.project p).x) ^ 2 + (p.y - (l.project p).y) ^ 2 := Point.norm_sq _
      _ = l.side p ^ 2 * (l.vector.y ^ 2 + l.vector.x ^ 2) / (l.length ^ 2) ^ 2 := by rw [x, y]; ring
      _ = (|l.side p| / l.length) ^ 2 := by
        rw [← square, div_pow, sq_abs]
        field_simp
  exact (sq_eq_sq₀ (Point.distance_nonneg _ _) (by positivity)).mp squares

end Line

/-- There is a line that all the points are on. -/
def Colinear (points : List (Point ℝ)) : Prop :=
  ∃ l : Line ℝ, l.p0 ≠ l.p1 ∧ ∀ p ∈ points, l.Contains p

namespace Colinear

variable {points : List (Point ℝ)}

theorem exists_level (colinear : Colinear points) :
    ∃ a b c : ℝ, ¬(a = 0 ∧ b = 0) ∧ ∀ p ∈ points, a * p.x - b * p.y = c := by
  obtain ⟨l, distinct, on⟩ := colinear
  refine ⟨l.vector.y, l.vector.x, l.vector.y * l.p0.x - l.vector.x * l.p0.y, ?_, ?_⟩
  · rintro ⟨y, x⟩
    rw [Line.vector_y, sub_eq_zero] at y
    rw [Line.vector_x, sub_eq_zero] at x
    exact distinct (Point.eq_iff.mpr ⟨x.symm, y.symm⟩)
  · intro p member
    have level := (Line.contains_iff_side distinct).mp (on p member)
    rw [Line.side] at level
    linear_combination level

theorem contains (colinear : Colinear points) {p q : Point ℝ} (first : p ∈ points) (second : q ∈ points)
    (distinct : p ≠ q) : ∀ r ∈ points, Line.Contains ⟨p, q⟩ r := by
  obtain ⟨a, b, c, proper, level⟩ := colinear.exists_level
  intro r member
  have here := level r member
  have from_p := level p first
  have from_q := level q second
  rw [Line.contains_iff_side distinct, Line.side, Line.vector_x, Line.vector_y]
  rw [not_and_or] at proper
  rcases proper with tilted | tilted
  · apply mul_left_cancel₀ tilted
    linear_combination (q.y - p.y) * (here - from_p) - (r.y - p.y) * (from_q - from_p)
  · apply mul_left_cancel₀ tilted
    linear_combination (q.x - p.x) * (here - from_p) - (r.x - p.x) * (from_q - from_p)

end Colinear

end PlaneSketch
