import PlaneSketch.Proofs.Exact
import PlaneSketch.Geometry.Vector

/-! Points of the exact plane: their coordinates, midpoints, distances and directions. -/
namespace PlaneSketch.Point

theorem eq_iff {κ : Type} {p q : Point κ} : p = q ↔ p.x = q.x ∧ p.y = q.y := by
  cases p
  cases q
  rw [mk.injEq]

section Coordinates

variable {α : Type} [Scalar α] (p q : Point α) (k : α)

@[simp] theorem add_x : (p + q).x = p.x + q.x := rfl

@[simp] theorem add_y : (p + q).y = p.y + q.y := rfl

@[simp] theorem sub_x : (p - q).x = p.x - q.x := rfl

@[simp] theorem sub_y : (p - q).y = p.y - q.y := rfl

@[simp] theorem scale_x : (p.scale k).x = p.x * k := rfl

@[simp] theorem scale_y : (p.scale k).y = p.y * k := rfl

@[simp] theorem reflect_x (pivot : Point α) : (p.reflect pivot).x = pivot.x * 2 - p.x := rfl

@[simp] theorem reflect_y (pivot : Point α) : (p.reflect pivot).y = pivot.y * 2 - p.y := rfl

end Coordinates

variable (v p q : Point ℝ) (r : ℝ)

theorem coincides_real {p q : Point ℝ} : p.coincides q = true ↔ p = q := by
  rw [coincides, Scalar.beq_real, Scalar.beq_real, Bool.and_eq_true, decide_eq_true_eq, decide_eq_true_eq,
    eq_iff]

theorem add_scale_zero : p + v.scale 0 = p := by
  simp [eq_iff]

theorem sub_scale_zero : p - v.scale 0 = p := by
  simp [eq_iff]

@[simp] theorem midpoint_x : (p.midpoint q).x = (p.x + q.x) / 2 := by
  simp [midpoint, mean, divide, origin]

@[simp] theorem midpoint_y : (p.midpoint q).y = (p.y + q.y) / 2 := by
  simp [midpoint, mean, divide, origin]

private theorem foldl_add (points : List (Point ℝ)) (p : Point ℝ) :
    points.foldl (· + ·) p = ⟨p.x + (points.map Point.x).sum, p.y + (points.map Point.y).sum⟩ := by
  induction points generalizing p with
  | nil => simp
  | cons q points ih =>
    rw [List.foldl_cons, ih, add_x, add_y]
    simp only [List.map_cons, List.sum_cons, add_assoc]

theorem mean_eq_sums {points : List (Point ℝ)} (nonempty : points ≠ []) :
    mean points = ⟨(points.map Point.x).sum / points.length, (points.map Point.y).sum / points.length⟩ := by
  rw [mean, if_neg (by simpa using nonempty), foldl_add]
  simp [divide, origin]

theorem distance_eq : p.distance q = √((p.x - q.x) ^ 2 + (p.y - q.y) ^ 2) := by
  rw [sq, sq]
  rfl

theorem norm_eq : v.norm = √(v.x ^ 2 + v.y ^ 2) := by
  rw [sq, sq]
  rfl

theorem norm_nonneg : 0 ≤ v.norm := Real.sqrt_nonneg _

theorem norm_sq : v.norm ^ 2 = v.x ^ 2 + v.y ^ 2 := by
  rw [norm_eq, Real.sq_sqrt (by positivity)]

theorem norm_eq_zero : v.norm = 0 ↔ v.x = 0 ∧ v.y = 0 := by
  rw [← sq_eq_zero_iff, norm_sq, add_eq_zero_iff_of_nonneg (sq_nonneg _) (sq_nonneg _), sq_eq_zero_iff,
    sq_eq_zero_iff]

theorem norm_sub_comm : (q - p).norm = p.distance q := by
  rw [norm_eq, distance_eq]
  congr 1
  simp only [sub_x, sub_y]
  ring

theorem distance_comm : q.distance p = p.distance q := norm_sub_comm p q

theorem distance_nonneg : 0 ≤ p.distance q := norm_nonneg _

variable {p q} in
theorem distance_eq_zero : p.distance q = 0 ↔ p = q := by
  rw [← norm_sub_comm, norm_eq_zero, sub_x, sub_y, sub_eq_zero, sub_eq_zero, eq_iff, eq_comm, @eq_comm _ q.y]

theorem direction_eq : v.direction = if v.norm = 0 then ⟨0, 1⟩ else ⟨v.x / v.norm, v.y / v.norm⟩ := by
  simp [direction, divide]

private theorem norm_direction : v.direction.norm = 1 := by
  rw [direction_eq]
  split
  case isTrue => simp [norm_eq]
  case isFalse long =>
    rw [norm_eq, div_pow, div_pow, ← add_div, ← norm_sq, div_self (pow_ne_zero 2 long), Real.sqrt_one]

theorem direction_sq : v.direction.x ^ 2 + v.direction.y ^ 2 = 1 := by
  rw [← norm_sq, norm_direction, one_pow]

theorem direction_scale_norm : v.direction.scale v.norm = v := by
  rw [direction_eq, eq_iff]
  split
  case isTrue none =>
    obtain ⟨x, y⟩ := v.norm_eq_zero.mp none
    simp [none, x, y]
  case isFalse long => exact ⟨div_mul_cancel₀ _ long, div_mul_cancel₀ _ long⟩

theorem distance_toward : p.distance (p.toward q r) = |r| := by
  rw [distance_eq, ← Real.sqrt_sq_eq_abs]
  congr 1
  simp only [toward, add_x, add_y, scale_x, scale_y]
  linear_combination r ^ 2 * direction_sq (q - p)

theorem toward_distance : p.toward q (p.distance q) = q := by
  have back := (q - p).direction_scale_norm
  rw [norm_sub_comm, eq_iff] at back
  rw [eq_iff, toward]
  exact ⟨by rw [add_x, back.1, sub_x, add_sub_cancel], by rw [add_y, back.2, sub_y, add_sub_cancel]⟩

end PlaneSketch.Point
