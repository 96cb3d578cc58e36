import PlaneSketch.Proofs.Geometry.Line
import PlaneSketch.Relation

/-! A relation is satisfied exactly if it asks for no change. Errors and proposals are computed by separate
formulas; in exact numbers both say that the points, values or lengths are where the relation wants them. -/
namespace PlaneSketch

namespace Scalar

theorem exists_spread {xs : List ℝ} (nonempty : xs ≠ []) :
    ∃ low ∈ xs, ∃ high ∈ xs, spread xs = high - low ∧ ∀ x ∈ xs, low ≤ x ∧ x ≤ high := by
  obtain ⟨x, rest, rfl⟩ := List.exists_cons_of_ne_nil nonempty
  have upper : (max : ℝ → ℝ → ℝ) = Max.max := funext₂ max_real
  have lower : (min : ℝ → ℝ → ℝ) = Min.min := funext₂ min_real
  have lowest : (x :: rest).min? = some (rest.foldl Min.min x) := List.min?_cons'
  have highest : (x :: rest).max? = some (rest.foldl Max.max x) := List.max?_cons'
  obtain ⟨low, least⟩ := List.min?_eq_some_iff.mp lowest
  obtain ⟨high, most⟩ := List.max?_eq_some_iff.mp highest
  refine ⟨_, low, _, high, ?_, fun y member => ⟨least y member, most y member⟩⟩
  simp [spread, upper, lower]

theorem spread_eq_zero {xs : List ℝ} : spread xs = 0 ↔ ∀ x ∈ xs, ∀ y ∈ xs, x = y := by
  by_cases empty : xs = []
  · simp [empty, spread]
  · obtain ⟨low, first, high, last, spread, between⟩ := exists_spread empty
    rw [spread, sub_eq_zero]
    constructor
    · intro none x here y there
      have x_eq : x = low := le_antisymm ((between x here).2.trans_eq none) (between x here).1
      have y_eq : y = low := le_antisymm ((between y there).2.trans_eq none) (between y there).1
      rw [x_eq, y_eq]
    · intro same
      exact same high last low first

end Scalar

namespace Delta

variable {s : Store ℝ}

def Idle (deltas : List (Delta ℝ)) : Prop := ∀ delta ∈ deltas, delta.amount = 0

theorem idle_append {first second : List (Delta ℝ)} : Idle (first ++ second) ↔ Idle first ∧ Idle second :=
  List.forall_mem_append

private theorem idle_cons {delta : Delta ℝ} {rest : List (Delta ℝ)} :
    Idle (delta :: rest) ↔ delta.amount = 0 ∧ Idle rest :=
  List.forall_mem_cons

theorem amount_toward {v : Variable} {goal : ℝ} : (toward s v goal).amount = 0 ↔ s.value v = goal := by
  rw [toward, sub_eq_zero, eq_comm]

theorem idle_toward {v : Variable} {goal : ℝ} : Idle [toward s v goal] ↔ s.value v = goal := by
  rw [Idle, List.forall_mem_singleton, amount_toward]

theorem idle_towardPoint {p : Point Variable} {goal : Point ℝ} :
    Idle (towardPoint s p goal) ↔ s.point p = goal := by
  have parts : towardPoint s p goal = [toward s p.x goal.x] ++ [toward s p.y goal.y] := rfl
  rw [parts, idle_append, idle_toward, idle_toward, Point.eq_iff]
  rfl

theorem idle_flatMap {κ : Type} {f : κ → List (Delta ℝ)} {ks : List κ} :
    Idle (ks.flatMap f) ↔ ∀ k ∈ ks, Idle (f k) := by
  simp only [Idle, List.mem_flatMap, forall_exists_index, and_imp]
  exact ⟨fun all k member delta => all delta k member, fun all delta k member => all k member delta⟩

end Delta

namespace Relation

open Scalar Delta

variable {s : Store ℝ}

private theorem idle_midpoint {point : Point Variable} {line : Line Variable} :
    Idle (deltas s (.midpoint point line)) ↔
      s.point point = (s.line line).p0.midpoint (s.line line).p1 := by
  rw [deltas, idle_append, idle_append, idle_towardPoint, idle_towardPoint, idle_towardPoint, and_assoc]
  refine and_iff_left_of_imp fun middle => ?_
  change (s.line line).p1 = _ ∧ (s.line line).p0 = _
  rw [middle]
  constructor
  · rw [Point.eq_iff, Point.reflect_x, Point.reflect_y, Point.midpoint_x, Point.midpoint_y]
    constructor <;> ring
  · rw [Point.eq_iff, Point.reflect_x, Point.reflect_y, Point.midpoint_x, Point.midpoint_y]
    constructor <;> ring

theorem mean_eq_of_forall {xs : List ℝ} {x : ℝ} (same : ∀ y ∈ xs, y = x) (nonempty : xs ≠ []) : mean xs = x := by
  have count : (xs.length : ℝ) ≠ 0 := by simpa using nonempty
  have whole : xs.sum = xs.length * x := by
    rw [List.eq_replicate_of_mem same]
    simp
  rw [mean, sum_real, ofNat_real, whole, mul_div_cancel_left₀ _ count]

private theorem idle_equalValues {vs : List Variable} :
    Idle (deltas s (.equalValues vs)) ↔ ∀ x ∈ vs.map s.value, x = mean (vs.map s.value) := by
  simp only [Idle, deltas, List.forall_mem_map, toward, sub_eq_zero, eq_comm (a := mean _)]

theorem idle_colinearPoints {points : List (Point Variable)} (three : ¬points.length < 3) :
    Idle (deltas s (.colinearPoints points)) ↔ ∀ p ∈ points, (s.fittedLine points).Contains (s.point p) := by
  rw [deltas, if_neg three, idle_flatMap]
  simp only [idle_towardPoint, eq_comm (a := s.point _), Line.project_eq_self]

theorem error_colinearPoints {points : List (Point Variable)} (three : ¬points.length < 3) :
    error s (.colinearPoints points) = 0 ↔ ∀ p ∈ points, (s.fittedLine points).Contains (s.point p) := by
  rw [error, if_neg three, sum_eq_zero_iff]
  · simp only [List.forall_mem_map, Line.distance_eq_zero]
  · rw [List.forall_mem_map]
    exact fun p _ => Point.distance_nonneg _ _

private theorem idle_pointOnCircle {point : Point Variable} {circle : Circle Variable} :
    Idle (deltas s (.pointOnCircle point circle)) ↔
      s.value circle.r = (s.circle circle).c.distance (s.point point) := by
  rw [deltas, idle_append, idle_append, idle_towardPoint, idle_towardPoint, idle_toward]
  refine and_iff_right_of_imp fun reached => ?_
  have radius : (s.circle circle).r = (s.circle circle).c.distance (s.point point) := reached
  constructor
  · rw [Circle.project, radius, Point.toward_distance]
  · rw [radius, ← Point.distance_comm, Point.toward_distance]
    rfl

private theorem idle_rescale {half : ℝ} (positive : 0 ≤ half) {line : Line Variable} :
    Idle (rescale s half line) ↔ (s.line line).length = 2 * half := by
  rw [rescale, idle_append, idle_towardPoint, idle_towardPoint]
  change (s.line line).p0 = _ ∧ (s.line line).p1 = _ ↔ _
  generalize s.line line = l
  rw [Point.eq_iff, Point.eq_iff]
  simp only [Point.sub_x, Point.sub_y, Point.add_x, Point.add_y, Point.midpoint_x, Point.midpoint_y,
    Point.scale_x, Point.scale_y]
  constructor
  · rintro ⟨⟨x0, y0⟩, x1, y1⟩
    rw [← sq_eq_sq₀ l.length_nonneg (by positivity), l.length_sq, Line.vector_x, Line.vector_y]
    have x : l.p1.x - l.p0.x = 2 * (l.vector.direction.x * half) := by linear_combination x1 - x0
    have y : l.p1.y - l.p0.y = 2 * (l.vector.direction.y * half) := by linear_combination y1 - y0
    rw [x, y]
    linear_combination 4 * half ^ 2 * l.vector.direction_sq
  · intro length
    have whole := l.vector.direction_scale_norm
    rw [l.norm_vector, length, Point.eq_iff, Point.scale_x, Point.scale_y, Line.vector_x, Line.vector_y] at whole
    obtain ⟨x, y⟩ := whole
    refine ⟨⟨?_, ?_⟩, ?_, ?_⟩
    · linear_combination x / 2
    · linear_combination y / 2
    · linear_combination -x / 2
    · linear_combination -y / 2

theorem mean_nonneg {xs : List ℝ} (parts : ∀ x ∈ xs, 0 ≤ x) : 0 ≤ mean xs := by
  rw [mean, sum_real, ofNat_real]
  exact div_nonneg (List.sum_nonneg parts) (Nat.cast_nonneg _)

theorem mean_length_nonneg (s : Store ℝ) (lines : List (Line Variable)) :
    0 ≤ mean (lines.map fun l => (s.line l).length) := by
  apply mean_nonneg
  rw [List.forall_mem_map]
  exact fun l _ => (s.line l).length_nonneg

private theorem idle_equalLength {lines : List (Line Variable)} :
    Idle (deltas s (.equalLength lines)) ↔
      ∀ l ∈ lines, (s.line l).length = mean (lines.map fun l => (s.line l).length) := by
  have half := div_nonneg (mean_length_nonneg s lines) zero_le_two
  rw [deltas, numeral_ofNat, idle_flatMap]
  simp only [idle_rescale half, mul_div_cancel₀ _ (two_ne_zero (α := ℝ))]

theorem error_equalLength {lines : List (Line Variable)} :
    error s (.equalLength lines) = 0 ↔
      ∀ l ∈ lines, (s.line l).length = mean (lines.map fun l => (s.line l).length) := by
  by_cases none : lines = []
  · simp [none, error]
  · rw [error, if_neg (by simpa using none), sum_eq_zero_iff]
    · simp only [List.forall_mem_map, abs_real, abs_eq_zero, sub_eq_zero]
    · rw [List.forall_mem_map]
      exact fun x _ => abs_nonneg _

private theorem idle_tangentLine {line : Line Variable} {circle : Circle Variable} :
    Idle (deltas s (.tangentLine line circle)) ↔ s.value circle.r = (s.line line).distance (s.circle circle).c := by
  rw [deltas, idle_append, idle_append, idle_cons, amount_toward, idle_towardPoint, idle_towardPoint,
    idle_towardPoint, Point.distance_comm, and_assoc, and_assoc]
  refine and_iff_left_of_imp fun touching => ?_
  have none : (s.circle circle).c.distance ((s.line line).project (s.circle circle).c) - (s.circle circle).r = 0 :=
    sub_eq_zero.mpr touching.symm
  rw [none, Point.sub_scale_zero, Point.add_scale_zero, Point.add_scale_zero]
  exact ⟨rfl, rfl, rfl⟩

/-- A relation has no error exactly if it proposes no change. -/
theorem error_eq_zero_iff_idle (s : Store ℝ) (relation : Relation) :
    Constraint.error s relation = 0 ↔ ∀ delta ∈ Constraint.deltas s relation, delta.amount = 0 := by
  change relation.error s = 0 ↔ Idle (relation.deltas s)
  cases relation with
  | midpoint point line => rw [idle_midpoint, error, Point.distance_eq_zero]
  | equalValues vs =>
    rw [idle_equalValues, error, spread_eq_zero]
    constructor
    · intro same x member
      exact (mean_eq_of_forall (fun y other => same y other x member) (List.ne_nil_of_mem member)).symm
    · intro same x here y there
      rw [same x here, same y there]
  | colinearPoints points =>
    by_cases few : points.length < 3
    · simp [error, deltas, few, Idle]
    · rw [error_colinearPoints few, idle_colinearPoints few]
  | pointOnCircle point circle =>
    rw [idle_pointOnCircle, error, Circle.distance, abs_real, abs_eq_zero, sub_eq_zero, eq_comm]
    rfl
  | equalLength lines => rw [error_equalLength, idle_equalLength]
  | tangentLine line circle =>
    rw [idle_tangentLine, error, Point.distance_comm, abs_real, abs_eq_zero, sub_eq_zero, eq_comm]
    rfl

end Relation

end PlaneSketch
