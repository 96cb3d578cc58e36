import PlaneSketch.Proofs.Geometry.Vector
import PlaneSketch.Proofs.Solver.Config
import PlaneSketch.Proofs.Solver.Pass

/-! What relaxation makes of a single midpoint relation, in exact numbers. The point and both ends of
the line move at once, so that a pass with step factor `f` scales the way from the midpoint to the
point by `1 - 3 * f`. -/
namespace PlaneSketch

open Related Constraint

namespace Config

theorem validate_real {c : Config ℝ} : c.validate = .ok () ↔
    (0 < c.relaxation ∧ c.relaxation < 1) ∧ (0 < c.dampedRelaxation ∧ c.dampedRelaxation < 1) ∧
      0 ≤ c.tolerance := by
  rw [validate_eq_ok]
  simp

theorem standard_real : (standard : Config ℝ) = ⟨1000, 1 / 1000000000, 1 / 2, 1 / 10⟩ := by
  simp [standard]

end Config

namespace Relation

variable {s : Store ℝ} {point : Point Variable} {line : Line Variable} {factor : ℝ}

/-- The way from the midpoint of two variables to a third one. -/
noncomputable def offset (s : Store ℝ) (v v0 v1 : Variable) : ℝ := s.value v - (s.value v0 + s.value v1) / 2

theorem error_midpoint (s : Store ℝ) (point : Point Variable) (line : Line Variable) :
    Constraint.error s (Relation.midpoint point line) =
      √(offset s point.x line.p0.x line.p1.x ^ 2 + offset s point.y line.p0.y line.p1.y ^ 2) := by
  change (s.point point).distance ((s.line line).p0.midpoint (s.line line).p1) = _
  rw [Point.distance_eq, Point.midpoint_x, Point.midpoint_y]
  rfl

private theorem stepOf_single (factor amount : ℝ) : Store.stepOf factor [amount] = factor * amount := by
  simp [Store.stepOf]

private theorem deltas_midpoint (s : Store ℝ) (point : Point Variable) (line : Line Variable) :
    Constraint.deltas s (Relation.midpoint point line) =
      [⟨point.x, (s.value line.p0.x + s.value line.p1.x) / 2 - s.value point.x⟩,
        ⟨point.y, (s.value line.p0.y + s.value line.p1.y) / 2 - s.value point.y⟩,
        ⟨line.p1.x, s.value point.x * 2 - s.value line.p0.x - s.value line.p1.x⟩,
        ⟨line.p1.y, s.value point.y * 2 - s.value line.p0.y - s.value line.p1.y⟩,
        ⟨line.p0.x, s.value point.x * 2 - s.value line.p1.x - s.value line.p0.x⟩,
        ⟨line.p0.y, s.value point.y * 2 - s.value line.p1.y - s.value line.p0.y⟩] := by
  simp [Constraint.deltas, deltas, Delta.towardPoint, Delta.toward, Store.point, Store.line, Line.map,
    Point.map]

private theorem offset_moved {t : Store ℝ} {v v0 v1 : Variable}
    (point : t.value v = s.value v + factor * ((s.value v0 + s.value v1) / 2 - s.value v))
    (stop : t.value v1 = s.value v1 + factor * (s.value v * 2 - s.value v0 - s.value v1))
    (start : t.value v0 = s.value v0 + factor * (s.value v * 2 - s.value v1 - s.value v0)) :
    offset t v v0 v1 = (1 - 3 * factor) * offset s v v0 v1 := by
  rw [offset, offset, point, start, stop]
  ring

theorem exists_relax_midpoint (untied : s.Untied (owned (Relation.midpoint point line))) (factor : ℝ) :
    ∃ t, relax factor [Relation.midpoint point line] s = .ok t ∧
      t.Untied (owned (Relation.midpoint point line)) ∧
      Constraint.error t (Relation.midpoint point line) =
        |1 - 3 * factor| * Constraint.error s (Relation.midpoint point line) := by
  let deltas := Constraint.deltas s (Relation.midpoint point line)
  let t := s.correct factor (s.corrections deltas)
  have listed : [Relation.midpoint point line].flatMap (Constraint.deltas s) = deltas := List.append_nil _
  -- No two proposals meet in a cell, so that each of the six is the whole step of its variable.
  have step : ∀ delta ∈ deltas, t.value delta.target = s.value delta.target + factor * delta.amount := by
    intro delta member
    rw [← stepOf_single]
    exact (untied.perm (perm_targets (List.cons_ne_nil _ _))).value_relaxed (fun _ _ => rfl) factor member
  simp only [deltas, deltas_midpoint, List.forall_mem_cons] at step
  obtain ⟨pointX, pointY, stopX, stopY, startX, startY, -⟩ := step
  refine ⟨t, by rw [relax_eq, listed], untied.correct _ _, ?_⟩
  rw [error_midpoint, error_midpoint, offset_moved pointX stopX startX, offset_moved pointY stopY startY,
    mul_pow, mul_pow, ← mul_add, Real.sqrt_mul (sq_nonneg _), Real.sqrt_sq_eq_abs]

private theorem totalError_single (s : Store ℝ) (relation : Relation) :
    totalError s [relation] = Constraint.error s relation := by
  simp [totalError, Scalar.sum]

/-- Over a run the error is multiplied by the same number in each pass. -/
theorem error_relaxAtMost_midpoint {tolerance : ℝ} (n : Nat) {run : Run ℝ}
    (untied : run.store.Untied (owned (Relation.midpoint point line)))
    (present : run.error = Constraint.error run.store (Relation.midpoint point line)) :
    ∃ k, (relaxAtMost [Relation.midpoint point line] tolerance factor n run).iterations =
        run.iterations + k ∧
      (relaxAtMost [Relation.midpoint point line] tolerance factor n run).error =
        |1 - 3 * factor| ^ k * run.error := by
  induction n generalizing run with
  | zero => exact ⟨0, rfl, by rw [pow_zero, one_mul]; rfl⟩
  | succ n ih =>
    rw [relaxAtMost]
    split
    case isFalse => exact ⟨0, rfl, by rw [pow_zero, one_mul]⟩
    case isTrue =>
      obtain ⟨t, passed, untied, error⟩ := exists_relax_midpoint untied factor
      rw [passed]
      let next : Run ℝ := { run with
        store := t, passErrors := totalError t [Relation.midpoint point line] :: run.passErrors }
      have latest : next.error = Constraint.error t (Relation.midpoint point line) :=
        totalError_single t _
      obtain ⟨k, iterations, last⟩ := @ih next untied latest
      refine ⟨k + 1, ?_, ?_⟩
      · rw [iterations, ← Nat.add_assoc, Nat.add_right_comm]
        rfl
      · rw [last, latest, error, present, pow_succ, mul_assoc]

private theorem abs_scale_lt_one (positive : 0 < factor) : |1 - 3 * factor| < 1 ↔ factor < 2 / 3 := by
  rw [abs_lt]
  constructor
  · rintro ⟨above, -⟩
    linarith
  · intro below
    constructor <;> linarith

/-- A pass over a free midpoint relation succeeds and multiplies the error by `|1 - 3 * f|`. So under
settings that pass, an error that is there gets smaller exactly if the step factor is below two
thirds; at two thirds it stays and beyond it grows. -/
theorem relax_midpoint (config : Config ℝ) (valid : config.validate = .ok ()) (damped : Bool)
    (untied : s.Untied (owned (Relation.midpoint point line))) :
    let relation := Relation.midpoint point line
    let factor := config.stepFactor damped
    ∃ t, relax factor [relation] s = .ok t ∧ t.Untied (owned relation) ∧
      Constraint.error t relation = |1 - 3 * factor| * Constraint.error s relation ∧
      (0 < Constraint.error s relation →
        (Constraint.error t relation < Constraint.error s relation ↔ factor < 2 / 3)) := by
  intro relation factor
  obtain ⟨t, passed, still, error⟩ := exists_relax_midpoint untied factor
  refine ⟨t, passed, still, error, ?_⟩
  intro present
  have positive : 0 < factor := by simpa using (config.stepFactor_of_validate valid damped).1
  rw [error, mul_lt_iff_lt_one_left present, abs_scale_lt_one positive]

section Above

noncomputable def aboveStore : Store ℝ :=
  ⟨#[⟨0, false⟩, ⟨4, false⟩, ⟨-1, false⟩, ⟨0, false⟩, ⟨1, false⟩, ⟨0, false⟩], #[0, 1, 2, 3, 4, 5]⟩

def abovePoint : Point Variable := ⟨⟨0⟩, ⟨1⟩⟩

def belowLine : Line Variable := ⟨⟨⟨2⟩, ⟨3⟩⟩, ⟨⟨4⟩, ⟨5⟩⟩⟩

theorem aboveStore_untied : aboveStore.Untied (owned (Relation.midpoint abovePoint belowLine)) where
  live := by decide
  free := by
    intro v member
    fin_cases member <;> rfl
  apart := by decide

theorem error_aboveStore : Constraint.error aboveStore (Relation.midpoint abovePoint belowLine) = 4 := by
  have x : offset aboveStore ⟨0⟩ ⟨2⟩ ⟨4⟩ = 0 := by
    change (0 : ℝ) - (-1 + 1) / 2 = 0
    norm_num
  have y : offset aboveStore ⟨1⟩ ⟨3⟩ ⟨5⟩ = 4 := by
    change (4 : ℝ) - (0 + 0) / 2 = 4
    norm_num
  rw [error_midpoint]
  change √(offset aboveStore ⟨0⟩ ⟨2⟩ ⟨4⟩ ^ 2 + offset aboveStore ⟨1⟩ ⟨3⟩ ⟨5⟩ ^ 2) = 4
  rw [x, y, sq, mul_zero, zero_add]
  exact Real.sqrt_sq (by norm_num)

/-- With the standard settings the error is halved. -/
theorem relax_standard_midpoint :
    (Config.standard : Config ℝ).validate = .ok () ∧
      ∃ t, relax (Config.standard.stepFactor false) [Relation.midpoint abovePoint belowLine] aboveStore =
          .ok t ∧
        Constraint.error t (Relation.midpoint abovePoint belowLine) = 2 := by
  have valid : (Config.standard : Config ℝ).validate = .ok () := by
    rw [Config.standard_real, Config.validate_real]
    norm_num
  have half : (Config.standard : Config ℝ).stepFactor false = 1 / 2 := by rw [Config.standard_real]; rfl
  obtain ⟨t, passed, -, error, -⟩ := relax_midpoint Config.standard valid false aboveStore_untied
  refine ⟨valid, t, passed, ?_⟩
  rw [error, error_aboveStore, half]
  norm_num

noncomputable def steepConfig : Config ℝ := ⟨1, 0, 3 / 4, 1 / 10⟩

theorem relax_steep_midpoint :
    steepConfig.validate = .ok () ∧
      aboveStore.Untied (owned (Relation.midpoint abovePoint belowLine)) ∧
      Constraint.error aboveStore (Relation.midpoint abovePoint belowLine) = 4 ∧
      ∃ t, relax (steepConfig.stepFactor false) [Relation.midpoint abovePoint belowLine] aboveStore = .ok t ∧
        Constraint.error t (Relation.midpoint abovePoint belowLine) = 5 := by
  obtain ⟨t, passed, -, error⟩ := exists_relax_midpoint aboveStore_untied (steepConfig.stepFactor false)
  refine ⟨?_, aboveStore_untied, error_aboveStore, t, passed, ?_⟩
  · rw [steepConfig, Config.validate_real]
    norm_num
  · rw [error, error_aboveStore]
    norm_num [steepConfig, Config.stepFactor]

end Above

end Relation

end PlaneSketch
