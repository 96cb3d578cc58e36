import PlaneSketch.Proofs.Binary64.Order
import PlaneSketch.Proofs.Success
import PlaneSketch.Solver.Config

/-! When settings pass, and that they are finite then. -/
namespace PlaneSketch

namespace Config

section Valid

variable {α : Type} [Scalar α] {c : Config α}

private theorem checkFactor_eq_ok {which : StepFactor} {factor : α} :
    checkFactor which factor = .ok () ↔ 0 < factor ∧ factor < 1 := by
  rw [checkFactor]
  split
  case isTrue between => simp [between]
  case isFalse outside => simp [outside]

theorem validate_eq_ok : c.validate = .ok () ↔
    (0 < c.relaxation ∧ c.relaxation < 1) ∧ (0 < c.dampedRelaxation ∧ c.dampedRelaxation < 1) ∧
      0 ≤ c.tolerance ∧ Scalar.isFinite c.tolerance = true := by
  rw [← checkFactor_eq_ok, ← checkFactor_eq_ok, validate]
  cases checkFactor .relaxation c.relaxation with
  | error _ => simp
  | ok _ =>
    cases checkFactor .dampedRelaxation c.dampedRelaxation with
    | error _ => simp
    | ok _ =>
      rw [ok_bind, ok_bind]
      split
      case isTrue tolerance => simp [tolerance]
      case isFalse outside => simp [outside]

theorem stepFactor_of_validate (valid : c.validate = .ok ()) (damped : Bool) :
    0 < c.stepFactor damped ∧ c.stepFactor damped < 1 := by
  obtain ⟨relaxation, dampedRelaxation, -⟩ := validate_eq_ok.mp valid
  cases damped with
  | false => exact relaxation
  | true => exact dampedRelaxation

end Valid

theorem finite_of_validate {c : Config Float} (valid : c.validate = .ok ()) :
    c.tolerance.isFinite = true ∧ c.relaxation.isFinite = true ∧ c.dampedRelaxation.isFinite = true := by
  obtain ⟨relaxation, damped, tolerance⟩ := validate_eq_ok.mp valid
  exact ⟨tolerance.2, Binary64.isFinite_of_between relaxation.1 relaxation.2,
    Binary64.isFinite_of_between damped.1 damped.2⟩

end Config

end PlaneSketch
