import Mathlib.Logic.Function.Iterate
import PlaneSketch.Proofs.Relation.Error
import PlaneSketch.Proofs.Solver.Config
import PlaneSketch.Proofs.Solver.Frame

/-! How a solve ends. It makes passes while the total error is above the tolerance and the limit is not
reached. An error that is no number is neither above the tolerance nor within it, so a solve that meets
one stops there, whatever the limit. -/
namespace PlaneSketch

open Constraint

namespace Relation

private theorem isNaN_totalError {s : Store Float} {relations : List Relation} :
    (totalError s relations).isNaN = true ↔ ∃ r ∈ relations, (Constraint.error s r).isNaN = true := by
  have zero : (-0 : Float).isNaN = false := by decide +kernel
  have parts : ∀ x ∈ relations.map (Constraint.error s), ¬x < 0 := by
    rw [List.forall_mem_map]
    exact fun r _ => r.not_neg_error s
  rw [totalError, Scalar.sum, Binary64.isNaN_foldl_add_iff Scalar.not_neg_neg_zero parts, zero]
  simp

section Passes

variable {α : Type} [Scalar α]

def pass (factor : α) (relations : List Relation) (s : Store α) : Store α :=
  s.correct factor (s.corrections (relations.flatMap (Constraint.deltas s)))

private theorem exists_passes (relations : List Relation) (tolerance factor : α) (limit : Nat) {run : Run α}
    (measured : run.error = totalError run.store relations) :
    let state := fun n => (pass factor relations)^[n] run.store
    let last := relaxAtMost relations tolerance factor limit run
    ∃ n ≤ limit, last.iterations = run.iterations + n ∧ last.store = state n ∧
      last.error = totalError (state n) relations ∧
      (∀ k < n, tolerance < totalError (state k) relations) ∧
      (tolerance < totalError (state n) relations → n = limit) := by
  induction limit generalizing run with
  | zero => exact ⟨0, le_rfl, rfl, rfl, measured, fun _ none => absurd none (Nat.not_lt_zero _), fun _ => rfl⟩
  | succ limit ih =>
    intro state last
    by_cases above : tolerance < run.error
    · let next : Run α := { run with
        store := state 1
        passErrors := totalError (state 1) relations :: run.passErrors }
      have step : last = relaxAtMost relations tolerance factor limit next := by
        simp only [last]
        rw [relaxAtMost, if_pos above, relax_eq]
        rfl
      have again : next.error = totalError next.store relations := rfl
      obtain ⟨n, within, count, store, error, before, stop⟩ := ih again
      have counted : last.iterations = run.iterations + 1 + n := step ▸ count
      refine ⟨n + 1, Nat.succ_le_succ within, by omega, step ▸ store, step ▸ error, ?_, ?_⟩
      · intro k early
        cases k with
        | zero => exact measured ▸ above
        | succ k => exact before k (Nat.lt_of_succ_lt_succ early)
      · exact fun high => congrArg (· + 1) (stop high)
    · have done : last = run := by
        simp only [last]
        rw [relaxAtMost, if_neg above]
      refine ⟨0, Nat.zero_le _, congrArg Run.iterations done, congrArg Run.store done, ?_, ?_, ?_⟩
      · exact done ▸ measured
      · exact fun _ none => absurd none (Nat.not_lt_zero _)
      · exact fun high => absurd (measured ▸ high) above

theorem relax_iterate (factor : α) (relations : List Relation) (s : Store α) (n : Nat) :
    relax factor relations ((pass factor relations)^[n] s) = .ok ((pass factor relations)^[n + 1] s) := by
  rw [relax_eq, Function.iterate_succ_apply']
  rfl

end Passes

end Relation

private theorem Run.result_of_le {α ρ : Type} [Scalar α] [Constraint α ρ] {run : Run α} {config : Config α}
    (within : run.error ≤ config.tolerance) (relations : List ρ) (figureCount : Nat) :
    let report := run.result config relations figureCount
    report.status = .converged ∧ report.converged = true := by
  simp [Run.result, within]

private theorem Run.result_of_not_le {α ρ : Type} [Scalar α] [Constraint α ρ] {run : Run α}
    {config : Config α}
    (without : ¬run.error ≤ config.tolerance) (relations : List ρ) (figureCount : Nat) :
    let report := run.result config relations figureCount
    report.status = .iterationLimitReached ∧ report.converged = false := by
  simp [Run.result, without]

/-- A solve makes as many passes as it reports, on the store with the figures held. -/
theorem solve_passes {α : Type} [Scalar α] (config : Config α) (relations : List Relation)
    (figureCount : Nat) (held : List (Figure Variable)) (damped : Bool) (s : Store α) :
    let solve := solveHolding config relations figureCount held damped s
    let report := solve.result
    let guard := s.guardFor (held.flatMap Figure.toList)
    let state := fun n => (Relation.pass (config.stepFactor damped) relations)^[n] (s.hold guard)
    report.iterations ≤ config.maxIterations ∧ solve.store = (state report.iterations).release guard ∧
      report.error = totalError (state report.iterations) relations ∧
      (∀ n < report.iterations, config.tolerance < totalError (state n) relations) ∧
      (config.tolerance < report.error → report.iterations = config.maxIterations) := by
  intro solve report guard state
  let start : Run α := ⟨s.hold guard, totalError (s.hold guard) relations, [], none⟩
  have initial : start.error = totalError start.store relations := rfl
  obtain ⟨n, within, count, store, measured, before, stop⟩ :=
    Relation.exists_passes relations config.tolerance (config.stepFactor damped) config.maxIterations initial
  have passes : report.iterations = n := count.trans (Nat.zero_add n)
  rw [passes]
  exact ⟨within, congrArg (Store.release · guard) store, measured, before, fun high => stop (measured ▸ high)⟩

/-- A solve makes as many passes as it reports, each while the total error is above the tolerance, and
leaves the values that the last of them ended with. If no relation has an error that is no number then,
either the error is within tolerance, or it is above it and the limit is reached. Otherwise the solve
reports the limit, reached or not. -/
theorem solve_ends {config : Config Float} (valid : config.validate = .ok ()) (relations : List Relation)
    (figureCount : Nat) (held : List (Figure Variable)) (damped : Bool) (s : Store Float) :
    let solve := solveHolding config relations figureCount held damped s
    let report := solve.result
    let factor := config.stepFactor damped
    let guard := s.guardFor (held.flatMap Figure.toList)
    let state := fun n => (Relation.pass factor relations)^[n] (s.hold guard)
    let last := state report.iterations
    solve.fault = none ∧
      report.iterations ≤ config.maxIterations ∧
      (∀ n < report.iterations, relax factor relations (state n) = .ok (state (n + 1)) ∧
        config.tolerance < totalError (state n) relations) ∧
      solve.store = last.release guard ∧ (∀ i, solve.store.valueAt i = last.valueAt i) ∧
      report.error = totalError last relations ∧
      ((∀ r ∈ relations, (error last r).isNaN = false) →
        (report.status = .converged ∧ report.converged = true ∧ report.error ≤ config.tolerance) ∨
          (report.status = .iterationLimitReached ∧ report.converged = false ∧
            config.tolerance < report.error ∧ report.iterations = config.maxIterations)) ∧
      ((∃ r ∈ relations, (error last r).isNaN = true) →
        report.status = .iterationLimitReached ∧ report.converged = false ∧
          report.error.isNaN = true) := by
  intro solve report factor guard state last
  obtain ⟨within, left, sum, before, stop⟩ : report.iterations ≤ config.maxIterations ∧
      solve.store = last.release guard ∧ report.error = totalError last relations ∧
      (∀ n < report.iterations, config.tolerance < totalError (state n) relations) ∧
      (config.tolerance < report.error → report.iterations = config.maxIterations) :=
    solve_passes config relations figureCount held damped s
  have undecided : report.error.isNaN = true ↔ ∃ r ∈ relations, (error last r).isNaN = true :=
    sum ▸ Relation.isNaN_totalError
  have failed : ¬report.error ≤ config.tolerance →
      report.status = .iterationLimitReached ∧ report.converged = false :=
    fun without => Run.result_of_not_le without relations figureCount
  refine ⟨Relation.fault_relaxAtMost .., within, ?_, left, ?_, sum, ?_, ?_⟩
  · exact fun k early => ⟨Relation.relax_iterate factor relations _ k, before k early⟩
  · intro i
    rw [left, Store.valueAt_release]
  · intro numbers
    have number : report.error.isNaN = false := by
      rw [← Bool.not_eq_true, undecided]
      rintro ⟨r, related, other⟩
      exact Bool.false_ne_true ((numbers r related).symm.trans other)
    obtain ⟨-, -, tolerance, -⟩ := Config.validate_eq_ok.mp valid
    rcases Binary64.le_or_lt number (Binary64.isNaN_of_le tolerance).2 with low | high
    · obtain ⟨status, converged⟩ := Run.result_of_le low relations figureCount
      exact .inl ⟨status, converged, low⟩
    · obtain ⟨status, converged⟩ := failed fun low => Binary64.not_lt_of_le low high
      exact .inr ⟨status, converged, high, stop high⟩
  · intro other
    have other := undecided.mpr other
    obtain ⟨status, converged⟩ := failed fun low =>
      Bool.false_ne_true ((Binary64.isNaN_of_le low).1.symm.trans other)
    exact ⟨status, converged, other⟩

section Runs

def freeStore (values : List Float) : Store Float :=
  ⟨(values.map fun value => ⟨value, false⟩).toArray, Array.range values.length⟩

def hurried : Config Float := { Config.standard with maxIterations := 1 }

theorem solve_hurried_ends :
    let report := (solveHolding hurried [Relation.equalValues [⟨0⟩, ⟨1⟩]] 0 [] false (freeStore [0, 8])).result
    hurried.validate = .ok () ∧ report.status = .iterationLimitReached ∧ report.converged = false ∧
      hurried.tolerance < report.error ∧ report.iterations = 1 := by
  intro report
  have valid : hurried.validate = .ok () := Config.validate_eq_ok.mpr (by decide +kernel)
  obtain ⟨-, -, -, -, -, -, ends, -⟩ :=
    solve_ends valid [Relation.equalValues [⟨0⟩, ⟨1⟩]] 0 [] false (freeStore [0, 8])
  rcases ends (by decide +kernel) with ⟨-, -, low⟩ | limit
  · exact absurd low (by decide +kernel)
  · exact ⟨valid, limit⟩

/-- The length of the first line is no double, so that it is no number by how much the second one
differs from it. The solve stops before the first of a thousand passes. -/
theorem solve_vast_lines :
    let lines : List (Line Variable) := [⟨⟨⟨0⟩, ⟨1⟩⟩, ⟨⟨2⟩, ⟨3⟩⟩⟩, ⟨⟨⟨4⟩, ⟨5⟩⟩, ⟨⟨6⟩, ⟨7⟩⟩⟩]
    let config : Config Float := Config.standard
    let s := freeStore [0, 0, 1e200, 0, 0, 1, 1, 1]
    let report := (solveHolding config [Relation.equalLength lines] 2 [] false s).result
    (∀ cell ∈ s.cells, cell.value.isFinite = true) ∧ config.validate = .ok () ∧
      report.status = .iterationLimitReached ∧ ¬config.tolerance < report.error ∧
      report.iterations = 0 ∧ report.iterations ≠ config.maxIterations := by
  intro lines config s report
  have valid : config.validate = .ok () := Config.validate_eq_ok.mpr (by decide +kernel)
  refine ⟨by decide +kernel, valid, ?_⟩
  decide +kernel

end Runs

end PlaneSketch
