import PlaneSketch.Proofs.Relation.Error
import PlaneSketch.Proofs.Relation.Steady
import PlaneSketch.Proofs.Solver.Frame

/-! What a report says of the sketch that a solve leaves. The total error is measured while figures are
held, the errors of the relations after they are released. The two agree where holding the figures
puts no points on another line. -/
namespace PlaneSketch

open Constraint

section Statuses

variable {α ρ : Type} [Scalar α] [Constraint α ρ]

private theorem error_relationStatuses (config : Config α) (relations : List ρ) (s : Store α) :
    (relationStatuses config relations s).map RelationStatus.error = relations.map (error s) := by
  have indexed : (relationStatuses config relations s).map RelationStatus.error =
      (relations.zipIdx.map Prod.fst).map (error s) := by
    rw [relationStatuses, List.map_map, List.map_map]
    rfl
  rw [indexed, List.zipIdx_map_fst]

private theorem exists_of_mem_relationStatuses {config : Config α} {relations : List ρ} {s : Store α}
    {status : RelationStatus α} (member : status ∈ relationStatuses config relations s) :
    ∃ r, relations[status.index]? = some r ∧
      (status.satisfied = true ↔ error s r ≤ config.tolerance) := by
  obtain ⟨⟨r, i⟩, listed, rfl⟩ := List.mem_map.mp member
  exact ⟨r, List.mk_mem_zipIdx_iff_getElem?.mp listed, decide_eq_true_iff⟩

private theorem error_relaxAtMost (relations : List ρ) (tolerance factor : α) (n : Nat) {run : Run α}
    (measured : run.error = totalError run.store relations) :
    (relaxAtMost relations tolerance factor n run).error =
      totalError (relaxAtMost relations tolerance factor n run).store relations := by
  induction n generalizing run with
  | zero => exact measured
  | succ n ih =>
    rw [relaxAtMost]
    split
    · split
      · exact measured
      · exact ih rfl
    · exact measured

end Statuses

private theorem error_relaxHolding {α : Type} [Scalar α] (config : Config α) (relations : List Relation)
    (pinned : List Variable) (damped : Bool) (s : Store α) :
    let run := relaxHolding config relations pinned damped s
    run.error = totalError (run.store.hold (run.store.guardFor pinned)) relations := by
  intro run
  let start : Run α :=
    ⟨s.hold (s.guardFor pinned), totalError (s.hold (s.guardFor pinned)) relations, [], none⟩
  have moved := moved_relaxAtMost relations config.tolerance (config.stepFactor damped)
    config.maxIterations start
  have again : run.store.hold (run.store.guardFor pinned) =
      (relaxAtMost relations config.tolerance (config.stepFactor damped) config.maxIterations start).store := by
    obtain ⟨guard, held⟩ := moved.hold_release
    exact (congrArg run.store.hold guard).trans held
  rw [again]
  exact error_relaxAtMost _ _ _ _ rfl

namespace Relation

variable {α : Type} [Scalar α] {s : Store α}

private theorem error_hold (guard : Guard) {relation : Relation} (steady : relation.Steady s (s.hold guard)) :
    Constraint.error (s.hold guard) relation = Constraint.error s relation :=
  error_congr (s.sameNames_hold guard) ((s.sameNames_hold guard).value_congr (s.valueAt_hold guard)) steady

private theorem Steady.moved {t : Store α} {vs pinned : List Variable} {relation : Relation}
    (steady : relation.Steady s (s.hold (s.guardFor pinned))) (moved : Store.Moved vs s t) :
    relation.Steady t (t.hold (t.guardFor pinned)) := by
  have held : Store.SameNames (s.hold (s.guardFor pinned)) (t.hold (t.guardFor pinned)) :=
    (s.sameNames_hold _).symm.trans (moved.names.trans (t.sameNames_hold _))
  apply steady.congr (moved.names.isConstant_congr moved.constants)
  exact held.isConstant_congr (Store.constantAt_hold_congr moved.names moved.constants pinned)

end Relation

namespace Sketch

/-- A solve always reports. The error it reports is that of the sketch it leaves with the figures held
again; the errors of the relations add up to that of the sketch itself. If it reports that it
converged, then every relation whose points are put on no other line by holding the figures is
satisfied; where this goes for all relations, the two errors are one and within tolerance. -/
theorem solve_report (sketch : Sketch Float Relation) (held : List EntityId) (damped : Bool)
    (s : Store Float) :
    let solve := sketch.solve held damped s
    let report := solve.result
    let pinned := (held.filterMap sketch.figure?).flatMap Figure.toList
    let start := s.hold (s.guardFor pinned)
    solve.fault = none ∧
      report.error = sketch.error (solve.store.hold (solve.store.guardFor pinned)) ∧
      Scalar.sum (report.relationErrors.map RelationStatus.error) = sketch.error solve.store ∧
      (report.converged = true → ∀ status ∈ report.relationErrors,
        ∀ r ∈ sketch.relations[status.index]?, r.Steady s start → status.satisfied = true) ∧
      ((∀ r ∈ sketch.relations, r.Steady s start) →
        report.error = Scalar.sum (report.relationErrors.map RelationStatus.error) ∧
          (report.converged = true →
            (∀ status ∈ report.relationErrors, status.satisfied = true) ∧
              sketch.error solve.store ≤ sketch.config.tolerance)) := by
  intro solve report pinned start
  let again := solve.store.hold (solve.store.guardFor pinned)
  have moved : Store.Moved (sketch.relations.flatMap Related.owned) s solve.store :=
    (moved_relaxHolding sketch.config sketch.relations pinned damped s).1
  have measured : report.error = totalError again sketch.relations := error_relaxHolding ..
  have errors : report.relationErrors.map RelationStatus.error =
      sketch.relations.map (Constraint.error solve.store) := error_relationStatuses ..
  have within (converged : report.converged = true) :
      totalError again sketch.relations ≤ sketch.config.tolerance :=
    measured ▸ of_decide_eq_true converged
  have satisfied (converged : report.converged = true) {status : RelationStatus Float}
      (member : status ∈ report.relationErrors) {r : Relation}
      (named : r ∈ sketch.relations[status.index]?) (steady : r.Steady s start) :
      status.satisfied = true := by
    obtain ⟨q, found, satisfied⟩ := exists_of_mem_relationStatuses member
    cases Option.mem_unique named found
    -- No error is below zero, so the bound on their total holds of this one.
    have bound := Relation.error_le_of_totalError_le (within converged) r (List.mem_of_getElem? found)
    rw [Relation.error_hold _ (steady.moved moved)] at bound
    exact satisfied.mpr bound
  refine ⟨Relation.fault_relaxAtMost .., measured, congrArg Scalar.sum errors, ?_, ?_⟩
  · exact fun converged status member r named steady => satisfied converged member named steady
  · intro steady
    have same : totalError again sketch.relations = sketch.error solve.store := by
      have each := List.map_congr_left fun r related => Relation.error_hold _ ((steady r related).moved moved)
      exact congrArg Scalar.sum each
    refine ⟨measured.trans (same.trans (congrArg Scalar.sum errors).symm), fun converged => ⟨?_, ?_⟩⟩
    · intro status member
      obtain ⟨r, found, -⟩ := exists_of_mem_relationStatuses member
      exact satisfied converged member found (steady r (List.mem_of_getElem? found))
    · exact same ▸ within converged

section Risen

def risenPoints : List (Point Variable) := [⟨⟨0⟩, ⟨1⟩⟩, ⟨⟨2⟩, ⟨3⟩⟩, ⟨⟨4⟩, ⟨5⟩⟩, ⟨⟨6⟩, ⟨7⟩⟩]

def risenStore : Store Float :=
  ⟨([-1, 0, 1, 0, 0, 0, 0, 4].map fun value => ⟨value, false⟩).toArray, Array.range 8⟩

def leftId : EntityId := ⟨1⟩

def rightId : EntityId := ⟨2⟩

def risen : Sketch Float Relation where
  entities := [⟨leftId, .point ⟨⟨0⟩, ⟨1⟩⟩⟩, ⟨rightId, .point ⟨⟨2⟩, ⟨3⟩⟩⟩]
  relations := [.colinearPoints risenPoints]
  config := { Config.standard with tolerance := 4 }

theorem solve_report_risen :
    let solve := risen.solve [leftId] false risenStore
    solve.result.iterations = 1 ∧ solve.result.converged = true ∧
      (∀ status ∈ solve.result.relationErrors, status.satisfied = true) ∧ risen.error solve.store ≤ 4 := by
  intro solve
  obtain ⟨passes, converged⟩ : solve.result.iterations = 1 ∧ solve.result.converged = true := by
    decide +kernel
  obtain ⟨-, -, -, -, steady⟩ := solve_report risen [leftId] false risenStore
  obtain ⟨-, holds⟩ := steady (by decide +kernel)
  exact ⟨passes, converged, holds converged⟩

/-- Two points held put the others on the line through them; once they are released, the line fitted
to all four points is further from them. -/
theorem solve_risen_converged :
    let solve := risen.solve [leftId, rightId] false risenStore
    solve.result.converged = true ∧ solve.result.error = 4 ∧
      solve.result.relationErrors.map RelationStatus.satisfied = [false] ∧
      Scalar.sum (solve.result.relationErrors.map RelationStatus.error) = 6 ∧
      risen.error solve.store = 6 ∧ ¬risen.error solve.store ≤ risen.config.tolerance := by
  decide +kernel

end Risen

end Sketch

end PlaneSketch
