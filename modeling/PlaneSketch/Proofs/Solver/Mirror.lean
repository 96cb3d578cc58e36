import PlaneSketch.Proofs.Relation.Mirror
import PlaneSketch.Proofs.Solver.Frame

/-! A solve runs alike on stores that mirror each other: the passes change cells that stand for each
other by the same steps, and the reports are equal. -/
namespace PlaneSketch

variable {α : Type} [Scalar α] {back : Variable → Variable} {vs : List Variable}

namespace Store.Mirrors

variable {s t : Store α}

private theorem amountsFor (mirror : Mirrors back vs t s) {deltas : List (Delta α)}
    (inside : ∀ delta ∈ deltas, delta.target ∈ vs) {v : Variable} (member : v ∈ vs) :
    Store.amountsFor (s.cellOf (back v)) (s.corrections (deltas.map (Delta.map back))) =
      Store.amountsFor (t.cellOf v) (t.corrections deltas) := by
  simp only [Store.amountsFor, corrections, List.filter_map, List.map_map, List.filter_filter]
  have kept : ∀ delta ∈ deltas,
      (s.cellOf (back delta.target) == s.cellOf (back v) &&
          (Scalar.isFinite delta.amount && !s.isConstant (back delta.target))) =
        (t.cellOf delta.target == t.cellOf v &&
          (Scalar.isFinite delta.amount && !t.isConstant delta.target)) := by
    intro delta proposed
    have target := inside delta proposed
    have linked := mirror.linked delta.target target v member
    simp only [Store.isLinked] at linked
    rw [mirror.isConstant target, linked]
  have same := List.filter_congr kept
  simp only [Function.comp_def, Delta.map] at same ⊢
  rw [same]

private theorem cell_correct (s : Store α) (factor : α) (corrections : List (Nat × α)) {v : Variable}
    (live : s.Live v) :
    (s.correct factor corrections).cell v =
      if (Store.amountsFor (s.cellOf v) corrections).isEmpty then s.cell v
      else { s.cell v with
        value := (s.cell v).value + stepOf factor (Store.amountsFor (s.cellOf v) corrections) } := by
  have present : s.cells[s.cellOf v]? = some s.cells[s.cellOf v] := Array.getElem?_eq_getElem live
  rw [cell_eq, cell_eq, (s.sameNames_correct factor corrections).cellOf, getElem?_correct, present]
  rfl

private theorem correct (mirror : Mirrors back vs t s) (factor : α) {deltas : List (Delta α)}
    (inside : ∀ delta ∈ deltas, delta.target ∈ vs) :
    Mirrors back vs (t.correct factor (t.corrections deltas))
      (s.correct factor (s.corrections (deltas.map (Delta.map back)))) := by
  apply mirror.of_cells (t.sameNames_correct factor _) (s.sameNames_correct factor _)
  intro v member
  rw [cell_correct t _ _ (mirror.live v member), cell_correct s _ _ (mirror.liveBack v member),
    mirror.amountsFor inside member, mirror.cell v member]

end Store.Mirrors

section Relations

variable {s t : Store α} (relations : List Relation)

/-- All that the relations own is among the variables. -/
def OwnedWithin (vs : List Variable) (relations : List Relation) : Prop :=
  ∀ relation ∈ relations, relation.owned ⊆ vs

variable {relations}

theorem totalError_map (mirror : Store.Mirrors back vs t s) (inside : OwnedWithin vs relations) :
    totalError s (relations.map (Relation.map back)) = totalError t relations := by
  rw [totalError, totalError, List.map_map]
  congr 1
  exact List.map_congr_left fun relation member => Relation.error_map mirror.toResembles relation (inside relation member)

private theorem mirrors_relax (mirror : Store.Mirrors back vs t s) (inside : OwnedWithin vs relations)
    (factor : α) :
    ∃ t' s', relax factor relations t = .ok t' ∧
      relax factor (relations.map (Relation.map back)) s = .ok s' ∧ Store.Mirrors back vs t' s' := by
  refine ⟨_, _, Relation.relax_eq .., Relation.relax_eq .., ?_⟩
  have proposed : (relations.map (Relation.map back)).flatMap (Constraint.deltas s) =
      (relations.flatMap (Constraint.deltas t)).map (Delta.map back) := by
    rw [List.flatMap_map, List.map_flatMap]
    apply List.flatMap_congr
    exact fun relation member => Relation.deltas_map mirror.toResembles relation (inside relation member)
  rw [proposed]
  apply mirror.correct factor
  intro delta member
  obtain ⟨relation, related, named⟩ := List.mem_flatMap.mp member
  exact inside relation related (Relation.target_mem_owned t relation named)

/-- Two runs with the same errors whose stores mirror each other. -/
structure MirrorRuns (back : Variable → Variable) (vs : List Variable) (r q : Run α) : Prop where
  store : Store.Mirrors back vs r.store q.store
  initialError : q.initialError = r.initialError
  passErrors : q.passErrors = r.passErrors
  fault : q.fault = r.fault

namespace MirrorRuns

variable {r q : Run α}

theorem error (runs : MirrorRuns back vs r q) : q.error = r.error := by
  rw [Run.error, Run.error, runs.passErrors, runs.initialError]

private theorem relaxAtMost (runs : MirrorRuns back vs r q) (inside : OwnedWithin vs relations)
    (tolerance factor : α) (n : Nat) :
    MirrorRuns back vs (relaxAtMost relations tolerance factor n r)
      (PlaneSketch.relaxAtMost (relations.map (Relation.map back)) tolerance factor n q) := by
  induction n generalizing r q with
  | zero => exact runs
  | succ n ih =>
    obtain ⟨t', s', here, there, mirror⟩ := mirrors_relax runs.store inside factor
    rw [PlaneSketch.relaxAtMost, PlaneSketch.relaxAtMost, runs.error, here, there]
    split
    · apply ih
      exact ⟨mirror, runs.initialError, by rw [totalError_map mirror inside, runs.passErrors], runs.fault⟩
    · exact runs

end MirrorRuns

theorem mirrorRuns_relaxHolding (mirror : Store.Mirrors back vs t s)
    (inside : OwnedWithin vs relations) {pinned : List Variable} (held : pinned ⊆ vs)
    (config : Config α) (damped : Bool) :
    MirrorRuns back vs (relaxHolding config relations pinned damped t)
      (relaxHolding config (relations.map (Relation.map back)) (pinned.map back) damped s) := by
  have start := mirror.hold held
  have runs : MirrorRuns back vs
      ⟨t.hold (t.guardFor pinned), totalError (t.hold (t.guardFor pinned)) relations, [], none⟩
      ⟨s.hold (s.guardFor (pinned.map back)),
        totalError (s.hold (s.guardFor (pinned.map back))) (relations.map (Relation.map back)), [], none⟩ :=
    ⟨start, totalError_map start inside, rfl, rfl⟩
  have after := runs.relaxAtMost inside config.tolerance (config.stepFactor damped) config.maxIterations
  exact ⟨mirror.release after.store held, after.initialError, after.passErrors, after.fault⟩

theorem MirrorRuns.result {r q : Run α} (runs : MirrorRuns back vs r q)
    (inside : OwnedWithin vs relations) (config : Config α) (figureCount : Nat) :
    q.result config (relations.map (Relation.map back)) figureCount =
      r.result config relations figureCount := by
  have statuses : relationStatuses config (relations.map (Relation.map back)) q.store =
      relationStatuses config relations r.store := by
    rw [relationStatuses, relationStatuses, List.zipIdx_map, List.map_map]
    apply List.map_congr_left
    rintro ⟨relation, index⟩ member
    have same : Constraint.error q.store (relation.map back) = Constraint.error r.store relation :=
      Relation.error_map runs.store.toResembles relation (inside relation (List.fst_mem_of_mem_zipIdx member))
    have kind : Related.kind (relation.map back) = Related.kind relation := relation.kind_map back
    simp only [Function.comp_apply, Prod.map_apply, id_eq, same, kind]
  rw [Run.result, Run.result, runs.error, Run.iterations, Run.iterations, runs.passErrors,
    runs.initialError, List.length_map, statuses]

end Relations

end PlaneSketch
