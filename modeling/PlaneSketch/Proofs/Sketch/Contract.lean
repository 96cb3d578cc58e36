import PlaneSketch.Proofs.Solver.Frame

/-! What relations owe the solver. They name their own variables only, whatever they were built from and in whatever
state, so that no pass is refused; and where they propose anything they leave none of their variables out. -/
namespace PlaneSketch

variable {α : Type} [Scalar α]

namespace Relation

private theorem exists_delta {s : Store α} {relation : Relation} (proposes : deltas s relation ≠ [])
    {v : Variable} (own : v ∈ owned relation) : ∃ delta ∈ deltas s relation, delta.target = v :=
  List.mem_map.mp ((perm_targets proposes).mem_iff.mp own)

private theorem deltas_eq_nil {s : Store α} {relation : Relation} : deltas s relation = [] ↔
    owned relation = [] ∨ ∃ points, relation = .colinearPoints points ∧ points.length < 3 := by
  constructor
  · intro idle
    cases relation with
    | colinearPoints points =>
      by_cases few : points.length < 3
      · exact .inr ⟨points, rfl, few⟩
      · have named := targets_colinearPoints s points
        rw [targets, idle, if_neg few] at named
        exact .inl named.symm
    | equalValues vs =>
      have named := targets_equalValues s vs
      rw [targets, idle] at named
      exact .inl named.symm
    | equalLength lines =>
      have named := targets_equalLength s lines
      rw [targets, idle] at named
      exact .inl named.symm
    | _ => cases idle
  · rintro (bare | ⟨points, rfl, few⟩)
    · exact List.map_eq_nil_iff.mp (List.subset_nil.mp (bare ▸ targets_subset_owned s relation))
    · exact if_pos few

end Relation

namespace Sketch

variable (sketch : Sketch α Relation) (s : Store α)

theorem fault_solve (held : List EntityId) (damped : Bool) : (sketch.solve held damped s).fault = none :=
  Relation.fault_relaxAtMost ..

private theorem fault_pinAndSolve (v : Variable) (value : α) (hold : Bool) :
    (sketch.pinAndSolve v value hold s).fault = none := by
  rw [pinAndSolve]
  split
  · exact fault_solve ..
  · exact fault_solve ..

private theorem fault_drag {id : EntityId} {start goal : Point α} {damped : Bool} {solve : Solve α}
    (dragged : sketch.drag id start goal damped s = .ok solve) : solve.fault = none := by
  rw [drag] at dragged
  split at dragged
  · cases dragged
  · cases dragged
    exact fault_solve ..

end Sketch

/-- Relations keep to their variables: each proposal is for one of them, and each of them has a proposal unless there is
none at all. So every pass is made, and no solve is broken off. -/
theorem solves_unbroken (relations : List Relation) (s : Store α) :
    (∀ relation ∈ relations,
      (∀ delta ∈ Relation.deltas s relation, delta.target ∈ Relation.owned relation) ∧
      (Relation.deltas s relation ≠ [] →
        ∀ v ∈ Relation.owned relation, ∃ delta ∈ Relation.deltas s relation, delta.target = v) ∧
      (Relation.deltas s relation = [] ↔ Relation.owned relation = [] ∨
        ∃ points, relation = .colinearPoints points ∧ points.length < 3)) ∧
    (∀ factor, ∃ t, relax factor relations s = .ok t) ∧
    (∀ config figureCount held damped, (solveHolding config relations figureCount held damped s).fault = none) ∧
    ∀ entities config,
      let sketch : Sketch α Relation := ⟨entities, relations, config⟩
      (∀ held damped, (sketch.solve held damped s).fault = none) ∧
      (∀ v value hold, (sketch.pinAndSolve v value hold s).fault = none) ∧
      ∀ id start goal damped solve, sketch.drag id start goal damped s = .ok solve → solve.fault = none := by
  refine ⟨fun relation _ => ⟨?_, ?_, Relation.deltas_eq_nil⟩, ?_, ?_, fun entities config => ⟨?_, ?_, ?_⟩⟩
  · exact fun _ => Relation.target_mem_owned s relation
  · exact fun proposes _ => Relation.exists_delta proposes
  · exact fun factor => ⟨_, Relation.relax_eq factor relations s⟩
  · exact fun _ _ _ _ => Relation.fault_relaxAtMost ..
  · exact Sketch.fault_solve _ s
  · exact Sketch.fault_pinAndSolve _ s
  · exact fun _ _ _ _ _ => Sketch.fault_drag _ s

end PlaneSketch
