import PlaneSketch.Proofs.Relation.Owned
import PlaneSketch.Proofs.Store.Cells
import PlaneSketch.Proofs.Success
import PlaneSketch.Sketch.Solve

/-! What a solve may change. A pass moves values of free cells that its relations own and nothing
else; flags change only while figures are held and are put back afterwards. -/
namespace PlaneSketch

open Related Constraint

variable {α ρ : Type}

namespace Store

/-- The values of some free cells named by `vs` may have moved; all else is as it was. -/
structure Moved (vs : List Variable) (s t : Store α) : Prop where
  names : SameNames s t
  constants : ∀ i, t.constantAt i = s.constantAt i
  fixed : ∀ i, s.constantAt i = some true → t.valueAt i = s.valueAt i
  others : ∀ i, (∀ v ∈ vs, s.cellOf v ≠ i) → t.valueAt i = s.valueAt i

namespace Moved

variable {vs ws : List Variable} {s t u : Store α}

theorem refl (vs : List Variable) (s : Store α) : Moved vs s s :=
  ⟨SameNames.refl s, fun _ => rfl, fun _ _ => rfl, fun _ _ => rfl⟩

theorem trans (first : Moved vs s t) (second : Moved vs t u) : Moved vs s u where
  names := first.names.trans second.names
  constants i := (second.constants i).trans (first.constants i)
  fixed i constant := by
    have still : t.constantAt i = some true := (first.constants i).trans constant
    exact (second.fixed i still).trans (first.fixed i constant)
  others i apart := by
    have still : ∀ v ∈ vs, t.cellOf v ≠ i := fun v member => by
      rw [first.names.cellOf]
      exact apart v member
    exact (second.others i still).trans (first.others i apart)

end Moved

theorem amountsFor_eq_nil (i : Nat) (corrections : List (Nat × α))
    (apart : ∀ entry ∈ corrections, entry.1 ≠ i) : amountsFor i corrections = [] := by
  rw [amountsFor, List.map_eq_nil_iff, List.filter_eq_nil_iff]
  intro entry member
  simpa using apart entry member

variable [Scalar α]

theorem sameNames_correct (s : Store α) (factor : α) (corrections : List (Nat × α)) :
    SameNames s (s.correct factor corrections) := ⟨rfl, Array.size_mapIdx⟩

theorem getElem?_correct (s : Store α) (factor : α) (corrections : List (Nat × α)) (i : Nat) :
    (s.correct factor corrections).cells[i]? = (s.cells[i]?).map fun cell =>
      if (amountsFor i corrections).isEmpty then cell
      else { cell with value := cell.value + stepOf factor (amountsFor i corrections) } :=
  Array.getElem?_mapIdx

theorem constantAt_correct (s : Store α) (factor : α) (corrections : List (Nat × α)) (i : Nat) :
    (s.correct factor corrections).constantAt i = s.constantAt i := by
  rw [constantAt, constantAt, getElem?_correct, Option.map_map]
  congr 1
  funext cell
  simp only [Function.comp_apply]
  split <;> rfl

theorem valueAt_correct (s : Store α) (factor : α) (corrections : List (Nat × α)) (i : Nat) :
    (s.correct factor corrections).valueAt i = (s.valueAt i).map fun x =>
      if (amountsFor i corrections).isEmpty then x else x + stepOf factor (amountsFor i corrections) := by
  rw [valueAt, valueAt, getElem?_correct, Option.map_map, Option.map_map]
  congr 1
  funext cell
  simp only [Function.comp_apply]
  split <;> rfl

theorem valueAt_correct_of_nil (s : Store α) (factor : α) (corrections : List (Nat × α)) (i : Nat)
    (none : amountsFor i corrections = []) :
    (s.correct factor corrections).valueAt i = s.valueAt i := by
  rw [valueAt_correct, none]
  simp

theorem mem_corrections (s : Store α) (deltas : List (Delta α)) {entry : Nat × α}
    (member : entry ∈ s.corrections deltas) :
    ∃ delta ∈ deltas, s.cellOf delta.target = entry.1 ∧ s.isConstant delta.target = false := by
  obtain ⟨delta, kept, rfl⟩ := List.mem_map.mp member
  obtain ⟨proposed, counts⟩ := List.mem_filter.mp kept
  simp only [Bool.and_eq_true, Bool.not_eq_true'] at counts
  exact ⟨delta, proposed, rfl, counts.2⟩

theorem amountsFor_of_constant {s : Store α} {i : Nat} (constant : s.constantAt i = some true)
    (deltas : List (Delta α)) : amountsFor i (s.corrections deltas) = [] := by
  apply amountsFor_eq_nil
  rintro entry member rfl
  obtain ⟨delta, -, names, free⟩ := s.mem_corrections deltas member
  rw [isConstant_eq, names, constant] at free
  cases free

private theorem moved_correct (s : Store α) (factor : α) (deltas : List (Delta α)) (vs : List Variable)
    (own : ∀ delta ∈ deltas, delta.target ∈ vs) :
    Moved vs s (s.correct factor (s.corrections deltas)) where
  names := s.sameNames_correct factor _
  constants := s.constantAt_correct factor _
  fixed i constant := s.valueAt_correct_of_nil factor _ i (amountsFor_of_constant constant deltas)
  others i apart := by
    apply s.valueAt_correct_of_nil factor _ i
    apply amountsFor_eq_nil
    intro entry member here
    obtain ⟨delta, proposed, names, _⟩ := s.mem_corrections deltas member
    exact apart delta.target (own delta proposed) (names.trans here)

/-- Whatever has moved while variables were held, releasing them and holding them again changes
nothing, and the guard remembers the same. -/
theorem Moved.hold_release {s t : Store α} {vs pinned : List Variable}
    (moved : Moved vs (s.hold (s.guardFor pinned)) t) :
    let left := t.release (s.guardFor pinned)
    left.guardFor pinned = s.guardFor pinned ∧ left.hold (s.guardFor pinned) = t := by
  intro left
  have below : SameNames s t := (s.sameNames_hold _).trans moved.names
  have names : SameNames s left := below.trans (t.sameNames_release _)
  have flags : ∀ i, left.constantAt i = s.constantAt i :=
    constantAt_release s t pinned below moved.constants
  have guard : left.guardFor pinned = s.guardFor pinned := guardFor_congr names flags pinned
  refine ⟨guard, SameNames.eq ?_ ?_ ?_⟩
  · exact (t.sameNames_release _).trans (left.sameNames_hold _)
  · intro i
    rw [valueAt_hold, valueAt_release]
  · intro i
    have held := constantAt_hold_congr names flags pinned i
    rw [guard] at held
    rw [held, moved.constants]

end Store

section Passes

variable [Constraint α ρ]

theorem ownDeltas_eq_ok {s : Store α} {relation : ρ} {found : List (Delta α)} :
    ownDeltas s relation = .ok found ↔
      found = deltas s relation ∧ ∀ delta ∈ deltas s relation, delta.target ∈ owned relation := by
  rw [ownDeltas]
  split
  case isTrue own =>
    rw [List.all_eq_true] at own
    simp only [decide_eq_true_eq] at own
    exact ⟨fun same => ⟨(Except.ok.inj same).symm, own⟩, fun same => by rw [same.1]⟩
  case isFalse foreign =>
    rw [List.all_eq_true] at foreign
    simp only [decide_eq_true_eq] at foreign
    constructor
    · intro same
      cases same
    · rintro ⟨_, own⟩
      exact absurd own foreign

variable [Scalar α]

theorem moved_relax (factor : α) (relations : List ρ) {s t : Store α}
    (success : relax factor relations s = .ok t) : Store.Moved (relations.flatMap owned) s t := by
  obtain ⟨found, proposed, same⟩ := bind_eq_ok.mp success
  cases same
  apply Store.moved_correct
  intro delta member
  obtain ⟨own, listed, inside⟩ := List.mem_flatten.mp member
  obtain ⟨relation, related, same⟩ :=
    exists_of_mem_right (mapM_eq_ok.mp proposed) listed
  obtain ⟨rfl, own⟩ := ownDeltas_eq_ok.mp same
  exact List.mem_flatMap.mpr ⟨relation, related, own delta inside⟩

theorem moved_relaxAtMost (relations : List ρ) (tolerance factor : α) (n : Nat) (run : Run α) :
    Store.Moved (relations.flatMap owned) run.store
      (relaxAtMost relations tolerance factor n run).store := by
  induction n generalizing run with
  | zero => exact Store.Moved.refl _ _
  | succ n ih =>
    rw [relaxAtMost]
    split
    · split
      case h_1 => exact Store.Moved.refl _ _
      case h_2 store passed =>
        exact (moved_relax factor relations passed).trans
          (ih ⟨store, run.initialError, totalError store relations :: run.passErrors, run.fault⟩)
    · exact Store.Moved.refl _ _

/-- A solve with variables pinned puts every flag back and moves only what is free and owned. -/
theorem moved_relaxHolding (config : Config α) (relations : List ρ) (pinned : List Variable)
    (damped : Bool) (s : Store α) :
    Store.Moved (relations.flatMap owned) s (relaxHolding config relations pinned damped s).store ∧
      ∀ v ∈ pinned, (relaxHolding config relations pinned damped s).store.valueAt (s.cellOf v) =
        s.valueAt (s.cellOf v) := by
  let start := s.hold (s.guardFor pinned)
  let run := relaxAtMost relations config.tolerance (config.stepFactor damped) config.maxIterations
    ⟨start, totalError start relations, [], none⟩
  have moved : Store.Moved (relations.flatMap owned) start run.store :=
    moved_relaxAtMost relations config.tolerance (config.stepFactor damped) config.maxIterations
      ⟨start, totalError start relations, [], none⟩
  have names : Store.SameNames s run.store := (s.sameNames_hold _).trans moved.names
  have value : ∀ i, run.store.valueAt i = start.valueAt i →
      (run.store.release (s.guardFor pinned)).valueAt i = s.valueAt i := by
    intro i same
    rw [Store.valueAt_release, same, Store.valueAt_hold]
  constructor
  · refine ⟨names.trans (run.store.sameNames_release _), ?_, ?_, ?_⟩
    · exact Store.constantAt_release s run.store pinned names moved.constants
    · intro i constant
      apply value i
      apply moved.fixed i
      rw [Store.constantAt_hold, constant]
      split <;> rfl
    · intro i apart
      apply value i
      apply moved.others i
      intro v member
      rw [(s.sameNames_hold _).cellOf]
      exact apart v member
  · intro v member
    apply value
    have held : start.constantAt (s.cellOf v) = (s.constantAt (s.cellOf v)).map fun _ => true := by
      rw [Store.constantAt_hold, if_pos ⟨v, member, rfl⟩]
    cases present : s.constantAt (s.cellOf v) with
    | none => exact moved.names.valueAt_eq_of_missing (by rw [held, present, Option.map_none])
    | some constant => exact moved.fixed _ (by rw [held, present, Option.map_some])

end Passes

namespace Relation

variable [Scalar α]

private theorem ownDeltas_eq (s : Store α) (relation : Relation) :
    ownDeltas s relation = .ok (Constraint.deltas s relation) :=
  ownDeltas_eq_ok.mpr ⟨rfl, fun _ => target_mem_owned s relation⟩

/-- A pass over relations never fails: it collects what all of them propose and applies it. -/
theorem relax_eq (factor : α) (relations : List Relation) (s : Store α) :
    relax factor relations s =
      .ok (s.correct factor (s.corrections (relations.flatMap (Constraint.deltas s)))) := by
  have proposed : relations.mapM (ownDeltas s) = .ok (relations.map (Constraint.deltas s)) := by
    rw [mapM_eq_ok, List.forall₂_map_right_iff, List.forall₂_same]
    exact fun relation _ => ownDeltas_eq s relation
  rw [relax, proposed, ok_bind, List.flatMap_def]
  rfl

theorem fault_relaxAtMost (relations : List Relation) (tolerance factor : α) (n : Nat)
    (run : Run α) : (relaxAtMost relations tolerance factor n run).fault = run.fault := by
  induction n generalizing run with
  | zero => rfl
  | succ n ih =>
    rw [relaxAtMost, relax_eq]
    split
    · exact ih ..
    · rfl

end Relation

/-- A solve of relations returns, and it moves only what it may move: constant cells, cells of the
figures held and cells that no relation names keep their values, and all flags and links stay. -/
theorem solve_frame [Scalar α] (config : Config α) (relations : List Relation) (figureCount : Nat)
    (held : List (Figure Variable)) (damped : Bool) (s : Store α) :
    let solve := solveHolding config relations figureCount held damped s
    solve.fault = none ∧
      (∀ i, s.constantAt i = some true → solve.store.valueAt i = s.valueAt i) ∧
      (∀ f ∈ held, ∀ v ∈ f.toList, solve.store.valueAt (s.cellOf v) = s.valueAt (s.cellOf v)) ∧
      (∀ i, (∀ r ∈ relations, ∀ v ∈ owned r, s.cellOf v ≠ i) →
        solve.store.valueAt i = s.valueAt i) ∧
      (∀ i, solve.store.constantAt i = s.constantAt i) ∧
      ∀ v w, solve.store.isLinked v w = s.isLinked v w := by
  intro solve
  obtain ⟨moved, pinned⟩ :=
    moved_relaxHolding config relations (held.flatMap Figure.toList) damped s
  refine ⟨Relation.fault_relaxAtMost .., moved.fixed, ?_, ?_, moved.constants, moved.names.isLinked⟩
  · intro f member v inside
    exact pinned v (List.mem_flatMap.mpr ⟨f, member, inside⟩)
  · intro i apart
    apply moved.others i
    intro v member
    obtain ⟨r, related, named⟩ := List.mem_flatMap.mp member
    exact apart r related v named

end PlaneSketch
