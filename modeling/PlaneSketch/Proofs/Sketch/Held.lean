import PlaneSketch.Proofs.Solver.Pinning

/-! Holding figures. Of the ids that a solve is given, only the cells of the figures that they lead to count:
neither their order nor repetitions nor ids without a figure make a difference. -/
namespace PlaneSketch

open Constraint

variable {α ρ : Type} [Scalar α] [Constraint α ρ]

private theorem relaxHolding_congr {s : Store α} {vs ws : List Variable} (covered : s.SameCells vs ws)
    (config : Config α) (relations : List ρ) (damped : Bool) :
    relaxHolding config relations vs damped s = relaxHolding config relations ws damped s := by
  let start : Run α := ⟨s.hold (s.guardFor vs), totalError (s.hold (s.guardFor vs)) relations, [], none⟩
  let run := relaxAtMost relations config.tolerance (config.stepFactor damped) config.maxIterations start
  have moved : Store.Moved (relations.flatMap Related.owned) start.store run.store := moved_relaxAtMost ..
  have released : run.store.release (s.guardFor vs) = run.store.release (s.guardFor ws) :=
    Store.release_guardFor_congr covered moved.sameFlags
  rw [relaxHolding, relaxHolding, ← Store.hold_guardFor_congr covered]
  exact congrArg (fun store => { run with store }) released

namespace Sketch

/-- The cell belongs to a figure that one of the ids leads to. -/
def Covers (sketch : Sketch α ρ) (s : Store α) (ids : List EntityId) (i : Nat) : Prop :=
  ∃ id ∈ ids, ∃ figure, sketch.figure? id = some figure ∧ ∃ v ∈ figure.toList, s.cellOf v = i

section Covering

variable {α ρ : Type} {sketch : Sketch α ρ} {s : Store α} {held others : List EntityId}

theorem covers_iff (i : Nat) :
    sketch.Covers s held i ↔ ∃ v ∈ (held.filterMap sketch.figure?).flatMap Figure.toList, s.cellOf v = i := by
  simp only [Covers, List.mem_flatMap, List.mem_filterMap]
  constructor
  · rintro ⟨id, listed, figure, found, v, member, names⟩
    exact ⟨v, ⟨figure, ⟨id, listed, found⟩, member⟩, names⟩
  · rintro ⟨v, ⟨figure, ⟨id, listed, found⟩, member⟩, names⟩
    exact ⟨id, listed, figure, found, v, member, names⟩

private theorem covers_congr
    (same : ∀ figure, (∃ id ∈ held, sketch.figure? id = some figure) ↔ ∃ id ∈ others, sketch.figure? id = some figure)
    (i : Nat) : sketch.Covers s held i ↔ sketch.Covers s others i := by
  have one : ∀ {ids others : List EntityId},
      (∀ figure, (∃ id ∈ ids, sketch.figure? id = some figure) → ∃ id ∈ others, sketch.figure? id = some figure) →
      sketch.Covers s ids i → sketch.Covers s others i := by
    rintro ids others leads ⟨id, listed, figure, found, named⟩
    obtain ⟨other, listed, found⟩ := leads figure ⟨id, listed, found⟩
    exact ⟨other, listed, figure, found, named⟩
  exact ⟨one fun figure => (same figure).mp, one fun figure => (same figure).mpr⟩

end Covering

/-- Solves that hold the same figures, or figures that cover the same cells, report the same and leave the
same store. -/
theorem solve_covered (sketch : Sketch α ρ) (held others : List EntityId) (damped : Bool) (s : Store α)
    (same : (∀ figure, (∃ id ∈ held, sketch.figure? id = some figure) ↔
        ∃ id ∈ others, sketch.figure? id = some figure) ∨
      ∀ i, sketch.Covers s held i ↔ sketch.Covers s others i) :
    let solve := sketch.solve held damped s
    let other := sketch.solve others damped s
    solve.result = other.result ∧ solve.store = other.store ∧ solve.fault = other.fault ∧
      solve.pinnedCells = other.pinnedCells := by
  intro solve other
  have covers : ∀ i, sketch.Covers s held i ↔ sketch.Covers s others i := same.elim covers_congr id
  have cells : s.SameCells ((held.filterMap sketch.figure?).flatMap Figure.toList)
      ((others.filterMap sketch.figure?).flatMap Figure.toList) := fun i => by
    rw [← covers_iff, ← covers_iff, covers]
  have run : solve.run = other.run := relaxHolding_congr cells sketch.config sketch.relations damped
  have result : solve.result = other.result :=
    congrArg (fun run => run.result sketch.config sketch.relations sketch.entities.length) run
  exact ⟨result, congrArg Run.store run, congrArg Run.fault run, cells.length_distinct⟩

section Hinged

def hinged : Sketch Float Relation where
  entities := [⟨⟨1⟩, .line ⟨⟨⟨0⟩, ⟨1⟩⟩, ⟨⟨2⟩, ⟨3⟩⟩⟩⟩, ⟨⟨2⟩, .point ⟨⟨0⟩, ⟨1⟩⟩⟩, ⟨⟨3⟩, .point ⟨⟨4⟩, ⟨5⟩⟩⟩]
  relations := [.equalValues [⟨0⟩, ⟨6⟩]]
  config := Config.standard

def hingedStore : Store Float :=
  ⟨#[⟨1, false⟩, ⟨2, false⟩, ⟨3, true⟩, ⟨4, false⟩, ⟨5, false⟩], #[0, 1, 2, 3, 2, 3, 4]⟩

/-- The two points cover the line between them, and an id without a figure covers nothing. -/
theorem solve_covered_hinged :
    (hinged.solve [⟨1⟩] false hingedStore).result = (hinged.solve [⟨3⟩, ⟨2⟩, ⟨9⟩, ⟨3⟩] false hingedStore).result ∧
      (hinged.solve [⟨1⟩] false hingedStore).store = (hinged.solve [⟨3⟩, ⟨2⟩, ⟨9⟩, ⟨3⟩] false hingedStore).store := by
  have covers : ∀ i, hinged.Covers hingedStore [⟨1⟩] i ↔ hinged.Covers hingedStore [⟨3⟩, ⟨2⟩, ⟨9⟩, ⟨3⟩] i := by
    intro i
    have line : (([⟨1⟩].filterMap hinged.figure?).flatMap Figure.toList).map hingedStore.cellOf =
        [0, 1, 2, 3] := by decide
    have points : (([⟨3⟩, ⟨2⟩, ⟨9⟩, ⟨3⟩].filterMap hinged.figure?).flatMap Figure.toList).map hingedStore.cellOf =
        [2, 3, 0, 1, 2, 3] := by decide
    rw [covers_iff, covers_iff, ← List.mem_map, ← List.mem_map, line, points]
    simp only [List.mem_cons, List.not_mem_nil, or_false]
    omega
  obtain ⟨result, store, -⟩ := solve_covered hinged [⟨1⟩] [⟨3⟩, ⟨2⟩, ⟨9⟩, ⟨3⟩] false hingedStore (.inr covers)
  exact ⟨result, store⟩

end Hinged

end Sketch

end PlaneSketch
