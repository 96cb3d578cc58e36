import PlaneSketch.Proofs.Document.Save

/-! Two sketches, each in its own store, whose variables stand for each other: solving them gives
equal reports, and they go on mirroring each other. -/
namespace PlaneSketch

def Entity.map (f : Variable → Variable) (e : Entity) : Entity := ⟨e.id, e.figure.map f⟩

namespace Sketch

variable {α : Type} {back : Variable → Variable} {copy sketch : Sketch α Relation} {s t : Store α}

/-- Through its own variables, `copy` is `sketch` between the variables these stand for. -/
structure Mirrors [Scalar α] (back : Variable → Variable) (copy : Sketch α Relation) (t : Store α)
    (sketch : Sketch α Relation) (s : Store α) : Prop where
  entities : sketch.entities = copy.entities.map (Entity.map back)
  relations : sketch.relations = copy.relations.map (Relation.map back)
  config : sketch.config = copy.config
  within : OwnedWithin copy.figureVariables copy.relations
  store : Store.Mirrors back copy.figureVariables t s

theorem figureVariables_map (entities : sketch.entities = copy.entities.map (Entity.map back)) :
    sketch.figureVariables = copy.figureVariables.map back := by
  rw [figureVariables, entities, List.flatMap_map, figureVariables, List.map_flatMap]
  exact List.flatMap_congr fun e _ => Figure.toList_map back e.figure

theorem figure?_map (entities : sketch.entities = copy.entities.map (Entity.map back))
    (id : EntityId) : sketch.figure? id = (copy.figure? id).map (Figure.map back) := by
  rw [figure?, figure?, entities, List.find?_map, Option.map_map, Option.map_map]
  rfl

theorem resolveOperand_map (entities : sketch.entities = copy.entities.map (Entity.map back))
    (ref : OperandRef) :
    sketch.resolveOperand ref = (copy.resolveOperand ref).map (Operand.map back) := by
  cases ref with
  | figure ref =>
    obtain ⟨id, part⟩ := ref
    rw [resolveOperand, resolveOperand, resolveFigure, resolveFigure, figure?_map entities]
    cases copy.figure? id with
    | none => rfl
    | some figure =>
      cases part with
      | none => rfl
      | some part =>
        simp only [Option.map_some, Figure.parts_map, List.getElem?_map]
        cases figure.parts[part]? <;> rfl
  | bare ref =>
    rw [resolveOperand, resolveOperand, resolveVariable, resolveVariable, figure?_map entities]
    cases copy.figure? ref.figure with
    | none => rfl
    | some figure =>
      simp only [Option.map_some, Figure.toList_map, List.getElem?_map]
      cases figure.toList[ref.index]? <;> rfl

private theorem held_subset (held : List EntityId) :
    (held.filterMap copy.figure?).flatMap Figure.toList ⊆ copy.figureVariables := by
  intro v named
  obtain ⟨figure, found, inside⟩ := List.mem_flatMap.mp named
  obtain ⟨id, -, known⟩ := List.mem_filterMap.mp found
  obtain ⟨e, member, -, rfl⟩ := exists_entity known
  exact subset_figureVariables member inside

namespace Mirrors

variable [Scalar α]

private theorem place (mirror : Mirrors back copy t sketch s) {v : Variable}
    (member : v ∈ copy.figureVariables) : sketch.place s (back v) = copy.place t v := by
  have same : ∀ w ∈ t.distinct copy.figureVariables,
      (s.cellOf (back w) = s.cellOf (back v) ↔ t.cellOf w = t.cellOf v) := by
    intro w first
    rw [← Store.isLinked_iff, ← Store.isLinked_iff,
      mirror.store.linked w (t.distinct_subset _ first) v member]
  rw [Sketch.place, Sketch.place, usedCells_eq, usedCells_eq, figureVariables_map mirror.entities,
    mirror.store.distinct (List.Subset.refl _), List.map_map]
  exact idxOf_map_congr same

private theorem cells (mirror : Mirrors back copy t sketch s) :
    ((sketch.usedCells s).map fun cell => s.cells.getD cell ⟨0, false⟩) =
      (copy.usedCells t).map fun cell => t.cells.getD cell ⟨0, false⟩ := by
  rw [usedCells_eq, usedCells_eq, figureVariables_map mirror.entities,
    mirror.store.distinct (List.Subset.refl _), List.map_map, List.map_map, List.map_map]
  apply List.map_congr_left
  intro v first
  exact (mirror.store.cell v (t.distinct_subset _ first)).symm

theorem saved (mirror : Mirrors back copy t sketch s) {d : Document α} (saved : sketch.Saved s d)
    (recorded : List.Forall₂ (fun r record => copy.recordRelation r = .ok record) copy.relations
      d.relations) : copy.Saved t d where
  cells := saved.cells.trans mirror.cells
  figures := by
    rw [saved.figures, mirror.entities, List.map_map]
    apply List.map_congr_left
    intro e member
    have positions : ((e.figure.map back).map (sketch.place s)) = e.figure.map (copy.place t) := by
      apply Figure.ext_toList
      · simp
      · rw [Figure.toList_map, Figure.toList_map, Figure.toList_map, List.map_map]
        exact List.map_congr_left fun v named => mirror.place (subset_figureVariables member named)
    rw [Function.comp_apply, ← positions]
    rfl
  relations := recorded
  config := saved.config.trans mirror.config

private theorem held_map (mirror : Mirrors back copy t sketch s) (held : List EntityId) :
    (held.filterMap sketch.figure?).flatMap Figure.toList =
      ((held.filterMap copy.figure?).flatMap Figure.toList).map back := by
  have found : held.filterMap sketch.figure? = (held.filterMap copy.figure?).map (Figure.map back) := by
    rw [List.map_filterMap]
    exact List.filterMap_congr fun id _ => figure?_map mirror.entities id
  rw [found, List.flatMap_map, List.map_flatMap]
  exact List.flatMap_congr fun figure _ => Figure.toList_map back figure

theorem runs (mirror : Mirrors back copy t sketch s) (held : List EntityId) (damped : Bool) :
    MirrorRuns back copy.figureVariables (copy.solve held damped t).run
      (sketch.solve held damped s).run := by
  have runs := mirrorRuns_relaxHolding mirror.store mirror.within (held_subset held) copy.config damped
  rw [← mirror.relations, ← mirror.held_map held] at runs
  change MirrorRuns back _ _ (relaxHolding sketch.config _ _ damped s)
  rw [mirror.config]
  exact runs

theorem result (mirror : Mirrors back copy t sketch s) (held : List EntityId) (damped : Bool) :
    (sketch.solve held damped s).result = (copy.solve held damped t).result := by
  have result := (mirror.runs held damped).result mirror.within sketch.config sketch.entities.length
  rw [← mirror.relations] at result
  have count : sketch.entities.length = copy.entities.length := by rw [mirror.entities, List.length_map]
  exact result.trans (by rw [mirror.config, count]; rfl)

theorem solve (mirror : Mirrors back copy t sketch s) (held : List EntityId) (damped : Bool) :
    Mirrors back copy (copy.solve held damped t).store sketch (sketch.solve held damped s).store :=
  { mirror with store := (mirror.runs held damped).store }

end Mirrors

end Sketch

end PlaneSketch
