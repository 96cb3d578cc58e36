import PlaneSketch.Proofs.Document.Lookup
import PlaneSketch.Proofs.Solver.Mirror
import PlaneSketch.Proofs.Success

/-! What saving a sketch records. Sketches whose stores mirror each other are saved as the same
cells and figures. -/
namespace PlaneSketch

theorem idxOf_map_congr {κ μ ν : Type} [BEq μ] [LawfulBEq μ] [BEq ν] [LawfulBEq ν] {f : κ → μ}
    {g : κ → ν} {a : μ} {b : ν} {xs : List κ} (same : ∀ x ∈ xs, f x = a ↔ g x = b) :
    (xs.map f).idxOf a = (xs.map g).idxOf b := by
  induction xs with
  | nil => rfl
  | cons x xs ih =>
    have head : (f x == a) = (g x == b) := by
      rw [Bool.eq_iff_iff, beq_iff_eq, beq_iff_eq]
      exact same x List.mem_cons_self
    rw [List.map_cons, List.map_cons, List.idxOf_cons, List.idxOf_cons, head,
      ih fun y member => same y (List.mem_cons_of_mem _ member)]

namespace Sketch

variable {α : Type}

section Used

variable {ρ : Type} (sketch : Sketch α ρ) (s : Store α)

theorem usedCells_eq : sketch.usedCells s = (s.distinct sketch.figureVariables).map s.cellOf :=
  (s.map_cellOf_distinct _).symm

theorem nodup_usedCells : (sketch.usedCells s).Nodup := by
  rw [usedCells_eq]
  exact s.nodup_cells_distinct _

variable {sketch} {v : Variable}

theorem mem_usedCells (member : v ∈ sketch.figureVariables) : s.cellOf v ∈ sketch.usedCells s := by
  obtain ⟨first, found, same⟩ := s.exists_mem_distinct member
  rw [usedCells_eq, same]
  exact List.mem_map_of_mem found

def place (sketch : Sketch α ρ) (s : Store α) (v : Variable) : Nat :=
  (sketch.usedCells s).idxOf (s.cellOf v)

theorem place_lt (member : v ∈ sketch.figureVariables) :
    sketch.place s v < (sketch.usedCells s).length :=
  List.idxOf_lt_length_of_mem (mem_usedCells s member)

theorem getElem?_place (member : v ∈ sketch.figureVariables) :
    (sketch.usedCells s)[sketch.place s v]? = some (s.cellOf v) :=
  List.getElem?_idxOf (mem_usedCells s member)

theorem place_eq_iff (member : v ∈ sketch.figureVariables) {w : Variable} :
    sketch.place s v = sketch.place s w ↔ s.cellOf v = s.cellOf w :=
  List.idxOf_inj (mem_usedCells s member)

end Used

theorem recordRelation_eq_ok {sketch : Sketch α Relation} {r : Relation} {record : RelationRecord} :
    sketch.recordRelation r = .ok record ↔ record.kind = r.kind ∧
      List.Forall₂ (fun op ref => sketch.recordOperand? op = some ref) r.operands record.operands := by
  rw [recordRelation, ← mapM_option_eq_some]
  obtain ⟨kind, refs⟩ := record
  cases (Related.operands r).mapM sketch.recordOperand? with
  | none => simp
  | some found =>
    simp only [Except.ok.injEq, RelationRecord.mk.injEq, Option.some.injEq]
    exact and_congr_left fun _ => eq_comm

section Saved

variable [Scalar α]

/-- A document is what saving the sketch records. -/
structure Saved (sketch : Sketch α Relation) (s : Store α) (d : Document α) : Prop where
  cells : d.cells = (sketch.usedCells s).map fun cell => s.cells.getD cell ⟨0, false⟩
  figures : d.figures = sketch.entities.map fun e => ⟨e.id, e.figure.map (sketch.place s)⟩
  relations : List.Forall₂ (fun r record => sketch.recordRelation r = .ok record) sketch.relations
    d.relations
  config : d.config = sketch.config

theorem save_eq_ok {sketch : Sketch α Relation} {s : Store α} {d : Document α} :
    sketch.save s = .ok d ↔ sketch.Saved s d := by
  rw [save, bind_eq_ok]
  constructor
  · rintro ⟨relations, recorded, same⟩
    cases same
    exact ⟨rfl, rfl, mapM_eq_ok.mp recorded, rfl⟩
  · intro saved
    refine ⟨d.relations, mapM_eq_ok.mpr saved.relations, ?_⟩
    obtain ⟨cells, figures, relations, config⟩ := d
    cases saved.cells
    cases saved.figures
    cases saved.config
    rfl

end Saved

end Sketch

end PlaneSketch
