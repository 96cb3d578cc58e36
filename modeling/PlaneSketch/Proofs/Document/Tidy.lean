import PlaneSketch.Proofs.Document.Normal

/-! Loading a document and saving it again. Nothing is lost but the cells that no figure uses: the
others are numbered by first use, and figures, relations and settings stay what they were. -/
namespace PlaneSketch

namespace Document

variable {α : Type}

def positions (d : Document α) : List Nat := d.figures.flatMap fun r => r.shape.toList

def usedCells (d : Document α) : List Nat := d.positions.eraseDups

/-- The document with used cells only, numbered by first use. -/
def tidy [Scalar α] (d : Document α) : Document α :=
  { d with
    cells := d.usedCells.map fun i => d.cells.getD i ⟨0, false⟩
    figures := d.figures.map fun r => ⟨r.id, r.shape.map d.usedCells.idxOf⟩ }

/-- What becomes of a document that is tidied up. Positions are compared one by one, over all figures
in their order. -/
structure Tidied (d n : Document α) : Prop where
  relations : n.relations = d.relations
  config : n.config = d.config
  ids : n.figures.map FigureRecord.id = d.figures.map FigureRecord.id
  kinds : (n.figures.map fun r => r.shape.kind) = d.figures.map fun r => r.shape.kind
  cells : ∀ k i : Nat, d.positions[k]? = some i →
    ∃ (j : Nat) (cell : Cell α), n.positions[k]? = some j ∧ d.cells[i]? = some cell ∧ n.cells[j]? = some cell
  shared : ∀ k l : Nat, n.positions[k]? = n.positions[l]? ↔ d.positions[k]? = d.positions[l]?
  used : n.positions.eraseDups = List.range n.cells.length

theorem mem_usedCells {d : Document α} {i : Nat} (position : i ∈ d.positions) : i ∈ d.usedCells :=
  List.mem_eraseDups.mpr position

variable [Scalar α] {d : Document α}

theorem positions_tidy (d : Document α) : d.tidy.positions = d.positions.map d.usedCells.idxOf := by
  rw [positions, tidy, List.flatMap_map, positions, List.map_flatMap]
  exact List.flatMap_congr fun r _ => Figure.toList_map _ r.shape

private theorem getElem?_cells_tidy {i : Nat} {cell : Cell α} (position : i ∈ d.positions)
    (present : d.cells[i]? = some cell) : d.tidy.cells[d.usedCells.idxOf i]? = some cell := by
  rw [tidy, List.getElem?_map, List.getElem?_idxOf (mem_usedCells position), Option.map_some,
    List.getD_eq_getElem?_getD, present]
  rfl

private theorem getElem?_positions_tidy (d : Document α) (k l : Nat) :
    d.tidy.positions[k]? = d.tidy.positions[l]? ↔ d.positions[k]? = d.positions[l]? := by
  rw [positions_tidy, List.getElem?_map, List.getElem?_map]
  constructor
  · intro same
    cases first : d.positions[k]? with
    | none =>
      rw [first] at same
      exact (Option.map_eq_none_iff.mp same.symm).symm
    | some i =>
      rw [first] at same
      obtain ⟨j, second, number⟩ := Option.map_eq_some_iff.mp same.symm
      have position := mem_usedCells (List.mem_of_getElem? second)
      rw [second, (List.idxOf_inj position).mp number]
  · intro same
    rw [same]

private theorem tidied_tidy (inside : ∀ i ∈ d.positions, i < d.cells.length) (normal : d.tidy.Normal) :
    d.Tidied d.tidy where
  relations := rfl
  config := rfl
  ids := by
    rw [tidy, List.map_map]
    rfl
  kinds := by
    rw [tidy, List.map_map]
    exact List.map_congr_left fun r _ => Figure.kind_map _ r.shape
  cells := by
    intro k i found
    have position := List.mem_of_getElem? found
    have present := List.getElem?_eq_getElem (inside i position)
    refine ⟨d.usedCells.idxOf i, _, ?_, present, getElem?_cells_tidy position present⟩
    rw [positions_tidy, List.getElem?_map, found]
    rfl
  shared := getElem?_positions_tidy d
  used := normal.positions

end Document

private theorem Laid.map_records {first : Nat} {records : List FigureRecord} {entities : List Entity}
    {number : Variable → Nat} {renumber : Nat → Nat} (laid : Laid first records entities)
    (same : (entities.flatMap fun e => e.figure.toList).map number =
      (records.flatMap fun r => r.shape.toList).map renumber) :
    (entities.map fun e => (⟨e.id, e.figure.map number⟩ : FigureRecord)) =
      records.map fun r => ⟨r.id, r.shape.map renumber⟩ := by
  induction laid with
  | nil => rfl
  | @cons _ record _ figure _ kind positions _ ih =>
    rw [List.flatMap_cons, List.flatMap_cons, List.map_append, List.map_append] at same
    obtain ⟨here, later⟩ := List.append_inj same (by simp [positions])
    have shape : figure.map number = record.shape.map renumber := by
      apply Figure.ext_toList
      · rw [Figure.kind_map, Figure.kind_map, kind]
      · rw [Figure.toList_map, Figure.toList_map, here]
    rw [List.map_cons, List.map_cons, ih later, shape]

section Loaded

variable {α : Type} [Scalar α] {d : Document α} {sketch : Sketch α Relation} {t s : Store α}

theorem Loaded.usedCells_eq (loaded : Loaded d t sketch s) :
    sketch.usedCells s = d.usedCells.map (t.cells.size + ·) := by
  change (sketch.figureVariables.map s.cellOf).eraseDups = _
  rw [loaded.map_cellOf, List.eraseDups, eraseDupsBy_map]
  congr 1
  apply eraseDupsBy_congr
  intro i _ j _
  rw [Bool.eq_iff_iff, beq_iff_eq, beq_iff_eq, Nat.add_left_cancel_iff]

private theorem Loaded.map_place (loaded : Loaded d t sketch s) :
    sketch.figureVariables.map (sketch.place s) = d.positions.map d.usedCells.idxOf := by
  have byCell : sketch.place s = (sketch.usedCells s).idxOf ∘ s.cellOf := rfl
  rw [byCell, ← List.map_map, loaded.map_cellOf, List.map_map, loaded.usedCells_eq]
  apply List.map_congr_left
  intro i _
  have same : (d.usedCells.map (t.cells.size + ·)).idxOf (t.cells.size + i) =
      (d.usedCells.map id).idxOf i := idxOf_map_congr fun _ _ => Nat.add_left_cancel_iff
  rwa [List.map_id] at same

private theorem Loaded.save_tidy (loaded : Loaded d t sketch s) : sketch.save s = .ok d.tidy := by
  refine Sketch.save_eq_ok.mpr ⟨?_, ?_, loaded.recorded, loaded.config.symm⟩
  · rw [loaded.usedCells_eq, List.map_map]
    apply List.map_congr_left
    intro i _
    rw [Function.comp_apply, Array.getD_eq_getD_getElem?, loaded.store, Store.getElem?_laid,
      List.getD_eq_getElem?_getD]
  · exact (loaded.entities.map_records loaded.map_place).symm

end Loaded

namespace Document

variable {α : Type} [Scalar α]

/-- Whatever document loads, its sketch is saved as the document tidied up, and tidying up what is
tidy changes nothing any more. -/
theorem exists_tidied {d : Document α} {t s : Store α} {sketch : Sketch α Relation}
    (loads : d.load t = .ok (sketch, s)) :
    ∃ n, sketch.save s = .ok n ∧ d.Tidied n ∧ n.Normal := by
  have loaded := load_eq_ok.mp loads
  have saved := loaded.save_tidy
  have normal := normal_of_save loaded.sound saved
  refine ⟨d.tidy, saved, tidied_tidy ?_ normal, normal⟩
  intro i position
  obtain ⟨r, listed, used⟩ := List.mem_flatMap.mp position
  exact loaded.inside r listed i used

section Scattered

/-- A line that ends on the circle of an arc, in cells that are numbered backwards. One cell is used by
no figure. -/
def scattered : Document Float where
  cells := [⟨7, false⟩, ⟨4, true⟩, ⟨3, false⟩, ⟨2, false⟩]
  figures := [⟨⟨1⟩, .line ⟨⟨3, 1⟩, ⟨2, 1⟩⟩⟩, ⟨⟨2⟩, .arc ⟨⟨3, 1⟩, 2, ⟨2, 1⟩, ⟨1, 2⟩⟩⟩]
  relations := [⟨.pointOnCircle, [.figure ⟨⟨1⟩, some 1⟩, .figure ⟨⟨2⟩, none⟩]⟩]
  config := Config.standard

theorem exists_tidied_scattered :
    ∃ sketch s n, scattered.load Store.empty = .ok (sketch, s) ∧ sketch.save s = .ok n ∧
      scattered.Tidied n ∧ n.Normal := by
  obtain ⟨⟨sketch, s⟩, loads⟩ : ∃ opened, scattered.load Store.empty = .ok opened :=
    exists_of_isOk (by decide +kernel)
  obtain ⟨n, saved, tidied, normal⟩ := exists_tidied loads
  exact ⟨sketch, s, n, loads, saved, tidied, normal⟩

end Scattered

end Document

end PlaneSketch
