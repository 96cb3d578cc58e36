import PlaneSketch.Proofs.Document.Reload

/-! Documents in normal form. Such a document loads beside whatever variables there are and is saved
as itself. What a sketch is saved as is in normal form, and a loaded document can be saved again
whatever has become of its values. -/
namespace PlaneSketch

private theorem map_idxOf_eq_range {κ : Type} [BEq κ] [LawfulBEq κ] {xs : List κ} (nodup : xs.Nodup) :
    xs.map xs.idxOf = List.range xs.length := by
  apply List.ext_getElem
  · simp
  · intro i inside _
    rw [List.getElem_map, List.getElem_range, nodup.idxOf_getElem]

private theorem Sketch.eraseDups_place {α ρ : Type} (sketch : Sketch α ρ) (s : Store α) :
    (sketch.figureVariables.map (sketch.place s)).eraseDups = List.range (sketch.usedCells s).length := by
  have firsts : (sketch.figureVariables.map (sketch.place s)).eraseDups =
      (s.distinct sketch.figureVariables).map (sketch.place s) := by
    rw [List.eraseDups, eraseDupsBy_map]
    congr 1
    apply eraseDupsBy_congr
    intro v member w _
    rw [Bool.eq_iff_iff, beq_iff_eq, place_eq_iff s member, Store.isLinked_iff]
  have numbers : (s.distinct sketch.figureVariables).map (sketch.place s) =
      (sketch.usedCells s).map (sketch.usedCells s).idxOf := by
    rw [usedCells_eq, List.map_map, ← usedCells_eq]
    rfl
  rw [firsts, numbers, map_idxOf_eq_range (sketch.nodup_usedCells s)]

variable {α : Type} [Scalar α]

section Loaded

variable {d : Document α} {sketch : Sketch α Relation} {t s : Store α}

theorem Loaded.map_cellOf (loaded : Loaded d t sketch s) :
    sketch.figureVariables.map s.cellOf =
      (d.figures.flatMap fun r => r.shape.toList).map (t.cells.size + ·) := by
  rw [Sketch.figureVariables, loaded.entities.flatMap_toList, loaded.store]
  generalize (d.figures.flatMap fun r => r.shape.toList) = positions
  apply List.ext_getElem (by simp)
  intro j inside outside
  rw [List.length_map] at outside
  simp only [List.getElem_map, Store.numbered, List.getElem_range', Nat.one_mul]
  exact Store.cellOf_laid_position t d.cells positions (List.getElem?_eq_getElem outside)

theorem Loaded.exists_position (loaded : Loaded d t sketch s) {v : Variable}
    (member : v ∈ sketch.figureVariables) :
    ∃ r ∈ d.figures, ∃ i ∈ r.shape.toList, i < d.cells.length ∧ s.cellOf v = t.cells.size + i := by
  have cell : s.cellOf v ∈ sketch.figureVariables.map s.cellOf := List.mem_map_of_mem member
  rw [loaded.map_cellOf] at cell
  obtain ⟨i, position, same⟩ := List.mem_map.mp cell
  obtain ⟨r, listed, used⟩ := List.mem_flatMap.mp position
  exact ⟨r, listed, i, used, loaded.inside r listed i used, same.symm⟩

theorem Loaded.sound (loaded : Loaded d t sketch s) : sketch.Sound s where
  ids := by
    rw [Sketch.ids, loaded.entities.ids]
    exact loaded.ids
  config := by
    rw [loaded.config]
    exact loaded.valid
  built := by
    intro r member
    obtain ⟨record, -, success⟩ := exists_of_mem_right loaded.relations member
    obtain ⟨found, -, built⟩ := Sketch.buildRelation_eq_ok.mp success
    exact ⟨record.kind, found, built⟩
  live := by
    intro v member
    obtain ⟨r, -, i, -, inside, cell⟩ := loaded.exists_position member
    rw [Store.Live, cell, loaded.store, Store.size_cells_laid]
    exact Nat.add_lt_add_left inside _

theorem Sketch.Sound.sameNames (sound : sketch.Sound s) (names : Store.SameNames s t) : sketch.Sound t :=
  { sound with live := fun v member => names.live (sound.live v member) }

/-- Whatever its values have become, a loaded sketch can be saved. -/
theorem Loaded.exists_saved (loaded : Loaded d t sketch s) (u : Store α) :
    ∃ e, sketch.save u = .ok e :=
  ⟨⟨_, _, d.relations, sketch.config⟩, Sketch.save_eq_ok.mpr ⟨rfl, rfl, loaded.recorded, rfl⟩⟩

end Loaded

namespace Document

/-- The document loads beside any store and is saved as itself. -/
def Normal (d : Document α) : Prop :=
  ∀ t : Store α, ∃ sketch s, d.load t = .ok (sketch, s) ∧ sketch.save s = .ok d

variable {d : Document α} {sketch : Sketch α Relation} {s : Store α}

theorem normal_of_save (sound : sketch.Sound s) (saved : sketch.save s = .ok d) : d.Normal := by
  intro t
  have saved := Sketch.save_eq_ok.mp saved
  obtain ⟨copy, t', back, loaded, mirror⟩ := Sketch.exists_loaded sound saved t
  exact ⟨copy, t', load_eq_ok.mpr loaded, Sketch.save_eq_ok.mpr (mirror.saved saved loaded.recorded)⟩

/-- The cells of a normal document are numbered in the order in which its figures use them first, and
all of them are used. -/
theorem Normal.positions (normal : d.Normal) :
    (d.figures.flatMap fun r => r.shape.toList).eraseDups = List.range d.cells.length := by
  obtain ⟨sketch, s, -, saved⟩ := normal Store.empty
  have saved := Sketch.save_eq_ok.mp saved
  rw [saved.positions, sketch.eraseDups_place, saved.cells, List.length_map]

end Document

end PlaneSketch
