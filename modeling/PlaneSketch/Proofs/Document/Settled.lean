import PlaneSketch.Proofs.Document.Encode
import PlaneSketch.Proofs.Document.Normal
import PlaneSketch.Proofs.Solver.Config
import Mathlib.Data.List.Perm.Subperm

/-! Documents that stay what they are when they are loaded and saved, and whose numbers can be
written. Whatever is done to the values of such a document, what is saved is of that kind again. -/
namespace PlaneSketch

section References

private theorem Figure.length_toList_le {κ : Type} (figure : Figure κ) : figure.toList.length ≤ 7 := by
  cases figure <;> simp [toList, Point.toList, Line.toList, Circle.toList, Arc.toList]

private theorem Figure.length_parts_le {κ : Type} (figure : Figure κ) : figure.parts.length ≤ 3 := by
  cases figure <;> simp [parts]

private theorem small_of_lt {i n : Nat} (inside : i < n) (few : n ≤ 7) : Small i :=
  Nat.lt_trans (Nat.lt_of_lt_of_le inside few) (show 7 < twoTo 64 by decide)

private theorem Sketch.fits_of_recordOperand {α : Type} {sketch : Sketch α Relation} {operand : Operand}
    {ref : OperandRef} (recorded : sketch.recordOperand? operand = some ref) : ref.Fits := by
  cases operand with
  | figure f =>
    obtain ⟨ref, found, rfl⟩ := Option.map_eq_some_iff.mp recorded
    rw [findFigure?, Option.or_eq_some_iff] at found
    rcases found with whole | ⟨-, part⟩
    · obtain ⟨e, -, rfl⟩ := Option.map_eq_some_iff.mp whole
      intro part missing
      cases missing
    · obtain ⟨e, -, first⟩ := List.exists_of_findSome?_eq_some part
      obtain ⟨k, place, rfl⟩ := Option.map_eq_some_iff.mp first
      obtain ⟨inside, -⟩ := List.findIdx?_eq_some_iff_getElem.mp place
      intro i same
      cases same
      exact small_of_lt inside (e.figure.length_parts_le.trans (by decide))
  | bare v =>
    obtain ⟨ref, found, rfl⟩ := Option.map_eq_some_iff.mp recorded
    obtain ⟨e, -, first⟩ := List.exists_of_findSome?_eq_some found
    obtain ⟨k, place, rfl⟩ := Option.map_eq_some_iff.mp first
    obtain ⟨inside, -⟩ := List.findIdx?_eq_some_iff_getElem.mp place
    exact small_of_lt inside e.figure.length_toList_le

end References

private theorem length_le_of_small {ns : List Nat} (nodup : ns.Nodup) (small : ∀ n ∈ ns, Small n) :
    ns.length ≤ twoTo 64 := by
  have inside : ns ⊆ List.range (twoTo 64) := fun n member => List.mem_range.mpr (small n member)
  have most := (nodup.subperm inside).length_le
  rwa [List.length_range] at most

namespace Document

/-- The document is what a sketch is saved as, and its numbers can be written. -/
structure Settled (d : Document Float) : Prop where
  saved : ∃ (sketch : Sketch Float Relation) (s : Store Float), sketch.Sound s ∧ sketch.save s = .ok d
  fits : d.Fits

variable {d e : Document Float} {sketch : Sketch Float Relation} {s t : Store Float}

theorem settled_empty : (empty : Document Float).Settled where
  saved := ⟨Sketch.empty, Store.empty, ⟨by decide, rfl, by simp [Sketch.empty],
    by simp [Sketch.figureVariables, Sketch.empty]⟩, rfl⟩
  fits := {
    figures := fun _ none => nomatch none
    relations := fun _ none => nomatch none
    config := by
      obtain ⟨tolerance, relaxation, damped⟩ :=
        Config.finite_of_validate (c := Config.standard) rfl
      exact ⟨show 1000 < twoTo 64 by decide, tolerance, relaxation, damped⟩ }

theorem settled_of_loaded (figures : ∀ r ∈ d.figures, r.shape.Fits)
    (passes : Small d.config.maxIterations) (loaded : Loaded d Store.empty sketch s)
    (names : Store.SameNames s t) (saved : sketch.save t = .ok e) : e.Settled where
  saved := ⟨sketch, t, loaded.sound.sameNames names, saved⟩
  fits := by
    have saved := Sketch.save_eq_ok.mp saved
    have config : e.config = d.config := saved.config.trans loaded.config
    have used : (sketch.usedCells t).length ≤ twoTo 64 := by
      apply length_le_of_small (sketch.nodup_usedCells t)
      intro cell member
      rw [Sketch.usedCells_eq] at member
      obtain ⟨v, first, rfl⟩ := List.mem_map.mp member
      obtain ⟨r, listed, i, position, -, place⟩ :=
        loaded.exists_position (t.distinct_subset _ first)
      rw [names.cellOf, place]
      exact (Nat.zero_add i).symm ▸ r.shape.fits_iff.mp (figures r listed) i position
    refine ⟨?_, ?_, ?_⟩
    · intro r member
      rw [saved.figures] at member
      obtain ⟨entity, listed, rfl⟩ := List.mem_map.mp member
      rw [Figure.fits_iff, Figure.toList_map, List.forall_mem_map]
      intro v named
      exact Nat.lt_of_lt_of_le (Sketch.place_lt t (Sketch.subset_figureVariables listed named)) used
    · intro record member ref listed
      obtain ⟨r, -, recorded⟩ := exists_of_mem_right saved.relations member
      obtain ⟨-, operands⟩ := Sketch.recordRelation_eq_ok.mp recorded
      obtain ⟨operand, -, found⟩ := exists_of_mem_right operands listed
      exact Sketch.fits_of_recordOperand found
    · rw [config]
      obtain ⟨tolerance, relaxation, damped⟩ := Config.finite_of_validate loaded.valid
      exact ⟨passes, tolerance, relaxation, damped⟩

theorem Settled.normal (settled : d.Settled) : d.Normal := by
  obtain ⟨sketch, s, sound, saved⟩ := settled.saved
  exact normal_of_save sound saved

theorem Settled.exists_loaded (settled : d.Settled) :
    ∃ sketch s, d.load Store.empty = .ok (sketch, s) ∧ sketch.save s = .ok d :=
  settled.normal Store.empty

end Document

end PlaneSketch
