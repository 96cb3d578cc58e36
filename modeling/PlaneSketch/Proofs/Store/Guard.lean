import Mathlib.Data.Finset.Card
import PlaneSketch.Proofs.Store.Cells

/-! What a guard amounts to. Pinning variables in turn makes the guard that is taken of all of them at
once, and a guard does to a store what the cells of its variables say, in whatever order they are listed. -/
namespace PlaneSketch.Store

variable {α : Type}

/-- The stores differ in values only. -/
structure SameFlags (s t : Store α) : Prop extends SameNames s t where
  flags : ∀ i, t.constantAt i = s.constantAt i

namespace SameFlags

variable {s t u : Store α}

theorem refl (s : Store α) : SameFlags s s := ⟨.refl s, fun _ => rfl⟩

theorem trans (first : SameFlags s t) (second : SameFlags t u) : SameFlags s u where
  toSameNames := first.toSameNames.trans second.toSameNames
  flags i := (second.flags i).trans (first.flags i)

end SameFlags

def SameCells (s : Store α) (vs ws : List Variable) : Prop :=
  ∀ i, (∃ v ∈ vs, s.cellOf v = i) ↔ ∃ w ∈ ws, s.cellOf w = i

theorem length_distinct (s : Store α) (vs : List Variable) :
    (s.distinct vs).length = (vs.map s.cellOf).toFinset.card := by
  have cells : ((s.distinct vs).map s.cellOf).toFinset = (vs.map s.cellOf).toFinset := by
    rw [map_cellOf_distinct]
    ext i
    simp
  rw [← cells, List.toFinset_card_of_nodup (s.nodup_cells_distinct vs), List.length_map]

theorem SameCells.length_distinct {s : Store α} {vs ws : List Variable} (covered : s.SameCells vs ws) :
    (s.distinct vs).length = (s.distinct ws).length := by
  have cells : (vs.map s.cellOf).toFinset = (ws.map s.cellOf).toFinset := by
    ext i
    simpa using covered i
  rw [Store.length_distinct, Store.length_distinct, cells]

private theorem hold_concat (s : Store α) (saved : List (Variable × Bool)) (v : Variable) (constant : Bool) :
    s.hold ⟨saved ++ [(v, constant)]⟩ = (s.hold ⟨saved⟩).setConstant v true :=
  List.foldl_concat ..

variable [Scalar α]

section InTurn

variable (s : Store α)

private theorem isConstant_hold_of_apart {vs : List Variable} {v : Variable}
    (apart : ∀ w ∈ vs, s.cellOf w ≠ s.cellOf v) :
    (s.hold (s.guardFor vs)).isConstant v = s.isConstant v := by
  have other : ¬∃ w ∈ vs, s.cellOf w = s.cellOf v := fun ⟨w, member, here⟩ => apart w member here
  rw [isConstant_eq, isConstant_eq, (s.sameNames_hold _).cellOf, constantAt_hold, if_neg other]

/-- The variables before `v` are pinned when it is reached, which its own flag shows only if one of them is
linked to it; then its cell is saved already. -/
private theorem pinNext_hold (vs : List Variable) (v : Variable) :
    pinNext (s.guardFor vs, s.hold (s.guardFor vs)) v =
      (s.guardFor (vs ++ [v]), s.hold (s.guardFor (vs ++ [v]))) := by
  have linked : ((s.guardFor vs).saved.any fun entry => (s.hold (s.guardFor vs)).isLinked entry.1 v) =
      (s.distinct vs).any (s.isLinked v) := by
    rw [guardFor, List.any_map]
    apply List.any_congr rfl
    intro w
    rw [Function.comp_apply, (s.sameNames_hold _).isLinked, isLinked_comm]
  rw [pinNext, linked, guardFor, guardFor, distinct_concat]
  cases known : (s.distinct vs).any (s.isLinked v) with
  | true => rfl
  | false =>
    have apart : ∀ w ∈ vs, s.cellOf w ≠ s.cellOf v := by
      intro w member same
      obtain ⟨first, found, here⟩ := s.exists_mem_distinct member
      have unlinked := List.any_eq_false.mp known first found
      exact unlinked (isLinked_iff.mpr (same.symm.trans here))
    have flag : (s.hold ⟨(s.distinct vs).map fun w => (w, s.isConstant w)⟩).isConstant v = s.isConstant v :=
      s.isConstant_hold_of_apart apart
    simp only [Bool.false_eq_true, if_false, List.map_append, List.map_cons, List.map_nil, hold_concat, flag]

/-- Pinning variables in turn takes a guard of all of them and holds it. -/
theorem pin_eq (vs : List Variable) : s.pin vs = (s.guardFor vs, s.hold (s.guardFor vs)) := by
  induction vs using List.reverseRecOn with
  | nil => rfl
  | append_singleton vs v ih =>
    have last : s.pin (vs ++ [v]) = pinNext (s.pin vs) v := List.foldl_concat ..
    rw [last, ih, pinNext_hold]

theorem length_saved_guardFor (vs : List Variable) :
    (s.guardFor vs).saved.length = (vs.map s.cellOf).toFinset.card := by
  rw [guardFor, List.length_map, length_distinct]

end InTurn

section SameCells

variable {s t : Store α} {vs ws : List Variable}

theorem hold_guardFor_congr (covered : s.SameCells vs ws) : s.hold (s.guardFor vs) = s.hold (s.guardFor ws) := by
  apply SameNames.eq ((s.sameNames_hold _).symm.trans (s.sameNames_hold _))
  · intro i
    rw [valueAt_hold, valueAt_hold]
  · intro i
    rw [constantAt_hold, constantAt_hold, if_congr (covered i) rfl rfl]

theorem release_guardFor_congr (covered : s.SameCells vs ws) (held : SameFlags (s.hold (s.guardFor vs)) t) :
    t.release (s.guardFor vs) = t.release (s.guardFor ws) := by
  have names : SameNames s t := (s.sameNames_hold _).trans held.toSameNames
  apply SameNames.eq ((t.sameNames_release _).symm.trans (t.sameNames_release _))
  · intro i
    rw [valueAt_release, valueAt_release]
  · intro i
    have alike : ∀ i, t.constantAt i = (s.hold (s.guardFor ws)).constantAt i := by
      rw [← hold_guardFor_congr covered]
      exact held.flags
    rw [constantAt_release s t vs names held.flags, constantAt_release s t ws names alike]

end SameCells

end PlaneSketch.Store
